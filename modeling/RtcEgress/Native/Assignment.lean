import RtcEgress.Native.Lemmas.Keeps

/-!
# 割り当ての表の一致

三つの表は操作ごとに少しずつ書き換えられる。起動し直したワーカーは、表に割り当てが残っていても空いていると
みなされるので、二つのチャンネルに割り当てられうる。
-/

namespace RtcEgress.Native

open RtcEgress.Lib

/-- どの操作の後でも、三つの表は食い違わない。 -/
def TablesConsistent (g : ∀ identity, (manager identity).Condition) : Prop :=
  ∀ identity podID numWorkers m, (manager identity).Reach (g identity) (.init podID numWorkers) m → Consistent m.tables

/-! ## 成り立たない操作の列 -/

def twoRecords (taskID : String) : TaskIdentity := if taskID = "a" then ⟨"c", "record"⟩ else ⟨"d", "record"⟩

/-- チャンネル `c` のワーカーが終わり、起動し直した後に、チャンネル `d` の録画が始まる。 -/
def startAfterRestart : List Op :=
  [.monitorWorker 0 true, .startNativeRecorderTask "a" {}, .die 0, .monitorWorker 0 true,
    .startNativeRecorderTask "b" {}]

theorem not_tablesConsistent : ¬TablesConsistent fun _ _ _ => True := by
  intro h
  have hmeet : (manager twoRecords).AllMeet (fun _ _ => True) startAfterRestart (.init "p" 1) :=
    System.allMeet_of_forall (fun _ _ => trivial) _ _
  have hconsistent := h twoRecords "p" 1 _ (System.reach_run hmeet)
  have hworker : ((manager twoRecords).run startAfterRestart (.init "p" 1)).tables.channelWorkers.lookup "c" = some 0 := by
    decide
  have hchannel : ((manager twoRecords).run startAfterRestart (.init "p" 1)).tables.workerChannels.lookup 0 = some "d" := by
    decide
  rw [(hconsistent.inverse "c" 0).mp hworker] at hchannel
  exact absurd hchannel (by decide)

/-! ## 成り立つ条件 -/

/-- 開始が空いたワーカーを探すとき、見つかるワーカーはどのチャンネルにも割り当てられていない。 -/
def freshWorker (identity : String → TaskIdentity) : (manager identity).Condition
  | .startNativeRecorderTask taskID o, m =>
      o.build = true → m.held .manager = false →
        m.tables.existing (identity taskID).channel (identity taskID).cmd = [] →
        m.usableWorker (identity taskID).channel = none →
        ∀ workerID, m.findFreeWorker = some workerID → m.tables.workerChannels.lookup workerID = none
  | _, _ => True

section Start

variable {identity : String → TaskIdentity} {m : WorkerManager} {channel cmd taskID : String}

/-- 割り当ててよいワーカー。 -/
def Assignable (t : Tables) (channel : String) (workerID : Nat) : Prop :=
  t.channelWorkers.lookup channel = some workerID ∨
    t.channelWorkers.lookup channel = none ∧ t.workerChannels.lookup workerID = none

theorem findWorkerForChannel_ends {B : WorkerManager → Prop} (h : Sound identity m.tables)
    (hempty : m.tables.existing channel cmd = [])
    (hfresh : m.usableWorker channel = none →
      ∀ workerID, m.findFreeWorker = some workerID → m.tables.workerChannels.lookup workerID = none) :
    (findWorkerForChannel channel).Ends B (fun found m' => m'.held = m.held ∧ Sound identity m'.tables ∧
      m'.tables.existing channel cmd = [] ∧ ∀ workerID, found = some workerID → Assignable m'.tables channel workerID) m := by
  simp only [findWorkerForChannel, Action.ends_bind, Action.ends_get]
  split
  · rename_i workerID husable
    refine ⟨rfl, h, hempty, ?_⟩
    intro i hi
    cases hi
    exact .inl (Option.filter_eq_some_iff.mp husable).1
  · rename_i husable
    split
    · rename_i dead hdead
      refine ⟨rfl, h.dropChannel hdead, ?_, fun workerID hfree => .inr ⟨?_, ?_⟩⟩
      · simp [WorkerManager.withTables, Tables.existing, Tables.dropChannel]
      · simp [WorkerManager.withTables, Tables.dropChannel]
      · simp only [WorkerManager.withTables, Tables.dropChannel, lookup_erase_ite]
        rw [hfresh husable workerID hfree, ite_self]
    · rename_i hnone
      exact ⟨rfl, h, hempty, fun workerID hfree => .inr ⟨hnone, hfresh husable workerID hfree⟩⟩

/-- 空いたワーカーに割り当てがなければ、開始は表の一致を保つ。送信に失敗して止まったときも同じである。 -/
theorem start_ends {o : Outcome} (h : Sound identity m.tables)
    (hg : freshWorker identity (.startNativeRecorderTask taskID o) m) :
    (startNativeRecorderTask identity taskID o).Ends (fun m => Sound identity m.tables)
      (fun _ m => Sound identity m.tables) m := by
  simp only [startNativeRecorderTask, Action.ends_bind, Action.ends_ite, ends_lock, Action.ends_get]
  refine ⟨fun _ => h, fun hbuild => ⟨fun _ => h, fun hheld => ⟨fun _ => h, fun hempty => ?_⟩⟩⟩
  have hempty' := not_not.mp hempty
  have hbuild' : o.build = true := by simpa using hbuild
  have hfind := findWorkerForChannel_ends (m := { m with held := Function.update m.held .manager true })
    (B := fun m => Sound identity m.tables) h hempty' (hg hbuild' hheld hempty')
  refine hfind.mono (fun _ h => h) fun found m' hfound => ?_
  obtain ⟨hheld', h', hempty', hassign⟩ := hfound
  split
  · exact h'
  · rename_i workerID
    have hassigned : Sound identity (m'.tables.assign (identity taskID).channel workerID (identity taskID).cmd taskID) :=
      h'.assign rfl hempty' (hassign workerID rfl)
    simp only [Action.ends_bind, Action.ends_modify, Action.ends_get, Action.ends_ite]
    refine ⟨fun _ => ?_, fun _ => ?_⟩
    · exact removeTaskFromChannel_blocked (by simp [WorkerManager.withTables, hheld']) hassigned
    · rw [ends_unlock]
      change Sound identity (WorkerManager.setState _ _ _ _).tables
      rw [setState_tables]
      exact hassigned

end Start

theorem sound_apply {identity : String → TaskIdentity} {op : Op} {m : WorkerManager} (h : Sound identity m.tables)
    (hg : freshWorker identity op m) : Sound identity (op.apply identity m).tables := by
  apply tables_apply (fun h => h.removeTask) h
  rintro taskID o rfl
  exact (start_ends h hg).after

theorem tablesConsistent_of_freshWorker {identity : String → TaskIdentity} {podID : String} {numWorkers : Nat}
    {m : WorkerManager} (hreach : (manager identity).Reach (freshWorker identity) (.init podID numWorkers) m) :
    Consistent m.tables := by
  have hinit : Sound identity (WorkerManager.init podID numWorkers).tables := .empty
  have hsound : Sound identity m.tables :=
    System.Reach.invariant (I := fun m : WorkerManager => Sound identity m.tables) hreach hinit
      fun op m h hg => sound_apply h hg
  exact hsound.consistent

/-- チャンネル `c` の録画が終わって空いたワーカーで、チャンネル `d` の録画が始まる。 -/
def startAfterCompletion : List Op :=
  [.monitorWorker 0 true, .startNativeRecorderTask "a" {}, .handleTaskCompletion 0 0 { taskID := "a", success := true } none {},
    .startNativeRecorderTask "b" {}]

theorem startAfterCompletion_consistent : ∃ m, (manager twoRecords).Reach (freshWorker twoRecords) (.init "p" 1) m ∧
    m.tables.channelWorkers.lookup "d" = some 0 ∧ Consistent m.tables := by
  have hmeet : (manager twoRecords).AllMeet (freshWorker twoRecords) startAfterCompletion (.init "p" 1) := by
    refine ⟨trivial, fun _ _ _ _ => ?_, trivial, fun _ _ _ _ => ?_, trivial⟩ <;> decide
  have hworker : ((manager twoRecords).run startAfterCompletion (.init "p" 1)).tables.channelWorkers.lookup "d" = some 0 := by
    decide
  have hreach := System.reach_run hmeet
  exact ⟨_, hreach, hworker, tablesConsistent_of_freshWorker hreach⟩

end RtcEgress.Native
