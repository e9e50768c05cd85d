import RtcEgress.Native.Lemmas.Keeps

/-!
# 終わったワーカーのタスクの回復

`recoverTasksFromDeadWorker` は、タスクを延長の対象から外して Redis のキューへ戻す。割り当ての表には触れないので、
同じポッドが戻したタスクを取り出しても、開始の検査は前のタスクがまだ動いているとみなす。
-/

namespace RtcEgress.Native

open RtcEgress.Lib

/-- 同じ種類のタスクがチャンネルにあるときに開始が返すエラー。 -/
def alreadyRunning (i : TaskIdentity) : String := "task of type " ++ i.cmd ++ " already running on channel " ++ i.channel

/-- 戻したタスクは、延長の対象にも割り当ての表にもなく、もう一度始められる。 -/
structure Restartable (identity : String → TaskIdentity) (taskID : String) (m : WorkerManager) : Prop where
  inactive : m.activeTasks.lookup taskID = none
  untracked : ∀ channel cmd, ¬m.tables.Has channel cmd taskID
  admitted : ∀ o, (startNativeRecorderTask identity taskID o).Ends (fun _ => True)
    (fun err _ => err ≠ some (alreadyRunning (identity taskID))) m

/-- どの到達できる状態からの回復でも、戻したタスクは再び始められる。 -/
def RecoveredRestarts : Prop :=
  ∀ identity podID numWorkers m, (manager identity).Reach (fun _ _ => True) (.init podID numWorkers) m →
    ∀ workerID, ∀ taskID ∈ m.tasksToRecover workerID,
      (recoverTasksFromDeadWorker workerID).Ends (fun _ => True) (fun _ m' => Restartable identity taskID m') m

/-! ## タスクの居場所 -/

/-- 表のタスクは、記録のチャンネルと種類のところにある。 -/
def Named (identity : String → TaskIdentity) (t : Tables) : Prop :=
  ∀ taskID channel cmd, t.Has channel cmd taskID → identity taskID = ⟨channel, cmd⟩

section Named

variable {identity : String → TaskIdentity} {t : Tables} {channel cmd taskID : String} {workerID : Nat}

theorem Named.of_sub {t' : Tables} (h : Named identity t) (hsub : ∀ id c k, t'.Has c k id → t.Has c k id) :
    Named identity t' := fun id c k hhas => h id c k (hsub id c k hhas)

theorem Named.dropChannel (h : Named identity t) : Named identity (t.dropChannel channel workerID) :=
  h.of_sub fun _ _ _ hhas => hhas.of_dropChannel

theorem Named.removeTask : Removable (Named identity) :=
  fun h => h.of_sub fun _ _ _ hhas => hhas.of_removeTask

theorem Named.assign (h : Named identity t) :
    Named identity (t.assign (identity taskID).channel workerID (identity taskID).cmd taskID) := by
  intro id c k hhas
  rcases hhas.of_assign with ⟨rfl, rfl, rfl⟩ | hold
  · rfl
  · exact h id c k hold

theorem keeps_findWorkerForChannel : KeepsTables (Named identity) (findWorkerForChannel channel) := by
  apply Action.Keeps.get.bind
  intro m
  split
  · exact .pure
  · have hfree : KeepsTables (Named identity) (do
        let m ← Action.get
        return m.findFreeWorker) := Action.Keeps.get.bind fun _ => .pure
    dsimp only
    split
    · apply Action.Keeps.bind _ fun _ => hfree
      exact Action.Keeps.modify fun m h => h.dropChannel
    · exact hfree

theorem keeps_startNativeRecorderTask {o : Outcome} :
    KeepsTables (Named identity) (startNativeRecorderTask identity taskID o) := by
  apply Action.Keeps.ite .pure
  apply keeps_lock.bind
  intro _
  apply Action.Keeps.get.bind
  intro m
  apply Action.Keeps.ite (keeps_unlock.bind fun _ => .pure)
  apply keeps_findWorkerForChannel.bind
  intro found
  split
  · exact keeps_unlock.bind fun _ => .pure
  · apply Action.Keeps.bind (Action.Keeps.modify fun m h => h.assign)
    intro _
    apply Action.Keeps.get.bind
    intro m
    apply Action.Keeps.ite
    · apply (keeps_removeTaskFromChannel Named.removeTask).bind
      exact fun _ => keeps_unlock.bind fun _ => .pure
    · apply Action.Keeps.bind (keeps_of_same_tables fun _ => setState_tables)
      exact fun _ => keeps_unlock.bind fun _ => .pure

theorem named_reach {podID : String} {numWorkers : Nat} {g : (manager identity).Condition} {m : WorkerManager}
    (h : (manager identity).Reach g (.init podID numWorkers) m) : Named identity m.tables := by
  apply System.Reach.invariant (I := fun m : WorkerManager => Named identity m.tables) h
  · rintro id c k ⟨tasks, ids, hc, -, -⟩
    simp [WorkerManager.init, Tables.empty] at hc
  · intro op m hnamed _
    apply tables_apply Named.removeTask hnamed
    rintro id o -
    exact (keeps_startNativeRecorderTask m hnamed).after

end Named

/-! ## 回復の後の開始 -/

section Recovered

variable {identity : String → TaskIdentity} {m : WorkerManager} {taskID : String} {workerID : Nat}

theorem has_of_tasksToRecover (h : taskID ∈ m.tasksToRecover workerID) : ∃ channel cmd, m.tables.Has channel cmd taskID := by
  obtain ⟨-, h⟩ := List.mem_filter.mp h
  obtain ⟨e, -, h⟩ := List.any_eq_true.mp h
  rw [Bool.and_eq_true] at h
  cases htasks : m.tables.channelTasks.lookup e.1 with
  | none => simp [htasks] at h
  | some tasks =>
      simp only [htasks, Option.map_some, Option.getD_some, isTracked, List.any_eq_true, decide_eq_true_eq] at h
      obtain ⟨⟨cmd, ids⟩, hentry, hmem⟩ := h.2
      exact ⟨e.1, cmd, tasks, ids, htasks, AList.mem_lookup_iff.mpr hentry, hmem⟩

/-- 表にあるタスクの開始は、いつでも断られる。 -/
theorem start_refused (hnamed : Named identity m.tables) (hfree : m.held .manager = false) {channel cmd : String}
    (hhas : m.tables.Has channel cmd taskID) {o : Outcome} (hbuild : o.build = true) :
    (startNativeRecorderTask identity taskID o).Ends (fun _ => False)
      (fun err _ => err = some (alreadyRunning (identity taskID))) m := by
  have hid := hnamed taskID channel cmd hhas
  obtain ⟨tasks, ids, htasks, hids, hmem⟩ := hhas
  have hexisting : m.tables.existing (identity taskID).channel (identity taskID).cmd ≠ [] := by
    rw [hid]
    simpa [Tables.existing, htasks, hids] using List.ne_nil_of_mem hmem
  simp [startNativeRecorderTask, hbuild, hfree, hexisting]
  rfl

/-- 回復は、割り当ての表を変えず、ロックを放して終わる。 -/
theorem recoverTasksFromDeadWorker_ends (hrec : taskID ∈ m.tasksToRecover workerID) :
    (recoverTasksFromDeadWorker workerID).Ends (fun _ => True)
      (fun _ m' => m'.tables = m.tables ∧ m'.held .manager = false) m := by
  obtain ⟨hmem, -⟩ := List.mem_filter.mp hrec
  obtain ⟨⟨id, pod⟩, he, -⟩ := List.mem_map.mp hmem
  obtain ⟨he, hpod⟩ := List.mem_filter.mp he
  obtain rfl := eq_of_beq hpod
  have hmine : ¬∀ x, (⟨x, m.podID⟩ : Sigma fun _ : String => String) ∉ m.activeTasks.entries := fun h => h id he
  simp [recoverTasksFromDeadWorker, hmine]

end Recovered

/-- 回復で戻したタスクは割り当ての表に残り、再び始められることはない。 -/
theorem recovered_not_restartable {identity : String → TaskIdentity} {podID : String} {numWorkers : Nat}
    {m : WorkerManager} (hreach : (manager identity).Reach (fun _ _ => True) (.init podID numWorkers) m)
    {workerID : Nat} {taskID : String} (hrec : taskID ∈ m.tasksToRecover workerID) :
    (recoverTasksFromDeadWorker workerID).Ends (fun _ => True) (fun _ m' => ¬Restartable identity taskID m' ∧
      (∃ channel cmd, m'.tables.Has channel cmd taskID) ∧
      ∀ o, o.build = true → (startNativeRecorderTask identity taskID o).Ends (fun _ => False)
        (fun err _ => err = some (alreadyRunning (identity taskID))) m') m := by
  obtain ⟨channel, cmd, hhas⟩ := has_of_tasksToRecover hrec
  have hnamed := named_reach hreach
  apply (recoverTasksFromDeadWorker_ends hrec).mono (fun _ h => h)
  rintro _ m' ⟨htables, hfree⟩
  rw [← htables] at hhas hnamed
  exact ⟨fun h => h.untracked channel cmd hhas, ⟨channel, cmd, hhas⟩, fun o => start_refused hnamed hfree hhas⟩

/-- チャンネル `c` の録画のワーカーが終わり、起動し直される。 -/
def dieWhileRecording : List Op :=
  [.monitorWorker 0 true, .startNativeRecorderTask "a" {}, .track "a", .die 0, .monitorWorker 0 true]

def oneRecord (_ : String) : TaskIdentity := ⟨"c", "record"⟩

def diedWhileRecording : WorkerManager := (manager oneRecord).run dieWhileRecording (.init "p" 1)

theorem reach_diedWhileRecording : (manager oneRecord).Reach (fun _ _ => True) (.init "p" 1) diedWhileRecording :=
  System.reach_run (System.allMeet_of_forall (fun _ _ => trivial) dieWhileRecording _)

theorem diedWhileRecording_not_restartable :
    (recoverTasksFromDeadWorker 0).Ends (fun _ => True) (fun _ m' => ¬Restartable oneRecord "a" m' ∧
      (∃ channel cmd, m'.tables.Has channel cmd "a") ∧
      ∀ o, o.build = true → (startNativeRecorderTask oneRecord "a" o).Ends (fun _ => False)
        (fun err _ => err = some (alreadyRunning (oneRecord "a"))) m') diedWhileRecording :=
  recovered_not_restartable reach_diedWhileRecording (by decide)

theorem not_recoveredRestarts : ¬RecoveredRestarts := by
  intro h
  have hrestart : Restartable oneRecord "a" ((recoverTasksFromDeadWorker 0).after diedWhileRecording) :=
    h oneRecord "p" 1 diedWhileRecording reach_diedWhileRecording 0 "a" (by decide)
  exact hrestart.untracked "c" "record" ⟨_, ["a"], rfl, rfl, List.mem_singleton_self _⟩

end RtcEgress.Native
