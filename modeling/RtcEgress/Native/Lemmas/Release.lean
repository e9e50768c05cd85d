import RtcEgress.Native.Lemmas.Staffed

/-!
# 完了と停止の当てる先

完了したタスクは、そのワーカーのチャンネルにあれば必ず見つかり、表から除かれる。停止の送り先は、いつも元のタスクの
チャンネルのワーカーである。
-/

namespace RtcEgress.Native

open RtcEgress.Lib

theorem Finishes.after {α : Type} {m : WorkerManager} {a : M α} {I : WorkerManager → Prop} (h : Finishes a (fun _ => I) m) :
    I (a.after m) := Action.Ends.after (Action.Ends.mono h (fun _ h => h.elim) fun _ _ h => h)

variable {identity : String → TaskIdentity} {m : WorkerManager} {workerID : Nat} {taskID : String} {o : Outcome}

/-! ## 完了 -/

theorem locate_sound {channel cmd : String} (h : m.locate workerID taskID o = some (channel, cmd)) :
    m.tables.channelWorkers.lookup channel = some workerID ∧ m.tables.Has channel cmd taskID := by
  simp only [WorkerManager.locate, Option.bind_eq_bind, Option.bind_eq_some_iff, Option.pure_def, Option.some.injEq,
    Prod.mk.injEq] at h
  obtain ⟨c, hc, tasks, htasks, k, hk, rfl, rfl⟩ := h
  obtain ⟨i, hworker, hi⟩ := (mem_keys_filter (· == workerID)).mp (mem_of_choose hc)
  obtain ⟨ids, hids, hmem⟩ := (mem_keys_filter fun ids => decide (taskID ∈ ids)).mp (mem_of_choose hk)
  rw [eq_of_beq hi] at hworker
  exact ⟨hworker, tasks, ids, htasks, hids, by simpa using hmem⟩

/-- ワーカーのチャンネルは一つなので、そこにあるタスクは見つかる。 -/
theorem Sound.locate (h : Sound identity m.tables) {channel cmd : String}
    (hw : m.tables.channelWorkers.lookup channel = some workerID) (hhas : m.tables.Has channel cmd taskID) :
    m.locate workerID taskID o = some (channel, cmd) := by
  obtain ⟨tasks, ids, htasks, hids, hmem⟩ := hhas
  have hchannel : channel ∈ (m.tables.channelWorkers.entries.filter fun e => e.2 == workerID).map Sigma.fst :=
    (mem_keys_filter (· == workerID)).mpr ⟨workerID, hw, by simp⟩
  have hcmd : cmd ∈ (tasks.entries.filter fun e => taskID ∈ e.2).map Sigma.fst :=
    (mem_keys_filter fun ids => decide (taskID ∈ ids)).mpr ⟨ids, hids, by simpa using hmem⟩
  obtain ⟨c, hc⟩ := choose_of_mem o.pickChannel hchannel
  obtain ⟨k, hk⟩ := choose_of_mem o.pickCmd hcmd
  have hsame : c = channel := by
    obtain ⟨i, hworker, hi⟩ := (mem_keys_filter (· == workerID)).mp (mem_of_choose hc)
    rw [eq_of_beq hi, h.inverse, (h.inverse channel workerID).mp hw] at hworker
    exact (Option.some.inj hworker).symm
  have hfound : m.locate workerID taskID o = some (channel, k) := by simp [WorkerManager.locate, hc, hsame, htasks, hk]
  have hidentity := h.named taskID channel k (locate_sound hfound).2
  rw [h.named taskID channel cmd ⟨tasks, ids, htasks, hids, hmem⟩, TaskIdentity.mk.injEq] at hidentity
  rw [hfound, hidentity.2]

/-- 完了したタスクだけが、そのワーカーのチャンネルから除かれる。 -/
structure Releases (t : Tables) (workerID : Nat) (taskID : String) (t' : Tables) : Prop where
  has : ∀ channel cmd x, t'.Has channel cmd x ↔
    t.Has channel cmd x ∧ ¬(t.channelWorkers.lookup channel = some workerID ∧ x = taskID)
  owner : ∀ channel i, t'.channelWorkers.lookup channel = some i ↔
    t.channelWorkers.lookup channel = some i ∧ ∃ cmd x, t'.Has channel cmd x

theorem Ledger.releases (h : Ledger identity m.tables) (workerID : Nat) (taskID : String) (o : Outcome) :
    Ledger identity (m.withoutCompleted workerID taskID o).tables ∧
      Releases m.tables workerID taskID (m.withoutCompleted workerID taskID o).tables := by
  have hfound (channel cmd : String) (hw : m.tables.channelWorkers.lookup channel = some workerID)
      (hhas : m.tables.Has channel cmd taskID) :
      (m.locate workerID taskID o).filter (fun x => x.1 ≠ "" ∧ x.2 ≠ "") = some (channel, cmd) := by
    rw [h.toSound.locate hw hhas]
    simpa using h.plain channel cmd taskID hhas
  unfold WorkerManager.withoutCompleted
  split
  · rename_i channel cmd hlocate
    obtain ⟨hw, hhas⟩ := locate_sound (Option.filter_eq_some_iff.mp hlocate).1
    refine ⟨h.removeTask, ⟨?_, h.owner_removeTask⟩⟩
    intro c k x
    change (m.tables.removeTask channel cmd taskID o.pickWorker).Has c k x ↔ _
    rw [h.has_removeTask]
    apply and_congr_right
    intro hx
    apply not_congr
    constructor
    · rintro ⟨rfl, -, rfl⟩
      exact ⟨hw, rfl⟩
    · rintro ⟨hc, rfl⟩
      have hother := hfound c k hc hx
      rw [hlocate, Option.some.injEq, Prod.mk.injEq] at hother
      exact ⟨hother.1.symm, hother.2.symm, rfl⟩
  · rename_i hlocate
    refine ⟨h, ⟨?_, ?_⟩⟩
    · intro c k x
      constructor
      · intro hx
        refine ⟨hx, ?_⟩
        rintro ⟨hc, rfl⟩
        rw [hfound c k hc hx] at hlocate
        cases hlocate
      · exact fun hx => hx.1
    · intro c i
      constructor
      · exact fun hc => ⟨hc, h.has_of_owner hc⟩
      · exact fun hc => hc.1

theorem Releases.owner_ne {t t' : Tables} (hr : Releases t workerID taskID t') (h : Ledger identity t) {channel : String}
    {i : Nat} (hi : i ≠ workerID) :
    t'.channelWorkers.lookup channel = some i ↔ t.channelWorkers.lookup channel = some i := by
  rw [hr.owner]
  constructor
  · exact fun hc => hc.1
  · intro hc
    obtain ⟨k, x, hx⟩ := h.has_of_owner hc
    refine ⟨hc, k, x, (hr.has channel k x).mpr ⟨hx, ?_⟩⟩
    rintro ⟨hw, -⟩
    rw [hc] at hw
    exact hi (Option.some.inj hw)

/-- 割り当てのあるワーカーは、動いたままになる。 -/
theorem Ledger.stateAfter (h : Ledger identity m.tables) (workerID : Nat) :
    m.stateAfter workerID = .running ∨
      m.stateAfter workerID = .idle ∧ ∀ channel, m.tables.channelWorkers.lookup channel ≠ some workerID := by
  cases hchannel : m.tables.workerChannels.lookup workerID with
  | none =>
      refine .inr ⟨by simp [WorkerManager.stateAfter, hchannel], ?_⟩
      intro c hc
      rw [h.inverse, hchannel] at hc
      cases hc
  | some channel =>
      have hw := (h.inverse channel workerID).mpr hchannel
      have hmapped : (m.tables.channelTasks.lookup channel).isSome := by
        rw [h.mapped, hw]
        rfl
      obtain ⟨tasks, htasks⟩ := Option.isSome_iff_exists.mp hmapped
      exact .inl (by simp [WorkerManager.stateAfter, hchannel, htasks, h.owned channel tasks htasks])

theorem owned_of_running (h : Ledger identity m.tables) (hstate : m.stateAfter workerID = .running) :
    ∃ channel, m.tables.channelWorkers.lookup channel = some workerID := by
  cases hchannel : m.tables.workerChannels.lookup workerID with
  | none => simp [WorkerManager.stateAfter, hchannel] at hstate
  | some channel => exact ⟨channel, (h.inverse channel workerID).mpr hchannel⟩

/-! ## 停止 -/

/-- 止めるタスクのある表は、元のタスクのチャンネルのものである。 -/
theorem owner_of_target (h : Sound identity m.tables) {task : StopTask}
    (htarget : m.targetWorker task (identity task.originalTaskID).channel o = some workerID) :
    m.tables.channelWorkers.lookup (identity task.originalTaskID).channel = some workerID := by
  unfold WorkerManager.targetWorker at htarget
  dsimp only at htarget
  split at htarget
  · rename_i hnamed
    cases htarget
    exact (h.inverse _ _).mpr hnamed.2.2.2
  · rw [Option.or_eq_some_iff] at htarget
    rcases htarget with hchannel | ⟨-, hsearch⟩
    · split at hchannel
      · cases hchannel
      · exact (Option.filter_eq_some_iff.mp (Option.filter_eq_some_iff.mp hchannel).1).1
    · obtain ⟨⟨c, tasks⟩, hentry, he⟩ := List.mem_filterMap.mp (mem_of_choose hsearch)
      split at he
      · rename_i htracked
        obtain ⟨⟨k, ids⟩, hids, hmem⟩ := List.any_eq_true.mp htracked
        have hhas : m.tables.Has c k task.originalTaskID :=
          ⟨tasks, ids, AList.mem_lookup_iff.mpr hentry, AList.mem_lookup_iff.mpr hids, by simpa using hmem⟩
        rw [h.named _ c k hhas]
        exact (Option.filter_eq_some_iff.mp he).1
      · cases he

theorem owner_of_stopTarget (h : Sound identity m.tables) {task : StopTask} {original : Option OriginalTask}
    (htarget : m.stopTarget identity task original o = some workerID) :
    m.tables.channelWorkers.lookup (identity task.originalTaskID).channel = some workerID := by
  unfold WorkerManager.stopTarget at htarget
  split at htarget
  · cases htarget
  · cases original with
    | none => cases htarget
    | some orig =>
        dsimp only at htarget
        split at htarget
        · cases htarget
        · exact owner_of_target h htarget

end RtcEgress.Native
