import RtcEgress.Native.Tables

/-!
# 表の書き換えの後のタスク

`Has` と `channelWorkers` だけで、`removeTask` と `assign` の後の表を述べる。どのチャンネルも、割り当てがあるのは
タスクがあるときに限る。
-/

namespace RtcEgress.Native

open RtcEgress.Lib

/-- `Sound` に加えて、割り当てたチャンネルには必ずタスクがあり、チャンネルと種類の名前は空でない。 -/
structure Ledger (identity : String → TaskIdentity) (t : Tables) : Prop extends Sound identity t where
  owned : ∀ channel tasks, t.channelTasks.lookup channel = some tasks → tasks.entries ≠ []
  plain : ∀ channel cmd taskID, t.Has channel cmd taskID → channel ≠ "" ∧ cmd ≠ ""

/-- 種類の表にあるタスク。 -/
def Listed (tasks : TasksByType) (cmd taskID : String) : Prop := ∃ ids, tasks.lookup cmd = some ids ∧ taskID ∈ ids

theorem has_iff {t : Tables} {channel cmd taskID : String} :
    t.Has channel cmd taskID ↔ ∃ tasks, t.channelTasks.lookup channel = some tasks ∧ Listed tasks cmd taskID := by
  constructor
  · rintro ⟨tasks, ids, htasks, hids, hmem⟩
    exact ⟨tasks, htasks, ids, hids, hmem⟩
  · rintro ⟨tasks, htasks, ids, hids, hmem⟩
    exact ⟨tasks, ids, htasks, hids, hmem⟩

theorem not_listed_of_empty {tasks : TasksByType} (h : tasks.entries = []) (cmd taskID : String) :
    ¬Listed tasks cmd taskID := by
  rintro ⟨ids, hids, -⟩
  have hentry := AList.mem_lookup_iff.mp hids
  simp [h] at hentry

theorem listed_withoutTask {tasks : TasksByType} {cmd taskID : String}
    (hsingle : ∀ ids, tasks.lookup cmd = some ids → ids.length ≤ 1) (k x : String) :
    Listed (Tables.withoutTask tasks cmd taskID) k x ↔ Listed tasks k x ∧ ¬(k = cmd ∧ x = taskID) := by
  unfold Tables.withoutTask
  split
  · rename_i hnone
    constructor
    · rintro ⟨ids, hids, hmem⟩
      refine ⟨⟨ids, hids, hmem⟩, ?_⟩
      rintro ⟨rfl, -⟩
      simp [hnone] at hids
    · exact fun h => h.1
  · rename_i ids hids
    have hnodup : ids.Nodup := by
      have := hsingle ids hids
      match ids with
      | [] => simp
      | [x] => simp
      | _ :: _ :: _ => simp at this
    rcases eq_or_ne k cmd with rfl | hk
    · have hx : Listed tasks k x ↔ x ∈ ids := by simp [Listed, hids]
      rw [hx]
      split
      · rename_i hempty
        have hmem : x ∉ ids.erase taskID := by simp [hempty]
        rw [hnodup.mem_erase_iff] at hmem
        simp only [Listed, lookup_erase_ite, if_true]
        tauto
      · simp [Listed, hnodup.mem_erase_iff, and_comm]
    · split <;> simp [Listed, hk]

section Tables

variable {identity : String → TaskIdentity} {t : Tables} {channel cmd taskID : String} {workerID : Nat} {pick : Option Nat}

/-- 除いた後に残るのは、除いたもののほかのタスクである。 -/
theorem Sound.has_removeTask (h : Sound identity t) (c k x : String) :
    (t.removeTask channel cmd taskID pick).Has c k x ↔ t.Has c k x ∧ ¬(c = channel ∧ k = cmd ∧ x = taskID) := by
  rw [has_iff, has_iff]
  unfold Tables.removeTask
  split
  · rename_i hnone
    constructor
    · rintro ⟨tasks, htasks, hlisted⟩
      refine ⟨⟨tasks, htasks, hlisted⟩, ?_⟩
      rintro ⟨rfl, -⟩
      simp [hnone] at htasks
    · exact fun h => h.1
  · rename_i tasks htasks
    have hlisted : Listed (Tables.withoutTask tasks cmd taskID) k x ↔ Listed tasks k x ∧ ¬(k = cmd ∧ x = taskID) :=
      listed_withoutTask (fun ids hids => (h.single channel tasks cmd ids htasks hids).2) k x
    dsimp only
    split
    · rename_i hempty
      have hnone := not_listed_of_empty hempty k x
      rw [hlisted] at hnone
      simp only [lookup_erase_ite]
      rcases eq_or_ne c channel with rfl | hc
      · simp only [if_true, htasks, Option.some.injEq, exists_eq_left']
        tauto
      · simp [hc]
    · simp only [lookup_insert_ite]
      rcases eq_or_ne c channel with rfl | hc
      · simp [htasks, hlisted]
      · simp [hc]

theorem Ledger.has_of_owner (h : Ledger identity t) (hw : t.channelWorkers.lookup channel = some workerID) :
    ∃ cmd taskID, t.Has channel cmd taskID := by
  have hmapped : (t.channelTasks.lookup channel).isSome := by
    rw [h.mapped, hw]
    rfl
  obtain ⟨tasks, htasks⟩ := Option.isSome_iff_exists.mp hmapped
  obtain ⟨⟨cmd, ids⟩, hentry⟩ := List.exists_mem_of_ne_nil _ (h.owned channel tasks htasks)
  have hids := AList.mem_lookup_iff.mpr hentry
  obtain ⟨taskID, hmem⟩ := List.exists_mem_of_ne_nil _ (h.single channel tasks cmd ids htasks hids).1
  exact ⟨cmd, taskID, tasks, ids, htasks, hids, hmem⟩

theorem Sound.owner_of_has (h : Sound identity t) (hhas : t.Has channel cmd taskID) :
    ∃ workerID, t.channelWorkers.lookup channel = some workerID := by
  obtain ⟨tasks, -, htasks, -, -⟩ := hhas
  rw [← Option.isSome_iff_exists, ← h.mapped, htasks]
  rfl

theorem Ledger.removeTask (h : Ledger identity t) : Ledger identity (t.removeTask channel cmd taskID pick) where
  toSound := h.toSound.removeTask
  owned := by
    intro c tasks' hc
    unfold Tables.removeTask at hc
    split at hc
    · exact h.owned c tasks' hc
    · dsimp only at hc
      split at hc
      · rw [lookup_erase_ite] at hc
        split at hc
        · cases hc
        · exact h.owned c tasks' hc
      · rename_i hne
        rw [lookup_insert_ite] at hc
        split at hc
        · rw [← Option.some.inj hc]
          exact hne
        · exact h.owned c tasks' hc
  plain := by
    intro c k x hhas
    rw [h.has_removeTask] at hhas
    exact h.plain c k x hhas.1

/-- 割り当てが残るのは、タスクの残るチャンネルである。 -/
theorem Ledger.owner_removeTask (h : Ledger identity t) (c : String) (i : Nat) :
    (t.removeTask channel cmd taskID pick).channelWorkers.lookup c = some i ↔
      t.channelWorkers.lookup c = some i ∧ ∃ k x, (t.removeTask channel cmd taskID pick).Has c k x := by
  have hafter : Ledger identity (t.removeTask channel cmd taskID pick) := h.removeTask
  have hsub (j : Nat) (hj : (t.removeTask channel cmd taskID pick).channelWorkers.lookup c = some j) :
      t.channelWorkers.lookup c = some j := by
    unfold Tables.removeTask at hj
    split at hj
    · exact hj
    · dsimp only at hj
      split at hj
      · rw [lookup_erase_ite] at hj
        split at hj
        · cases hj
        · exact hj
      · exact hj
  constructor
  · exact fun hi => ⟨hsub i hi, hafter.has_of_owner hi⟩
  · rintro ⟨hi, k, x, hhas⟩
    obtain ⟨j, hj⟩ := hafter.owner_of_has hhas
    rw [hsub j hj] at hi
    rwa [hj]

theorem has_assign (hempty : t.existing channel cmd = []) (c k x : String) :
    (t.assign channel workerID cmd taskID).Has c k x ↔ t.Has c k x ∨ c = channel ∧ k = cmd ∧ x = taskID := by
  constructor
  · rintro ⟨tasks, ids, htasks, hids, hmem⟩
    rcases Sound.lookup_assign hempty htasks hids with ⟨rfl, rfl, rfl⟩ | ⟨tasks₀, htasks₀, hids₀⟩
    · exact .inr ⟨rfl, rfl, List.mem_singleton.mp hmem⟩
    · exact .inl ⟨tasks₀, ids, htasks₀, hids₀, hmem⟩
  · rw [has_iff, has_iff]
    simp only [Tables.assign, lookup_insert_ite]
    rcases eq_or_ne c channel with rfl | hc
    · rintro (⟨tasks, htasks, hlisted⟩ | ⟨-, rfl, rfl⟩)
      · have hk : k ≠ cmd := by
          rintro rfl
          obtain ⟨ids, hids, hmem⟩ := hlisted
          simp [Tables.existing, htasks, hids] at hempty
          simp [hempty] at hmem
        simp only [if_true, Option.some.injEq, exists_eq_left', htasks, Option.getD_some, Listed, lookup_insert_ite, hk,
          if_false]
        exact hlisted
      · simp [Listed]
    · simp [hc]

theorem Ledger.assign (h : Ledger identity t) (hid : identity taskID = ⟨channel, cmd⟩) (hempty : t.existing channel cmd = [])
    (hw : t.channelWorkers.lookup channel = some workerID ∨
      t.channelWorkers.lookup channel = none ∧ t.workerChannels.lookup workerID = none)
    (hplain : channel ≠ "" ∧ cmd ≠ "") : Ledger identity (t.assign channel workerID cmd taskID) where
  toSound := h.toSound.assign hid hempty hw
  owned := by
    intro c tasks hc
    simp only [Tables.assign, lookup_insert_ite] at hc
    split at hc
    · rw [← Option.some.inj hc]
      simp [AList.entries_insert]
    · exact h.owned c tasks hc
  plain := by
    intro c k x hhas
    rw [has_assign hempty] at hhas
    rcases hhas with hhas | ⟨rfl, rfl, -⟩
    · exact h.plain c k x hhas
    · exact hplain

theorem Ledger.empty : Ledger identity Tables.empty where
  toSound := .empty
  owned := by simp [Tables.empty]
  plain := by simp [Tables.Has, Tables.empty]

end Tables

end RtcEgress.Native
