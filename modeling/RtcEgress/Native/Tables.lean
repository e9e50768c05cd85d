import RtcEgress.Lib.Assoc

/-!
# ワーカーの割り当ての表

`pkg/egress/manager.go` の `ChannelWorkers`、`WorkerChannels`、`ChannelTasks` と、それらの書き換えを写す。三つの表が
食い違わないことを `Consistent` で表し、書き換えがこれを保つ条件を示す。
-/

namespace RtcEgress.Native

open RtcEgress.Lib

/-- 順の決まっていない列挙で、候補のうち最初に見つかるもの。 -/
def choose {α : Type} [DecidableEq α] (pick : Option α) (candidates : List α) : Option α :=
  match pick with
  | some x => if x ∈ candidates then some x else candidates.head?
  | none => candidates.head?

theorem mem_of_choose {α : Type} [DecidableEq α] {pick : Option α} {candidates : List α} {x : α}
    (h : choose pick candidates = some x) : x ∈ candidates := by
  unfold choose at h
  split at h
  · split at h
    · cases h
      assumption
    · exact List.mem_of_head? h
  · exact List.mem_of_head? h

theorem choose_of_mem {α : Type} [DecidableEq α] (pick : Option α) {candidates : List α} {x : α}
    (h : x ∈ candidates) : ∃ y, choose pick candidates = some y := by
  have hne : candidates ≠ [] := List.ne_nil_of_mem h
  unfold choose
  split
  · split
    · exact ⟨_, rfl⟩
    · exact ⟨_, List.head?_eq_some_head hne⟩
  · exact ⟨_, List.head?_eq_some_head hne⟩

/-- 種類ごとのタスクの名前。 -/
abbrev TasksByType := AList fun _ : String => List String

structure Tables where
  channelWorkers : AList fun _ : String => Nat
  workerChannels : AList fun _ : Nat => String
  channelTasks : AList fun _ : String => TasksByType

namespace Tables

def empty : Tables := ⟨∅, ∅, ∅⟩

/-- タスク `taskID` は、種類 `cmd` としてチャンネルにある。 -/
def Has (t : Tables) (channel cmd taskID : String) : Prop :=
  ∃ tasks ids, t.channelTasks.lookup channel = some tasks ∧ tasks.lookup cmd = some ids ∧ taskID ∈ ids

/-- チャンネルの種類 `cmd` のタスク。 -/
def existing (t : Tables) (channel cmd : String) : List String :=
  (((t.channelTasks.lookup channel).getD ∅).lookup cmd).getD []

/-- チャンネルをワーカーに割り当て、タスクを加える。 -/
def assign (t : Tables) (channel : String) (workerID : Nat) (cmd taskID : String) : Tables :=
  let tasks := (t.channelTasks.lookup channel).getD ∅
  { channelWorkers := t.channelWorkers.insert channel workerID
    workerChannels := t.workerChannels.insert workerID channel
    channelTasks := t.channelTasks.insert channel (tasks.insert cmd ((tasks.lookup cmd).getD [] ++ [taskID])) }

/-- 使えなくなったワーカーの割り当てを消す。 -/
def dropChannel (t : Tables) (channel : String) (workerID : Nat) : Tables where
  channelWorkers := t.channelWorkers.erase channel
  workerChannels := t.workerChannels.erase workerID
  channelTasks := t.channelTasks.erase channel

/-- 種類の表から、名前を一つ除く。空になった種類は消す。 -/
def withoutTask (tasks : TasksByType) (cmd taskID : String) : TasksByType :=
  match tasks.lookup cmd with
  | none => tasks
  | some ids => if ids.erase taskID = [] then tasks.erase cmd else tasks.insert cmd (ids.erase taskID)

/-- 値が `channel` であるワーカーの割り当てを一つ消す。 -/
def forgetChannel (t : Tables) (channel : String) (pick : Option Nat) : AList fun _ : Nat => String :=
  match choose pick ((t.workerChannels.entries.filter fun e => e.2 == channel).map Sigma.fst) with
  | some workerID => t.workerChannels.erase workerID
  | none => t.workerChannels

/-- `removeTaskFromChannel` がロックの中で行うこと。 -/
def removeTask (t : Tables) (channel cmd taskID : String) (pick : Option Nat) : Tables :=
  match t.channelTasks.lookup channel with
  | none => t
  | some tasks =>
      let tasks := withoutTask tasks cmd taskID
      if tasks.entries = [] then
        { channelWorkers := t.channelWorkers.erase channel
          workerChannels := t.forgetChannel channel pick
          channelTasks := t.channelTasks.erase channel }
      else { t with channelTasks := t.channelTasks.insert channel tasks }

end Tables

/-! ## 表のタスク -/

namespace Tables

variable {t : Tables} {channel cmd taskID c k id : String} {workerID : Nat} {pick : Option Nat}

theorem Has.of_dropChannel (h : (t.dropChannel channel workerID).Has c k id) : t.Has c k id := by
  obtain ⟨tasks, ids, hc, hk, hmem⟩ := h
  simp only [dropChannel, lookup_erase_ite] at hc
  split at hc
  · cases hc
  · exact ⟨tasks, ids, hc, hk, hmem⟩

/-- 名前を除いた種類の表に残るのは、もとの名前の一部である。 -/
theorem lookup_withoutTask {tasks : TasksByType} {k : String} {ids : List String}
    (hk : (withoutTask tasks cmd taskID).lookup k = some ids) :
    ∃ ids₀, tasks.lookup k = some ids₀ ∧ ids ⊆ ids₀ ∧ ids.length ≤ ids₀.length ∧ (ids₀ ≠ [] → ids ≠ []) := by
  unfold withoutTask at hk
  split at hk
  · exact ⟨ids, hk, fun _ h => h, le_rfl, id⟩
  · rename_i ids₀ hids₀
    split at hk
    · rw [lookup_erase_ite] at hk
      split at hk
      · cases hk
      · exact ⟨ids, hk, fun _ h => h, le_rfl, id⟩
    · rename_i hne
      rw [lookup_insert_ite] at hk
      split at hk
      · rename_i heq
        cases hk
        rw [heq]
        exact ⟨ids₀, hids₀, List.erase_subset, List.length_erase_le, fun _ => hne⟩
      · exact ⟨ids, hk, fun _ h => h, le_rfl, id⟩

theorem Has.of_removeTask (h : (t.removeTask channel cmd taskID pick).Has c k id) : t.Has c k id := by
  obtain ⟨tasks', ids, hc, hk, hmem⟩ := h
  unfold removeTask at hc
  split at hc
  · exact ⟨tasks', ids, hc, hk, hmem⟩
  · rename_i tasks htasks
    dsimp only at hc
    split at hc
    · rw [lookup_erase_ite] at hc
      split at hc
      · cases hc
      · exact ⟨tasks', ids, hc, hk, hmem⟩
    · rw [lookup_insert_ite] at hc
      split at hc
      · rename_i heq
        cases hc
        obtain ⟨ids₀, hids₀, hsub, -, -⟩ := lookup_withoutTask hk
        rw [heq]
        exact ⟨tasks, ids₀, htasks, hids₀, hsub hmem⟩
      · exact ⟨tasks', ids, hc, hk, hmem⟩

/-- 割り当てた後のタスクは、加えたものか、もとからあったものである。 -/
theorem Has.of_assign (h : (t.assign channel workerID cmd taskID).Has c k id) :
    c = channel ∧ k = cmd ∧ id = taskID ∨ t.Has c k id := by
  obtain ⟨tasks, ids, hc, hk, hmem⟩ := h
  simp only [assign, lookup_insert_ite] at hc
  split at hc
  · rename_i heq
    subst heq
    cases hc
    rw [lookup_insert_ite] at hk
    split at hk
    · rename_i heq
      subst heq
      cases hk
      rcases List.mem_append.mp hmem with hmem | hmem
      · cases htasks : t.channelTasks.lookup c with
        | none => simp [htasks] at hmem
        | some tasks =>
            cases hids : tasks.lookup k with
            | none => simp [htasks, hids] at hmem
            | some ids =>
                simp only [htasks, Option.getD_some, hids] at hmem
                exact .inr ⟨tasks, ids, htasks, hids, hmem⟩
      · exact .inl ⟨rfl, rfl, List.mem_singleton.mp hmem⟩
    · cases htasks : t.channelTasks.lookup c with
      | none => simp [htasks] at hk
      | some tasks =>
          simp only [htasks, Option.getD_some] at hk
          exact .inr ⟨tasks, ids, htasks, hk, hmem⟩
  · exact .inr ⟨tasks, ids, hc, hk, hmem⟩

end Tables

/-! ## 表の一致 -/

/-- 二つの割り当ては互いに逆で、割り当てのあるチャンネルにだけタスクの表がある。種類ごとのタスクはちょうど一つで、
同じタスクが二つのチャンネルに現れることはない。 -/
structure Consistent (t : Tables) : Prop where
  inverse : ∀ channel workerID,
    t.channelWorkers.lookup channel = some workerID ↔ t.workerChannels.lookup workerID = some channel
  mapped : ∀ channel, (t.channelTasks.lookup channel).isSome ↔ (t.channelWorkers.lookup channel).isSome
  single : ∀ channel tasks cmd ids, t.channelTasks.lookup channel = some tasks → tasks.lookup cmd = some ids →
    ids ≠ [] ∧ ids.length ≤ 1
  apart : ∀ taskID channel cmd channel' cmd', t.Has channel cmd taskID → t.Has channel' cmd' taskID → channel = channel'

/-- 記録のうち、書き換えられない欄。 -/
structure TaskIdentity where
  channel : String
  cmd : String

/-- `Consistent` のうち、タスクの居場所を記録から決めたもの。 -/
structure Sound (identity : String → TaskIdentity) (t : Tables) : Prop where
  inverse : ∀ channel workerID,
    t.channelWorkers.lookup channel = some workerID ↔ t.workerChannels.lookup workerID = some channel
  mapped : ∀ channel, (t.channelTasks.lookup channel).isSome ↔ (t.channelWorkers.lookup channel).isSome
  single : ∀ channel tasks cmd ids, t.channelTasks.lookup channel = some tasks → tasks.lookup cmd = some ids →
    ids ≠ [] ∧ ids.length ≤ 1
  named : ∀ taskID channel cmd, t.Has channel cmd taskID → identity taskID = ⟨channel, cmd⟩

namespace Sound

variable {identity : String → TaskIdentity} {t : Tables} {channel cmd taskID : String} {workerID : Nat}

theorem consistent (h : Sound identity t) : Consistent t where
  inverse := h.inverse
  mapped := h.mapped
  single := h.single
  apart := by
    intro taskID channel cmd channel' cmd' hhas hhas'
    have heq := h.named taskID channel cmd hhas
    rw [h.named taskID channel' cmd' hhas', TaskIdentity.mk.injEq] at heq
    exact heq.1.symm

theorem empty : Sound identity Tables.empty where
  inverse := by simp [Tables.empty]
  mapped := by simp [Tables.empty]
  single := by simp [Tables.empty]
  named := by simp [Tables.empty, Tables.Has]

theorem dropChannel (h : Sound identity t) (hw : t.channelWorkers.lookup channel = some workerID) :
    Sound identity (t.dropChannel channel workerID) where
  inverse := by
    intro c i
    simp only [Tables.dropChannel, lookup_erase_ite]
    have hc := h.inverse c i
    have hw' := (h.inverse channel workerID).mp hw
    by_cases hci : c = channel
    · subst hci
      rw [if_pos rfl]
      by_cases hi : i = workerID
      · simp [hi]
      · rw [if_neg hi, ← hc, hw]
        simp [Ne.symm hi]
    · rw [if_neg hci, hc]
      by_cases hi : i = workerID
      · subst hi
        simp [hw', Ne.symm hci]
      · rw [if_neg hi]
  mapped := by
    intro c
    simp only [Tables.dropChannel, lookup_erase_ite]
    by_cases hc : c = channel
    · simp [hc]
    · simpa [hc] using h.mapped c
  single := by
    intro c tasks cmd ids hc
    simp only [Tables.dropChannel, lookup_erase_ite] at hc
    split at hc
    · cases hc
    · exact h.single c tasks cmd ids hc
  named id c k hhas := h.named id c k hhas.of_dropChannel

/-- チャンネルのワーカーは一つなので、どの順に探しても同じものが見つかる。 -/
theorem forgetChannel_eq (h : Sound identity t) (hw : t.channelWorkers.lookup channel = some workerID) {pick : Option Nat} :
    t.forgetChannel channel pick = t.workerChannels.erase workerID := by
  have hw' := (h.inverse channel workerID).mp hw
  have hmem : workerID ∈ (t.workerChannels.entries.filter fun e => e.2 == channel).map Sigma.fst :=
    (mem_keys_filter (· == channel)).mpr ⟨channel, hw', by simp⟩
  obtain ⟨i, hi⟩ := choose_of_mem pick hmem
  have hsame : i = workerID := by
    obtain ⟨c, hlookup, hc⟩ := (mem_keys_filter (· == channel)).mp (mem_of_choose hi)
    rw [← h.inverse, eq_of_beq hc, hw] at hlookup
    exact (Option.some.inj hlookup).symm
  unfold Tables.forgetChannel
  rw [hi, hsame]

theorem removeTask (h : Sound identity t) {pick : Option Nat} : Sound identity (t.removeTask channel cmd taskID pick) := by
  have hnamed : ∀ id c k, (t.removeTask channel cmd taskID pick).Has c k id → identity id = ⟨c, k⟩ :=
    fun id c k hhas => h.named id c k hhas.of_removeTask
  revert hnamed
  unfold Tables.removeTask
  split
  · exact fun _ => h
  · rename_i tasks htasks
    have hmapped : (t.channelWorkers.lookup channel).isSome := by
      rw [← h.mapped, htasks]
      rfl
    obtain ⟨workerID, hw⟩ := Option.isSome_iff_exists.mp hmapped
    dsimp only
    split
    · intro _
      rw [h.forgetChannel_eq hw]
      exact h.dropChannel hw
    · intro hnamed
      refine ⟨h.inverse, fun c => ?_, fun c tasks' k ids hc hk => ?_, hnamed⟩
      · rw [lookup_insert_ite]
        split
        · rename_i heq
          rw [heq, hw]
          simp
        · exact h.mapped c
      · rw [lookup_insert_ite] at hc
        split at hc
        · cases hc
          obtain ⟨ids₀, hids₀, -, hlen, hne⟩ := Tables.lookup_withoutTask hk
          obtain ⟨hne₀, hlen₀⟩ := h.single channel tasks k ids₀ htasks hids₀
          exact ⟨hne hne₀, Nat.le_trans hlen hlen₀⟩
        · exact h.single c tasks' k ids hc hk

/-- 割り当てた後のタスクは、加えたものか、もとからあったものである。 -/
theorem lookup_assign {c k : String} {tasks : TasksByType} {ids : List String} (hempty : t.existing channel cmd = [])
    (hc : (t.assign channel workerID cmd taskID).channelTasks.lookup c = some tasks) (hk : tasks.lookup k = some ids) :
    c = channel ∧ k = cmd ∧ ids = [taskID] ∨ ∃ tasks₀, t.channelTasks.lookup c = some tasks₀ ∧ tasks₀.lookup k = some ids := by
  simp only [Tables.assign, lookup_insert_ite] at hc
  split at hc
  · rename_i heq
    subst heq
    cases hc
    rw [lookup_insert_ite] at hk
    split at hk
    · rename_i heq
      cases hk
      unfold Tables.existing at hempty
      exact .inl ⟨rfl, heq, by rw [hempty, List.nil_append]⟩
    · cases hold : t.channelTasks.lookup c with
      | none => simp [hold] at hk
      | some tasks₀ => exact .inr ⟨tasks₀, rfl, by simpa [hold] using hk⟩
  · exact .inr ⟨tasks, hc, hk⟩

/-- すでに割り当てたワーカーか、どのチャンネルにも割り当てていないワーカーに割り当てる。 -/
theorem assign (h : Sound identity t) (hid : identity taskID = ⟨channel, cmd⟩) (hempty : t.existing channel cmd = [])
    (hw : t.channelWorkers.lookup channel = some workerID ∨
      t.channelWorkers.lookup channel = none ∧ t.workerChannels.lookup workerID = none) :
    Sound identity (t.assign channel workerID cmd taskID) where
  inverse := by
    intro c i
    simp only [Tables.assign, lookup_insert_ite]
    have hc := h.inverse c i
    have hi := h.inverse channel i
    by_cases hcc : c = channel
    · subst hcc
      rw [if_pos rfl]
      by_cases hii : i = workerID
      · simp [hii]
      · rw [if_neg hii, ← hc]
        rcases hw with hw | ⟨hw, -⟩
        · rw [hw]
        · simp [hw, Ne.symm hii]
    · rw [if_neg hcc]
      by_cases hii : i = workerID
      · subst hii
        rw [if_pos rfl, hc]
        rcases hw with hw | ⟨-, hw⟩
        · rw [hi] at hw
          rw [hw]
        · simp [hw, Ne.symm hcc]
      · rw [if_neg hii]
        exact hc
  mapped := by
    intro c
    simp only [Tables.assign, lookup_insert_ite]
    split
    · simp
    · exact h.mapped c
  single := by
    intro c tasks k ids hc hk
    rcases lookup_assign hempty hc hk with ⟨-, -, rfl⟩ | ⟨tasks₀, hc₀, hk₀⟩
    · simp
    · exact h.single c tasks₀ k ids hc₀ hk₀
  named id c k hhas := by
    rcases hhas.of_assign with ⟨rfl, rfl, rfl⟩ | hold
    · exact hid
    · exact h.named id c k hold

end Sound

end RtcEgress.Native
