import RtcEgress.Lib.Assoc
import RtcEgress.Worker.Threads

/-!
# `channel_states_` にあるタスク

命令ごとに、どのタスクがどのチャンネルの `active_tasks` に入り、どれが出るか、どの完了が送られるかを述べる。
-/

namespace RtcEgress.Worker.Threads

open RtcEgress.Lib

variable {taskId channel : String}

/-- タスクが、チャンネルの `active_tasks` にある。 -/
def Listed (taskId channel : String) (s : Shared) : Prop := taskId ∈ (TaskPipe.channelState s.pipe channel).activeTasks

/-- タスクが `channel_states_` にある。 -/
def Active (taskId : String) (s : Shared) : Prop := taskId ∈ s.pipe.tasks.map fun t => t.2.1

instance {s : Shared} : Decidable (Active taskId s) := inferInstanceAs (Decidable (_ ∈ _))

theorem listed_iff {s : Shared} : Listed taskId channel s ↔ ∃ type, (channel, taskId, type) ∈ s.pipe.tasks := by
  simp only [Listed, TaskPipe.channelState, TaskPipe.mem_tasks]
  cases s.pipe.channelStates.lookup channel with
  | none => simp
  | some state => simp [← AList.lookup_isSome, Option.isSome_iff_exists]

theorem active_iff {s : Shared} : Active taskId s ↔ ∃ channel, Listed taskId channel s := by
  simp only [Active, listed_iff, List.mem_map, Prod.exists]
  constructor
  · rintro ⟨channel, _, type, hmem, rfl⟩
    exact ⟨channel, type, hmem⟩
  · rintro ⟨channel, type, hmem⟩
    exact ⟨channel, taskId, type, hmem, rfl⟩

/-! ## 表の更新 -/

section Updates

variable {s : TaskPipe} {q : String}

theorem channelState_insert {states : AList fun _ : String => ChannelState} {state : ChannelState} :
    ((states.insert channel state).lookup q).getD {} = if q = channel then state else (states.lookup q).getD {} := by
  rw [lookup_insert_ite]
  split <;> rfl

theorem mem_removeTask {id : String} :
    id ∈ (TaskPipe.channelState (TaskPipe.removeTask s channel taskId) q).activeTasks ↔
      id ∈ (TaskPipe.channelState s q).activeTasks ∧ ¬(q = channel ∧ id = taskId) := by
  simp only [TaskPipe.removeTask, TaskPipe.setTasks, TaskPipe.channelState, channelState_insert]
  by_cases hq : q = channel
  · subst hq
    simp [AList.mem_erase, and_comm]
  · simp [hq]

theorem mem_addTask {cmd : TaskCmd} {id : String} :
    id ∈ (TaskPipe.channelState (s.addTask channel taskId cmd) q).activeTasks ↔
      id ∈ (TaskPipe.channelState s q).activeTasks ∨ q = channel ∧ id = taskId := by
  simp only [TaskPipe.addTask, TaskPipe.channelState, channelState_insert]
  by_cases hq : q = channel
  · subst hq
    simp [AList.mem_insert, or_comm]
  · simp [hq]

end Updates

/-! ## 命令 -/

section Effects

variable {s s' : Shared}

/-- 表も、送った完了も変わらない。 -/
structure Frame (s s' : Shared) : Prop where
  listed : ∀ taskId channel, Listed taskId channel s' ↔ Listed taskId channel s
  sent : s'.pipe.sent = s.pipe.sent

theorem Frame.of_eq (hstates : s'.pipe.channelStates = s.pipe.channelStates) (hsent : s'.pipe.sent = s.pipe.sent) :
    Frame s s' :=
  ⟨fun _ _ => by simp only [Listed, TaskPipe.channelState, hstates], hsent⟩

/-- タスクを出し入れせず、完了を送らない命令。 -/
def Cmd.quiet : Cmd → Bool
  | .addTask _ _ _ | .addRecording _ _ | .takeSnapshot _ _ | .release _ _ | .eraseChannel _ | .send _ | .failAll _ _ => false
  | _ => true

theorem exec_frame {c : Cmd} {r : c.Resp} (hq : c.quiet = true) (h : c.exec s = some (r, s')) : Frame s s' := by
  cases c
  case markConnected channel =>
      cases h
      refine ⟨fun taskId q => ?_, rfl⟩
      simp only [Listed, Shared.update, TaskPipe.channelState, channelState_insert]
      split
      · rename_i hq
        rw [hq]
      · rfl
  case addTask | addRecording | takeSnapshot | release | eraseChannel | send | failAll => cases hq
  all_goals
    simp only [Cmd.exec, Shared.update] at h
    repeat' split at h
    all_goals cases h
    all_goals exact .of_eq rfl rfl

theorem exec_addTask {cmd : TaskCmd} {r} (h : Cmd.exec (.addTask channel taskId cmd) s = some (r, s')) :
    s'.pipe.sent = s.pipe.sent ∧ ∀ id q, Listed id q s' ↔ Listed id q s ∨ q = channel ∧ id = taskId := by
  cases h
  exact ⟨rfl, fun id q => mem_addTask⟩

theorem exec_addRecording {r} (h : Cmd.exec (.addRecording channel taskId) s = some (r, s')) :
    s'.pipe.sent = s.pipe.sent ∧ ∀ id q, Listed id q s' ↔ Listed id q s ∨ q = channel ∧ id = taskId := by
  cases h
  exact ⟨rfl, fun id q => mem_addTask⟩

theorem exec_release {r} (h : Cmd.exec (.release channel taskId) s = some (r, s')) :
    s'.pipe.sent = s.pipe.sent ∧ ∀ id q, Listed id q s' ↔ Listed id q s ∧ ¬(q = channel ∧ id = taskId) := by
  simp only [Cmd.exec] at h
  split at h
  · rename_i hnone
    cases h
    refine ⟨rfl, fun id q => ⟨fun hmem => ⟨hmem, ?_⟩, And.left⟩⟩
    rintro ⟨rfl, -⟩
    simp [Listed, TaskPipe.channelState, hnone] at hmem
  · cases h
    exact ⟨rfl, fun id q => mem_removeTask⟩

theorem exec_eraseChannel {r} (h : Cmd.exec (.eraseChannel channel) s = some (r, s')) :
    s'.pipe.sent = s.pipe.sent ∧ ∀ id q, Listed id q s' ↔ Listed id q s ∧ q ≠ channel := by
  cases h
  refine ⟨rfl, fun id q => ?_⟩
  simp only [Listed, Shared.update, TaskPipe.channelState, lookup_erase_ite]
  by_cases hq : q = channel <;> simp [hq]

/-- 停止が見つけるタスクは、表にある。 -/
theorem listed_of_findToStop {msg : UDSMessage} {o : Outcome} (h : s.pipe.findToStop msg o = some (channel, taskId)) :
    Listed taskId channel s := by
  unfold TaskPipe.findToStop at h
  split at h
  · obtain ⟨type, hmem, -⟩ := TaskPipe.mem_of_search h
    exact listed_iff.mpr ⟨type, hmem⟩
  · obtain ⟨type, hmem, -⟩ := TaskPipe.mem_of_search h
    exact listed_iff.mpr ⟨type, hmem⟩

/-- 静止画の停止が除くタスク。名前が空なら、応答がない。 -/
theorem exec_takeSnapshot {msg : UDSMessage} {pick : Option (String × String)} {r}
    (hunnamed : ∀ id, ¬Listed id "" s) (h : Cmd.exec (.takeSnapshot msg pick) s = some (r, s')) :
    s'.pipe.sent = s.pipe.sent ∧ (r = none ∧ (∀ id q, (Listed id q s' → Listed id q s) ∧
        (id ≠ "" → Listed id q s → Listed id q s')) ∨
      ∃ channel taskId, r = some (channel, taskId) ∧ Listed taskId channel s ∧
        ∀ id q, Listed id q s' ↔ Listed id q s ∧ ¬(q = channel ∧ id = taskId)) := by
  simp only [Cmd.exec, TaskPipe.takeSnapshot] at h
  split at h
  · cases h
    exact ⟨rfl, .inl ⟨rfl, fun _ _ => ⟨id, fun _ h => h⟩⟩⟩
  · rename_i channel taskId hfound
    have hlisted := listed_of_findToStop hfound
    split at h
    · rename_i hempty
      cases h
      refine ⟨rfl, .inl ⟨rfl, fun id q => ⟨fun hmem => (mem_removeTask.mp hmem).1, fun hid hmem => ?_⟩⟩⟩
      refine mem_removeTask.mpr ⟨hmem, ?_⟩
      rintro ⟨rfl, rfl⟩
      rcases hempty with hempty | rfl
      · exact hid hempty
      · exact hunnamed _ hlisted
    · cases h
      refine ⟨?_, .inr ⟨channel, taskId, rfl, hlisted, fun id q => ?_⟩⟩
      · split <;> rfl
      · simp only [Listed]
        rw [← mem_removeTask]
        split <;> rfl

theorem listed_of_findRecording {msg : UDSMessage} {pick : Option (String × String)} {last : Bool}
    (h : TaskPipe.findRecording s.pipe msg pick = some (channel, taskId, last)) : Listed taskId channel s := by
  obtain ⟨x, hx, heq⟩ := Option.map_eq_some_iff.mp h
  cases heq
  exact listed_of_findToStop (Option.filter_eq_some_iff.mp hx).1

theorem listed_of_findStreaming {msg : UDSMessage} {pick : Option (String × String)}
    (h : TaskPipe.findStreaming s.pipe msg pick = some (channel, taskId)) : Listed taskId channel s := by
  obtain ⟨type, hmem, -⟩ := TaskPipe.mem_of_search (Option.filter_eq_some_iff.mp h).1
  exact listed_iff.mpr ⟨type, hmem⟩

theorem listed_of_findTask {pick : Option (String × String)}
    (h : TaskPipe.findTask s.pipe taskId pick = some channel) : Listed taskId channel s := by
  obtain ⟨⟨c, id⟩, hsearch, rfl⟩ := Option.map_eq_some_iff.mp h
  obtain ⟨type, hmem, hid⟩ := TaskPipe.mem_of_search hsearch
  rw [beq_iff_eq] at hid
  exact listed_iff.mpr ⟨type, hid ▸ hmem⟩

theorem not_listed_of_findTask {pick : Option (String × String)} (h : TaskPipe.findTask s.pipe taskId pick = none) :
    ¬Listed taskId channel s := by
  intro hlisted
  obtain ⟨type, hmem⟩ := listed_iff.mp hlisted
  have hnone := TaskPipe.search_eq_none (Option.map_eq_none_iff.mp h) hmem
  simp at hnone

/-! ### すべての失敗 -/

/-- 一つのチャンネルにあるタスクは、列挙に一度現れる。 -/
theorem countP_tasks (hlisted : Listed taskId channel s) (honly : ∀ q, Listed taskId q s → q = channel) :
    s.pipe.tasks.countP (·.2.1 == taskId) = 1 := by
  have hentry (e : Sigma fun _ : String => ChannelState) (he : e ∈ s.pipe.channelStates.entries) :
      (e.2.activeTasks.entries.map fun t => (e.1, t.1, t.2)).countP (·.2.1 == taskId) = [e.1].countP (· == channel) := by
    have hkeys : (e.2.activeTasks.entries.map fun t => (e.1, t.1, t.2)).countP (·.2.1 == taskId) =
        e.2.activeTasks.keys.count taskId := by
      rw [List.countP_map, AList.keys, List.keys, List.count, List.countP_map]
      rfl
    have hmem : taskId ∈ e.2.activeTasks.keys ↔ e.1 = channel := by
      have hlookup (q : String) (hq : e.1 = q) : Listed taskId q s ↔ taskId ∈ e.2.activeTasks := by
        rw [Listed, TaskPipe.channelState, ← hq, AList.mem_lookup_iff.mpr he]
        rfl
      exact ⟨fun hin => honly _ ((hlookup _ rfl).mpr hin), fun heq => (hlookup _ heq).mp hlisted⟩
    rw [hkeys, e.2.activeTasks.keys_nodup.count]
    simp [hmem, List.countP_cons]
  calc s.pipe.tasks.countP (·.2.1 == taskId)
      = (s.pipe.channelStates.entries.map (List.countP (· == channel) ∘ fun e => [e.1])).sum := by
        rw [TaskPipe.tasks, List.countP_flatMap]
        exact congrArg List.sum (List.map_congr_left hentry)
    _ = s.pipe.channelStates.keys.count channel := by
        rw [← List.countP_flatMap, ← List.map_eq_flatMap]
        rfl
    _ = 1 := by
        rw [s.pipe.channelStates.keys_nodup.count, if_pos]
        obtain ⟨type, hmem⟩ := listed_iff.mp hlisted
        obtain ⟨state, hstate, -⟩ := TaskPipe.mem_tasks.mp hmem
        exact AList.mem_keys.mp (AList.lookup_isSome.mp (by rw [hstate]; rfl))

theorem countP_tasks_eq_zero (hnone : ¬Active taskId s) : s.pipe.tasks.countP (·.2.1 == taskId) = 0 := by
  rw [List.countP_eq_zero]
  intro t ht heq
  exact hnone (List.mem_map.mpr ⟨t, ht, by simpa using heq⟩)

theorem exec_failAll {errorType errorMessage : String} {r} (h : Cmd.exec (.failAll errorType errorMessage) s = some (r, s')) :
    (∀ id q, ¬Listed id q s') ∧ ∀ id, s'.pipe.sent.countP (·.taskId == id) =
      s.pipe.sent.countP (·.taskId == id) + s.pipe.tasks.countP (·.2.1 == id) := by
  cases h
  refine ⟨fun id q => ?_, fun id => ?_⟩
  · simp [Listed, Shared.update, TaskPipe.channelState]
  · simp only [Shared.update, TaskPipe.failures, List.countP_append, List.countP_reverse, List.countP_map]
    exact Nat.add_comm _ _

end Effects

end RtcEgress.Worker.Threads
