import RtcEgress.Native.WorkerManager

/-!
# 割り当ての表を保つ処理

開始のほかの処理は、割り当ての表を `removeTask` でしか書き換えない。`removeTask` で失われない性質は、どの処理でも
保たれる。
-/

namespace RtcEgress.Native

open RtcEgress.Lib

/-- タスクを除いても失われない性質。 -/
def Removable (P : Tables → Prop) : Prop :=
  ∀ {t : Tables} {channel cmd taskID : String} {pick : Option Nat}, P t → P (t.removeTask channel cmd taskID pick)

/-- 表についての性質を保つ。 -/
abbrev KeepsTables {α : Type} (P : Tables → Prop) (a : M α) : Prop := a.Keeps fun m => P m.tables

variable {identity : String → TaskIdentity} {P : Tables → Prop}

/-! ## ロックと表以外の書き換え -/

theorem keeps_of_same_tables {f : WorkerManager → WorkerManager} (hf : ∀ m, (f m).tables = m.tables) :
    KeepsTables P (Action.modify f) := by
  apply Action.Keeps.modify
  intro m h
  rw [hf]
  exact h

theorem keeps_lock {x : Mutex} : KeepsTables P (lock x) := by
  apply Action.Keeps.get.bind
  intro m
  split
  · intro m' h
    exact h
  · exact keeps_of_same_tables fun _ => rfl

theorem keeps_unlock {x : Mutex} : KeepsTables P (unlock x) := keeps_of_same_tables fun _ => rfl

/-- ロックの中で表を書き換えない処理。 -/
theorem keeps_locked {x : Mutex} {f : WorkerManager → WorkerManager} (hf : ∀ m, (f m).tables = m.tables) :
    KeepsTables P (do lock x; Action.modify f; unlock x) := by
  apply keeps_lock.bind
  intro _
  exact (keeps_of_same_tables hf).bind fun _ => keeps_unlock

theorem keeps_untrack {taskID : String} : KeepsTables P (untrack taskID) := keeps_locked fun _ => rfl

theorem keeps_track {taskID : String} : KeepsTables P (track taskID) := keeps_locked fun _ => rfl

theorem setState_tables {m : WorkerManager} {workerID generation : Nat} {state : WorkerState} :
    (m.setState workerID generation state).tables = m.tables := by
  unfold WorkerManager.setState
  split
  · split <;> rfl
  · rfl

theorem keeps_startWorker {workerID : Nat} {ok : Bool} : KeepsTables P (startWorker workerID ok) :=
  keeps_locked fun _ => rfl

theorem keeps_monitorWorker {workerID : Nat} {ok : Bool} : KeepsTables P (monitorWorker workerID ok) := by
  apply Action.Keeps.get.bind
  intro m
  apply Action.Keeps.ite _ .pure
  split
  · exact keeps_startWorker
  · exact .ite .pure keeps_startWorker

theorem keeps_die {workerID : Nat} : KeepsTables P (die workerID) := by
  apply keeps_of_same_tables
  intro m
  split <;> rfl

theorem keeps_recoverTasksFromDeadWorker {workerID : Nat} : KeepsTables P (recoverTasksFromDeadWorker workerID) := by
  have hend : KeepsTables P (do
      Action.modify fun m =>
        { m with activeTasks := (m.tasksToRecover workerID).foldl (fun active taskID => active.erase taskID) m.activeTasks }
      unlock .tasks) := by
    apply Action.Keeps.bind _ fun _ => keeps_unlock
    exact keeps_of_same_tables fun _ => rfl
  apply keeps_lock.bind
  intro _
  apply Action.Keeps.get.bind
  intro m
  exact .ite (keeps_lock.bind fun _ => keeps_unlock.bind fun _ => hend) hend

/-! ## ロックの中の進み方 -/

@[simp] theorem ends_lock {x : Mutex} {m : WorkerManager} {B : WorkerManager → Prop} {Q : Unit → WorkerManager → Prop} :
    (lock x).Ends B Q m ↔ (m.held x = true → B m) ∧
      (m.held x = false → Q () { m with held := Function.update m.held x true }) := by
  simp [lock]

@[simp] theorem ends_unlock {x : Mutex} {m : WorkerManager} {B : WorkerManager → Prop} {Q : Unit → WorkerManager → Prop} :
    (unlock x).Ends B Q m ↔ Q () { m with held := Function.update m.held x false } := Iff.rfl

/-- ロックを持ったままの `removeTaskFromChannel` は戻らない。 -/
theorem removeTaskFromChannel_blocked {channel cmd taskID : String} {o : Outcome} {m : WorkerManager}
    {B : WorkerManager → Prop} {Q : Unit → WorkerManager → Prop} (hheld : m.held .manager = true) (h : B m) :
    (removeTaskFromChannel channel cmd taskID o).Ends B Q m := by
  simp [removeTaskFromChannel, hheld, h]

/-- 表の最後の書き換えには、処理が届かない。 -/
theorem keeps_forceKillWorker {workerID : Nat} {taskID channel cmd : String} {o : Outcome} :
    KeepsTables P (forceKillWorker workerID taskID channel cmd o) := by
  intro m h
  simp only [forceKillWorker, Action.ends_bind, ends_lock, Action.ends_get]
  constructor
  · exact fun _ => h
  · intro _
    split
    · exact h
    · simp only [cleanupStoppedTask, Action.ends_ite, Action.ends_bind, Action.ends_modify]
      constructor
      · exact fun _ => removeTaskFromChannel_blocked (by simp [WorkerManager.setWorker]) h
      · exact fun _ => removeTaskFromChannel_blocked (by simp) h

/-! ## タスクを除く処理 -/

section Remove

variable (hP : Removable P)

include hP

theorem keeps_removeTaskFromChannel {channel cmd taskID : String} {o : Outcome} :
    KeepsTables P (removeTaskFromChannel channel cmd taskID o) := by
  apply keeps_lock.bind
  intro _
  apply Action.Keeps.bind _ fun _ => keeps_unlock
  exact Action.Keeps.modify fun m h => hP h

theorem keeps_cleanupStoppedTask {channel cmd taskID : String} {o : Outcome} :
    KeepsTables P (cleanupStoppedTask channel cmd taskID o) :=
  (keeps_removeTaskFromChannel hP).bind fun _ => keeps_untrack

theorem keeps_stopAttempts {workerID : Nat} {task : StopTask} {o : Outcome} {n : Nat} :
    KeepsTables P (stopAttempts workerID task o n) := by
  induction n with
  | zero => exact keeps_forceKillWorker.bind fun _ => .pure
  | succ n ih =>
      apply Action.Keeps.get.bind
      intro m
      apply Action.Keeps.ite _ ih
      exact (keeps_cleanupStoppedTask hP).bind fun _ => .pure

theorem keeps_stopTask {task : StopTask} {original : Option OriginalTask} {o : Outcome} :
    KeepsTables P (stopTask identity task original o) := by
  have hretries {workerID : Nat} : KeepsTables P (stopOriginalTaskWithRetries workerID task o) :=
    .ite .pure (keeps_stopAttempts hP)
  have hnative : KeepsTables P (stopNativeTask identity task o) := by
    apply keeps_lock.bind
    intro _
    apply Action.Keeps.get.bind
    intro m
    apply keeps_unlock.bind
    intro _
    split
    · exact keeps_untrack
    · exact hretries.bind fun _ => .pure
  apply Action.Keeps.ite .pure
  dsimp only
  split
  · exact keeps_untrack
  · exact .ite keeps_untrack (hnative.bind fun _ => keeps_untrack)

theorem keeps_failTask {taskID : String} {workerID : Int} {o : Outcome} :
    KeepsTables P (failTask identity taskID workerID o) := by
  have huntrack : KeepsTables P (do untrack taskID; untrack ("failing:" ++ taskID)) :=
    keeps_untrack.bind fun _ => keeps_untrack
  apply keeps_lock.bind
  intro _
  apply Action.Keeps.get.bind
  intro m
  apply Action.Keeps.ite keeps_unlock
  apply (keeps_of_same_tables _).bind
  · intro _
    apply keeps_unlock.bind
    intro _
    apply Action.Keeps.get.bind
    intro m
    exact .ite ((keeps_removeTaskFromChannel hP).bind fun _ => huntrack) huntrack
  · exact fun _ => rfl

theorem keeps_releaseCompleted {workerID generation : Nat} {taskID : String} {o : Outcome} :
    KeepsTables P (releaseCompleted workerID generation taskID o) := by
  have hstate : KeepsTables P (do
      lock .manager
      Action.modify fun m => m.setState workerID generation (m.stateAfter workerID)
      unlock .manager) := keeps_locked fun _ => setState_tables
  apply keeps_untrack.bind
  intro _
  apply keeps_lock.bind
  intro _
  apply Action.Keeps.get.bind
  intro m
  apply keeps_unlock.bind
  intro _
  dsimp only
  split
  · exact (keeps_removeTaskFromChannel hP).bind fun _ => hstate
  · exact hstate

theorem keeps_handleTaskCompletion {workerID generation : Nat} {completion : UDSCompletionMessage} {record : Option Int}
    {o : Outcome} : KeepsTables P (handleTaskCompletion identity workerID generation completion record o) := by
  apply Action.Keeps.ite _ (keeps_releaseCompleted hP)
  split
  · exact keeps_failTask hP
  · exact keeps_releaseCompleted hP

/-- 開始が保つ性質は、どの操作も保つ。 -/
theorem tables_apply {op : Op} {m : WorkerManager} (h : P m.tables)
    (hstart : ∀ taskID o, op = .startNativeRecorderTask taskID o →
      P ((startNativeRecorderTask identity taskID o).after m).tables) : P (op.apply identity m).tables := by
  cases op with
  | startNativeRecorderTask taskID o => exact hstart taskID o rfl
  | track taskID => exact (keeps_track m h).after
  | stopTask task original o => exact (keeps_stopTask hP m h).after
  | handleTaskCompletion workerID generation completion record o => exact (keeps_handleTaskCompletion hP m h).after
  | failTask taskID workerID o => exact (keeps_failTask hP m h).after
  | forceKillWorker workerID taskID channel cmd o => exact (keeps_forceKillWorker m h).after
  | die workerID => exact (keeps_die m h).after
  | monitorWorker workerID ok => exact (keeps_monitorWorker m h).after
  | recoverTasksFromDeadWorker workerID => exact (keeps_recoverTasksFromDeadWorker m h).after

end Remove

end RtcEgress.Native
