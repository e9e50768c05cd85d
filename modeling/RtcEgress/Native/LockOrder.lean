import RtcEgress.Lib.Lock
import RtcEgress.Native.Threads

/-!
# `WorkerManager` のロックの待ち合わせ

開始と状態の要求は、`WorkerManager.Mutex` を持ってワーカーのロックを取る。完了は、ワーカーのロックを持って
`TasksMutex` と `WorkerManager.Mutex` を取り、回復は `TasksMutex` を持って `WorkerManager.Mutex` を取る。
-/

namespace RtcEgress.Native.Threads

open RtcEgress.Lib

def locking : Locking Cmd Lock where
  acquires
    | .lock x => some x
    | _ => none
  releases
    | .unlock x => some x
    | _ => none

variable {identity : String → TaskIdentity}

def anyOrder (identity : String → TaskIdentity) : Guard (machine identity) := .ofCalls fun _ => True

/-! ## ロックの規律 -/

/-- スレッド `i` の開始は、送信に失敗した。 -/
def SendFailed (i : Nat) (tr : List (Event (machine identity))) : Prop :=
  ∃ worker ok, (⟨.sendUDSMessage worker .start ok, false⟩ : Act Cmd Cmd.Resp) ∈ own i tr

/-- スレッド `i` は、割り当ての前の表とワーカーに戻して終わることができる。 -/
def Restored (p : Pool (machine identity)) (i : Nat) : Prop :=
  ∃ p', Run (anyOrder identity) p p' ∧ p'.threads[i]? = some (.ret ()) ∧
    ∃ e ∈ p'.trace, e.tid = i ∧ (∃ worker channel cmd taskID, e.cmd = .assign worker channel cmd taskID) ∧
      p'.state.manager.tables = e.before.manager.tables ∧ p'.state.manager.workers = e.before.manager.workers

/-- 自分の持つロックを取ろうとするスレッドも、互いに待つ輪もない。送信に失敗した開始は、エラーを返して元に戻す。 -/
def LockDiscipline (g : ∀ identity, Guard (machine identity)) : Prop :=
  ∀ identity podID numWorkers p, Run (g identity) (.start (.init podID numWorkers)) p →
    locking.Free p ∧ ∀ i, SendFailed i p.trace → Restored p i

/-! ## 成り立たない実行 -/

/-- 二つのタスクは、同じチャンネルの違う種類である。 -/
def twoKinds (taskID : String) : TaskIdentity := ⟨"c", if taskID = "a" then "record" else "snapshot"⟩

/-- スレッド `i` の次の命令が取るロック。 -/
def nextLock (p : Pool (machine identity)) (i : Nat) : Option Lock :=
  match p.threads[i]? with
  | some (.call c _) => locking.acquires c
  | _ => none

theorem requests_of_nextLock {p : Pool (machine identity)} {i : Nat} {x : Lock} (h : nextLock p i = some x) :
    locking.Requests p i x := by
  unfold nextLock at h
  split at h
  · rename_i c k ht
    exact ⟨c, k, ht, h⟩
  · cases h

/-- 開始の送信に失敗する。 -/
def failedSend : List (Move (machine twoKinds)) :=
  .spawn (.startWorker 0 true) :: List.replicate 3 (.run 0 ()) ++
    .spawn (.processRedisTask (.start "a") { sends := fun _ => false }) :: List.replicate 7 (.run 1 ())

/-- タスクの完了を処理する間に、同じワーカーで別のタスクを始める。 -/
def startDuringCompletion : List (Move (machine twoKinds)) :=
  .spawn (.startWorker 0 true) :: List.replicate 3 (.run 0 ()) ++
    .spawn (.processRedisTask (.start "a") {}) :: List.replicate 12 (.run 1 ()) ++
    .spawn (.handleTaskCompletion ⟨0, 0⟩ ⟨"a", true, false⟩ none {}) :: List.replicate 5 (.run 2 ()) ++
    .spawn (.processRedisTask (.start "b") {}) :: List.replicate 4 (.run 3 ())

theorem not_lockDiscipline : ¬LockDiscipline anyOrder := by
  intro h
  have hlast : (Pool.play failedSend (.start (.init "p" 1))).map
      (fun p => (nextLock p 1, locking.owner .manager p.trace)) = some (some .manager, some 1) := by decide
  obtain ⟨p, hp, heq⟩ := Option.map_eq_some_iff.mp hlast
  obtain ⟨hnext, howner⟩ := Prod.mk.inj heq
  have hrun : Run (anyOrder twoKinds) (.start (.init "p" 1)) p :=
    Pool.play_sound (Pool.allMeet_ofCalls fun _ _ => trivial) hp
  exact (h twoKinds "p" 1 p hrun).1.self 1 .manager (requests_of_nextLock hnext) howner

/-- 互いに待つ輪は、送信がすべて成功しても現れる。 -/
theorem startDuringCompletion_waits : ∃ p, Run (anyOrder twoKinds) (.start (.init "p" 1)) p ∧
    Relation.TransGen (locking.WaitsFor p) 2 2 := by
  have hlast : (Pool.play startDuringCompletion (.start (.init "p" 1))).map
      (fun p => ((nextLock p 2, locking.owner .manager p.trace), (nextLock p 3, locking.owner (.worker 0) p.trace))) =
        some ((some .manager, some 3), (some (.worker 0), some 2)) := by decide
  obtain ⟨p, hp, heq⟩ := Option.map_eq_some_iff.mp hlast
  obtain ⟨hcompletion, hstart⟩ := Prod.mk.inj heq
  obtain ⟨hnext, howner⟩ := Prod.mk.inj hcompletion
  obtain ⟨hnext', howner'⟩ := Prod.mk.inj hstart
  refine ⟨p, Pool.play_sound (Pool.allMeet_ofCalls fun _ _ => trivial) hp, ?_⟩
  exact .tail (.single ⟨_, requests_of_nextLock hnext, howner⟩) ⟨_, requests_of_nextLock hnext', howner'⟩

/-! ## 進み方 -/

/-- スレッドがどこまで進んだか。 -/
inductive Phase where
  | resting
  /-- `WorkerManager.Mutex` を持ち、次にワーカーのロックを取る。 -/
  | entering (generation : Nat)
  /-- `WorkerManager.Mutex` を持ったまま、`removeTaskFromChannel` に向かう。 -/
  | failed
  | jammed
  /-- ワーカーのロックを持ち、`TasksMutex` の後に `WorkerManager.Mutex` を取る。 -/
  | releasing
  /-- ワーカーのロックを持ち、`WorkerManager.Mutex` を取る。 -/
  | relocking
  /-- ワーカーのロックを持って `failTask` に入り、ワーカーをまだ調べていない。 -/
  | failing
  /-- `failTask` がワーカーを見つけ、`WorkerManager.Mutex` を取る。 -/
  | clearing
  /-- `failTask` の残りは、`TasksMutex` だけを取る。 -/
  | settling
  /-- `TasksMutex` を持ち、`WorkerManager.Mutex` をあと `n` 回取る。 -/
  | recovering (n : Nat)
  deriving DecidableEq

structure Status where
  held : List Lock
  phase : Phase

/-- 命令の後の進み方。 -/
def Phase.next (c : Cmd) (r : c.Resp) (held : List Lock) (phase : Phase) : Phase :=
  match c, r with
  | .assign worker _ _ _, _ => .entering worker.generation
  | .checkTask worker _, none => .entering worker.generation
  | .lock (.worker _), _ | .endFail _, _ | .setStateAfter _, _ | .beginFail _, true => .resting
  | .sendUDSMessage _ .start _, false | .kill _ _, some _ => .failed
  | .updateTaskResult _, _ => if phase = .resting ∧ held ≠ [] then .releasing else phase
  | .untrack _, _ => if phase = .releasing then .relocking else phase
  | .getTaskStatus _ _, some _ => .failing
  | .workerAt _, some _ => if phase = .failing then .clearing else phase
  | .workerAt _, none => if phase = .failing then .settling else phase
  | .removeTask _ _ _ _, _ => if phase = .clearing then .settling else phase
  | .ownTasks, taskIDs => .recovering taskIDs.length
  | .isOnWorker _ _, _ =>
      match phase with
      | .recovering n => .recovering (n - 1)
      | phase => phase
  | _, _ => phase

/-- `failed` のスレッドは、`WorkerManager.Mutex` を取るまで変わらない。 -/
def Status.next (c : Cmd) (r : c.Resp) (s : Status) : Status where
  held := locking.heldAfter c s.held
  phase := match s.phase with
    | .jammed => .jammed
    | .failed =>
        match c with
        | .lock .manager => .jammed
        | _ => .failed
    | phase => phase.next c r s.held

def Status.init : Status := ⟨[], .resting⟩

abbrev status (h : List (Act Cmd Cmd.Resp)) : Status := Prog.summary .init Status.next h

theorem status_held : (h : List (Act Cmd Cmd.Resp)) → (status h).held = locking.held h
  | [] => rfl
  | ⟨c, r⟩ :: h => by
      change locking.heldAfter c (status h).held = locking.heldAfter c (locking.held h)
      rw [status_held h]

/-- ロックを取るときと放すときの様子。 -/
def Ok (c : Cmd) (s : Status) : Prop :=
  match s.phase with
  | .jammed => True
  | .failed => .manager ∈ s.held ∧ (c = .lock .manager ∨ ∃ g, c = .unlock (.worker g) ∧ .worker g ∈ s.held)
  | phase =>
      match c with
      | .lock .manager => s.held = [] ∨ (∃ g, s.held = [.worker g]) ∧ (phase = .relocking ∨ phase = .clearing) ∨
          s.held = [.tasks] ∧ ∃ n, phase = .recovering (n + 1)
      | .lock .tasks => s.held = [] ∨
          (∃ g, s.held = [.worker g]) ∧ (phase = .releasing ∨ phase = .failing ∨ phase = .settling)
      | .lock (.worker g) => s.held = [] ∨ s.held = [.manager] ∧ phase = .entering g
      | .unlock x => x ∈ s.held
      | _ => True

/-! ## 各プログラムの様子 -/

/-- プログラムの後の様子。 -/
abbrev To {α : Type} (p : P α) (s : Status) (Q : α → Status → Prop) : Prop := p.Tracks Ok Status.next Q s

theorem to_jammed {α : Type} (held : List Lock) : (p : P α) → To p ⟨held, .jammed⟩ fun _ s => s.phase = .jammed
  | .ret _ => rfl
  | .call c k => ⟨trivial, fun r => to_jammed (locking.heldAfter c held) (k r)⟩

section Programs

attribute [local simp] Ok Status.next Phase.next locking Locking.heldAfter Prog.perform

variable {taskID channel cmd : String} {o : Outcome}

theorem to_untrack {held : List Lock} {phase : Phase} (h : Ok (.lock .tasks) ⟨held, phase⟩)
    (hphase : phase ≠ .jammed ∧ phase ≠ .failed) : To (untrack taskID) ⟨held, phase⟩ fun _ s =>
      s = ⟨held, if phase = .releasing then .relocking else phase⟩ := by
  cases phase <;> simp_all [untrack]

theorem to_removeTask {held : List Lock} {phase : Phase} (h : Ok (.lock .manager) ⟨held, phase⟩)
    (hphase : phase ≠ .jammed ∧ phase ≠ .failed) : To (removeTaskFromChannel channel cmd taskID o) ⟨held, phase⟩ fun _ s =>
      s = ⟨held, if phase = .clearing then .settling else phase⟩ := by
  cases phase <;> simp_all [removeTaskFromChannel]

/-- 持っているロックを取ろうとして止まる。 -/
theorem removeTask_jams {α : Type} {k : Unit → P α} :
    To (removeTaskFromChannel channel cmd taskID o >>= k) ⟨[.manager], .failed⟩ fun _ s => s.phase = .jammed := by
  simp [removeTaskFromChannel]
  intro _
  exact to_jammed _ _

def Rested {α : Type} (_ : α) (s : Status) : Prop := s = ⟨[], .resting⟩ ∨ s.phase = .jammed

@[local simp] theorem rested_resting {α : Type} {a : α} : Rested a ⟨[], .resting⟩ := .inl rfl

/-- 休むか止まるかしたプログラムの続き。 -/
theorem rested_bind {α β : Type} {p : P α} {f : α → P β} {s : Status} (hp : To p s Rested)
    (hf : ∀ a, To (f a) ⟨[], .resting⟩ Rested) : To (p >>= f) s Rested := by
  apply hp.bind
  rintro a ⟨held, phase⟩ (heq | rfl)
  · rw [heq]
    exact hf a
  · exact (to_jammed held (f a)).mono fun _ _ h => .inr h

theorem rests_startNativeRecorderTask : To (startNativeRecorderTask identity taskID o) ⟨[], .resting⟩ Rested := by
  simp [startNativeRecorderTask]
  intro _ found
  cases found with
  | none => simp
  | some worker =>
      simp
      exact removeTask_jams.mono fun _ _ h => .inr h

theorem rests_untrack : To (untrack taskID) ⟨[], .resting⟩ Rested :=
  (to_untrack (by simp) (by simp)).mono fun _ _ h => .inl h

theorem rests_cleanupStoppedTask : To (cleanupStoppedTask channel cmd taskID o) ⟨[], .resting⟩ Rested := by
  apply Prog.Tracks.bind _ (to_removeTask (by simp) (by simp))
  rintro _ _ rfl
  exact rests_untrack

theorem rests_forceKillWorker {workerID : Nat} : To (forceKillWorker workerID taskID channel cmd o) ⟨[], .resting⟩ Rested := by
  simp [forceKillWorker]
  intro found
  cases found with
  | none => simp
  | some worker =>
      simp [cleanupStoppedTask]
      exact removeTask_jams.mono fun _ _ h => .inr h

theorem rests_stopAttempts {worker : WorkerRef} {task : StopTask} : {n : Nat} →
    To (stopAttempts worker task o n) ⟨[], .resting⟩ Rested
  | 0 => rests_forceKillWorker
  | n + 1 => by simp [stopAttempts, rests_cleanupStoppedTask, rests_stopAttempts]

theorem rests_stopTask {task : StopTask} {original : Option OriginalTask} :
    To (stopTask identity task original o) ⟨[], .resting⟩ Rested := by
  have hnative : To (stopNativeTask identity task o) ⟨[], .resting⟩ Rested := by
    simp [stopNativeTask]
    intro target
    cases target with
    | none => exact rests_untrack
    | some worker => simp [rests_stopAttempts]
  cases original with
  | none => simp [stopTask, rests_untrack]
  | some orig =>
      simp [stopTask, rests_untrack]
      intro _ _ _ _
      exact rested_bind hnative fun _ => rests_untrack

theorem rests_getNativeTaskStatus {workerID : Int} :
    To (getNativeTaskStatus taskID workerID o) ⟨[], .resting⟩ Rested := by
  simp [getNativeTaskStatus]
  intro _ found
  cases found with
  | none => simp
  | some worker =>
      simp
      intro error
      cases error <;> simp

theorem rests_processRedisTask {request : Request} : To (processRedisTask identity request o) ⟨[], .resting⟩ Rested := by
  cases request with
  | start taskID =>
      apply rested_bind rests_startNativeRecorderTask
      intro err
      cases err <;> simp
  | stop task original => exact rests_stopTask
  | status taskID workerID =>
      apply rested_bind rests_getNativeTaskStatus
      intro err
      cases err <;> simp

/-! ### 失敗と完了 -/

theorem to_failTask {g : Nat} {workerID : Int} :
    To (failTask identity taskID workerID o) ⟨[.worker g], .failing⟩ fun _ s => s = ⟨[.worker g], .resting⟩ := by
  have hend : To (do untrack taskID; lock .tasks; perform (.endFail taskID); unlock .tasks) ⟨[.worker g], .settling⟩
      fun _ s => s = ⟨[.worker g], .resting⟩ := by
    apply Prog.Tracks.bind _ (to_untrack (by simp) (by simp))
    rintro _ _ rfl
    simp
  simp [failTask]
  intro found
  cases found with
  | none =>
      simp
      exact hend
  | some worker =>
      simp
      apply Prog.Tracks.bind _ (to_removeTask (by simp) (by simp))
      rintro _ _ rfl
      simp
      exact hend

theorem to_releaseCompleted {g : Nat} {worker : WorkerRef} :
    To (releaseCompleted worker taskID o) ⟨[.worker g], .resting⟩ fun _ s => s = ⟨[.worker g], .resting⟩ := by
  simp [releaseCompleted]
  apply Prog.Tracks.bind _ (to_untrack (by simp) (by simp))
  rintro _ _ rfl
  simp
  intro found
  cases found with
  | none => simp
  | some place =>
      apply Prog.Tracks.bind _ (to_removeTask (by simp) (by simp))
      rintro _ _ rfl
      simp

theorem rests_handleTaskCompletion {worker : WorkerRef} {completion : UDSCompletionMessage} {record : Option Int} :
    To (handleTaskCompletion identity worker completion record o) ⟨[], .resting⟩ Rested := by
  have hrelease : To (do
      releaseCompleted worker completion.taskID o
      unlock (.worker worker.generation)) ⟨[.worker worker.generation], .resting⟩ Rested := by
    apply Prog.Tracks.bind _ to_releaseCompleted
    rintro _ _ rfl
    simp
  simp [handleTaskCompletion]
  constructor
  · intro _ _ task
    cases task with
    | none => exact hrelease
    | some workerID =>
        apply Prog.Tracks.bind _ to_failTask
        rintro _ _ rfl
        simp
  · exact fun _ => hrelease

/-! ### 起動と回復 -/

theorem rests_startWorker {workerID : Nat} {ok : Bool} : To (startWorker workerID ok) ⟨[], .resting⟩ Rested := by
  simp [startWorker]

theorem to_tasksToRecover {workerID : Nat} : (taskIDs : List String) →
    To (tasksToRecover workerID taskIDs) ⟨[.tasks], .recovering taskIDs.length⟩ fun _ s => s = ⟨[.tasks], .recovering 0⟩
  | [] => by simp [tasksToRecover]
  | taskID :: taskIDs => by
      have hrest (on : Bool) : To (do
          let rest ← tasksToRecover workerID taskIDs
          return if on then taskID :: rest else rest) ⟨[.tasks], .recovering taskIDs.length⟩
          fun _ s => s = ⟨[.tasks], .recovering 0⟩ := by
        apply Prog.Tracks.bind _ (to_tasksToRecover taskIDs)
        rintro _ _ rfl
        simp
      simp [tasksToRecover]
      exact ⟨hrest false, hrest true⟩

theorem rests_scheduleWorkerRecovery {worker : WorkerRef} :
    To (scheduleWorkerRecovery worker) ⟨[], .resting⟩ fun _ s => s.phase ≠ .failed := by
  simp [scheduleWorkerRecovery, recoverTasksFromDeadWorker]
  intro taskIDs
  apply Prog.Tracks.bind _ (to_tasksToRecover taskIDs)
  rintro _ _ rfl
  simp

end Programs

/-- 止まる手前で終わるスレッドはない。 -/
theorem bodies (k : Call) :
    (k.body identity).Follows (fun c h => Ok c (status h)) (fun _ h => (status h).phase ≠ .failed) [] := by
  have hrested (s : Status) (h : Rested () s) : s.phase ≠ .failed := by
    rcases h with rfl | h
    · simp
    · simp [h]
  have hbody : To (k.body identity) .init fun _ s => s.phase ≠ .failed := by
    cases k with
    | processRedisTask request o => exact rests_processRedisTask.mono fun _ s h => hrested s h
    | handleTaskCompletion worker completion record o => exact rests_handleTaskCompletion.mono fun _ s h => hrested s h
    | scheduleWorkerRecovery worker => exact rests_scheduleWorkerRecovery
    | startWorker workerID ok => exact rests_startWorker.mono fun _ s h => hrested s h
  exact Prog.Tracks.follows (h := []) hbody

theorem bodies_ok {g : Guard (machine identity)} : Bodies g fun c h => Ok c (status h) :=
  fun k _ => (bodies k).mono (fun _ _ h => h) fun _ _ _ => trivial

/-! ## 所有者 -/

/-- ロックの所有者は一人であり、持っているロックをもう一度取ったスレッドはない。 -/
structure Owned (s : Shared) (tr : List (Event (machine identity))) : Prop where
  locked : ∀ x, s.locked x = (locking.owner x tr).isSome
  exclusive : locking.Exclusive tr
  jammed : ∀ i, (status (own i tr)).phase ≠ .jammed

theorem status_own_self {i c r s} {tr : List (Event (machine identity))} :
    status (own i (⟨i, c, r, s⟩ :: tr)) = (status (own i tr)).next c r := by
  rw [own_cons_self]
  rfl

theorem exec_locked {c : Cmd} {s s' : Shared} {r : c.Resp} (he : c.exec s = some (r, s'))
    (hlock : ∀ x, c ≠ .lock x) (hunlock : ∀ x, c ≠ .unlock x) : s'.locked = s.locked := by
  cases c
  case lock x => exact absurd rfl (hlock x)
  case unlock x => exact absurd rfl (hunlock x)
  case findWorkerForChannel channel =>
      simp only [Cmd.exec] at he
      split at he
      · cases he
        rfl
      · cases he
        rfl
  case beginFail taskID =>
      simp only [Cmd.exec] at he
      split at he
      · cases he
        rfl
      · cases he
        rfl
  all_goals
    cases he
    rfl

theorem locked_of_exec {x : Lock} {s s' : Shared} {r : Unit} (he : (Cmd.lock x).exec s = some (r, s')) :
    s.locked x = false ∧ s' = { s with locked := Function.update s.locked x true } := by
  simp only [Cmd.exec] at he
  split at he
  · cases he
  · rename_i hfree
    cases he
    exact ⟨by simpa using hfree, rfl⟩

/-- 放すロックは、持っているロックである。 -/
theorem held_of_ok {x : Lock} {s : Status} (h : Ok (.unlock x) s) (hjam : s.phase ≠ .jammed) : x ∈ s.held := by
  obtain ⟨held, phase⟩ := s
  cases phase
  case jammed => exact absurd rfl hjam
  case failed =>
      rcases h.2 with hc | ⟨g, hc, hg⟩
      · cases hc
      · cases hc
        exact hg
  all_goals exact h

theorem Phase.next_ne_jammed {c : Cmd} {r : c.Resp} {held : List Lock} {phase : Phase} (h : phase ≠ .jammed) :
    phase.next c r held ≠ .jammed := by
  unfold Phase.next
  split <;> try split
  all_goals simp_all

/-- 持っているロックを取ろうとするのは、`failed` のスレッドである。 -/
theorem lock_of_jammed {c : Cmd} {r : c.Resp} {s : Status} (h : (s.next c r).phase = .jammed) (hjam : s.phase ≠ .jammed)
    (hok : Ok c s) : c = .lock .manager ∧ .manager ∈ s.held := by
  obtain ⟨held, phase⟩ := s
  cases phase
  case jammed => exact absurd rfl hjam
  case failed =>
      obtain ⟨hheld, rfl | ⟨g, rfl, -⟩⟩ := hok
      · exact ⟨rfl, hheld⟩
      · cases h
  all_goals exact absurd h (Phase.next_ne_jammed (by simp))

theorem owned_inductive : Inductive (anyOrder identity) (fun c h => Ok c (status h)) Owned := by
  refine ⟨fun {i c o s tr r s'} hs hg hok hexec => ?_, fun {e s tr s'} hs he => ?_⟩
  · have he : c.exec s = some (r, s') := hexec
    clear hexec hg
    have hacq (x : Lock) (hx : locking.acquires c = some x) : locking.owner x tr = none := by
      cases c
      case lock x' =>
          cases hx
          have hfree := (locked_of_exec he).1
          rw [hs.locked] at hfree
          simpa using hfree
      all_goals cases hx
    have hrel (x : Lock) (hx : locking.releases c = some x) : x ∈ locking.held (own i tr) := by
      cases c
      case unlock x' =>
          cases hx
          rw [← status_held]
          exact held_of_ok hok (hs.jammed i)
      all_goals cases hx
    have hone : locking.acquires c = none ∨ locking.releases c = none := by
      cases c
      case lock x => exact .inr rfl
      all_goals exact .inl rfl
    constructor
    · intro x
      cases c
      case lock x' =>
          obtain ⟨-, rfl⟩ := locked_of_exec he
          rcases eq_or_ne x x' with rfl | hx
          · simp [Locking.owner, locking]
          · simpa [Function.update_of_ne hx, Locking.owner, locking, Ne.symm hx] using hs.locked x
      case unlock x' =>
          cases he
          rcases eq_or_ne x x' with rfl | hx
          · simp [Locking.owner, locking]
          · simpa [Function.update_of_ne hx, Locking.owner, locking, Ne.symm hx] using hs.locked x
      all_goals
        rw [exec_locked he (by simp) (by simp)]
        exact hs.locked x
    · exact hs.exclusive.cons hone hacq hrel
    · intro j hj
      rcases eq_or_ne j i with rfl | hji
      · rw [status_own_self] at hj
        obtain ⟨rfl, hheld⟩ := lock_of_jammed hj (hs.jammed j) hok
        rw [status_held] at hheld
        have howner := hs.exclusive.owner j _ hheld
        rw [hacq _ rfl] at howner
        cases howner
      · rw [own_cons_ne hji] at hj
        exact hs.jammed j hj
  · cases he
    exact ⟨hs.locked, hs.exclusive, hs.jammed⟩

/-! ## 送信に失敗した開始 -/

/-- 送信に失敗したスレッドは、ロックを取ろうとして止まったままである。 -/
theorem failed_inductive : Inductive (anyOrder identity) (fun c h => Ok c (status h)) fun s tr =>
    Owned s tr ∧ ∀ i, SendFailed i tr → (status (own i tr)).phase = .failed := by
  apply owned_inductive.extend
  · intro i c o s tr r s' hs hfailed hg hok he j hj
    have hjam := (owned_inductive.cmd hs hg hok he).jammed j
    rcases eq_or_ne j i with rfl | hji
    · rw [status_own_self] at hjam ⊢
      have hnow := hs.jammed j
      have hbefore := hfailed j
      obtain ⟨worker, ok, hmem⟩ := hj
      rw [own_cons_self] at hmem
      generalize status (own j tr) = before at hok hjam hnow hbefore
      obtain ⟨held, phase⟩ := before
      rcases List.mem_cons.mp hmem with heq | hmem
      · cases heq
        cases phase
        case jammed => exact absurd rfl hnow
        case failed => simp [Ok] at hok
        all_goals rfl
      · have hphase : phase = .failed := hbefore ⟨worker, ok, hmem⟩
        subst hphase
        rcases hok.2 with rfl | ⟨g, rfl, -⟩
        · exact absurd rfl hjam
        · rfl
    · rw [own_cons_ne hji]
      apply hfailed j
      simpa only [SendFailed, own_cons_ne hji] using hj
  · exact fun _ hfailed _ => hfailed

theorem owned_init {podID : String} {numWorkers : Nat} {tr : List (Event (machine identity))} (htr : tr = []) :
    Owned (.init podID numWorkers) tr ∧ ∀ i, SendFailed i tr → (status (own i tr)).phase = .failed := by
  subst htr
  refine ⟨⟨fun _ => rfl, .nil, by simp [Prog.summary, Status.init]⟩, ?_⟩
  rintro i ⟨worker, ok, hmem⟩
  cases hmem

/-- 送信に失敗した開始は、どの実行でも戻らない。 -/
theorem not_restored {podID : String} {numWorkers : Nat} {p : Pool (machine identity)}
    (hrun : Run (anyOrder identity) (.start (.init podID numWorkers)) p) {i : Nat} (hfailed : SendFailed i p.trace) :
    ¬Restored p i := by
  rintro ⟨p', hrest, hreturned, -⟩
  obtain ⟨worker, ok, hmem⟩ := hfailed
  have hall : Run (anyOrder identity) (.start (.init podID numWorkers)) p' := hrun.trans hrest
  have hphase := (failed_inductive.of_start bodies_ok (owned_init rfl) hall).2 i ⟨worker, ok, hrest.mem_own hmem⟩
  exact hall.thread (fun k _ => bodies k) hreturned hphase

/-! ## 成り立つ条件 -/

/-- ワーカーのロックを取りに来るスレッドがあるとき、そのロックを持つスレッドは待たない。`recovery` は、他のスレッドの
進み方である。 -/
def Phase.passes : Phase → Phase → Bool
  | .releasing, _ | .relocking, _ | .clearing, _ => false
  | .failing, .recovering (_ + 1) | .settling, .recovering (_ + 1) => false
  | _, _ => true

/-- `WorkerManager.Mutex` を持ったまま再びそれに向かうスレッドはない。それを持ってワーカーのロックを取りに来る
スレッドと、そのロックを持って他のロックを待つスレッドが、同時にはいない。 -/
structure Settled (tr : List (Event (machine identity))) : Prop where
  failed : ∀ i, (status (own i tr)).phase ≠ .failed
  passes : ∀ i j k g, (status (own i tr)).phase = .entering g → .worker g ∈ (status (own j tr)).held →
    (status (own j tr)).phase.passes (status (own k tr)).phase

/-- どの命令の後も `Settled` である。 -/
def orderly (identity : String → TaskIdentity) : Guard (machine identity) where
  call := fun _ => True
  cmd := fun i c s tr => ∀ r s', c.exec s = some (r, s') → Settled (⟨i, c, r, s⟩ :: tr)

/-- `entered` はロックを取りに来られているワーカー、`tasks` は `TasksMutex` の順位である。 -/
def rank (entered : Nat → Bool) (tasks : Nat) : Lock → Nat
  | .manager => 2
  | .tasks => tasks
  | .worker g => if entered g then 3 else 0

theorem ok_of_requests {p : Pool (machine identity)} (hp : p.Follows fun c h => Ok c (status h)) {i : Nat} {x : Lock}
    (h : locking.Requests p i x) : Ok (.lock x) (status (own i p.trace)) := by
  obtain ⟨c, k, ht, hc⟩ := h
  have hok := (hp.thread i _ ht).1
  cases c
  case lock x' =>
      cases hc
      exact hok
  all_goals cases hc

/-- 他のロックを持ってロックを取ろうとするときの様子。 -/
theorem held_of_lock {x : Lock} {s : Status} (hok : Ok (.lock x) s) (hjam : s.phase ≠ .jammed) (hfailed : s.phase ≠ .failed) :
    s.held = [] ∨
      (∃ g, s.held = [.worker g] ∧ (x = .manager ∧ (s.phase = .relocking ∨ s.phase = .clearing) ∨
        x = .tasks ∧ (s.phase = .releasing ∨ s.phase = .failing ∨ s.phase = .settling))) ∨
      (s.held = [.tasks] ∧ x = .manager ∧ ∃ n, s.phase = .recovering (n + 1)) ∨
      s.held = [.manager] ∧ ∃ g, x = .worker g ∧ s.phase = .entering g := by
  obtain ⟨held, phase⟩ := s
  cases x with
  | manager => cases phase <;> simp_all [Ok]
  | tasks => cases phase <;> simp_all [Ok]
  | worker g => cases phase <;> simp_all [Ok]

theorem free_of_settled {p : Pool (machine identity)} (hp : p.Follows fun c h => Ok c (status h))
    (howned : Owned p.state p.trace) (hs : Settled p.trace) : locking.Free p := by
  obtain ⟨entered, hentered⟩ : ∃ f : Nat → Bool, ∀ g, f g = true ↔ ∃ i, (status (own i p.trace)).phase = .entering g := by
    classical exact ⟨fun g => decide (∃ i, (status (own i p.trace)).phase = .entering g), by simp⟩
  -- 回復が残っていれば `TasksMutex` が下であり、そうでなければ最も上である。
  obtain ⟨tasks, htasks⟩ : ∃ tasks, (∃ k n, (status (own k p.trace)).phase = .recovering (n + 1)) ∧ tasks = 1 ∨
      (∀ k n, (status (own k p.trace)).phase ≠ .recovering (n + 1)) ∧ tasks = 4 := by
    by_cases h : ∃ k n, (status (own k p.trace)).phase = .recovering (n + 1)
    · exact ⟨1, .inl ⟨h, rfl⟩⟩
    · exact ⟨4, .inr ⟨fun k n hk => h ⟨k, n, hk⟩, rfl⟩⟩
  have hpositive : 0 < tasks := by omega
  have hascending : locking.Ascending (rank entered tasks) p := by
    intro i x hreq l hl
    rw [← status_held] at hl
    rcases held_of_lock (ok_of_requests hp hreq) (howned.jammed i) (hs.failed i) with
      hempty | ⟨g, hheld, hwaits⟩ | ⟨hheld, rfl, n, hn⟩ | ⟨hheld, g, rfl, hg⟩
    · simp [hempty] at hl
    · have hpasses (j k : Nat) (hj : (status (own j p.trace)).phase = .entering g) :=
        hs.passes j i k g hj (by simp [hheld])
      rw [hheld, List.mem_singleton] at hl
      subst hl
      cases hg : entered g with
      | false =>
          rcases hwaits with ⟨rfl, -⟩ | ⟨rfl, -⟩
          · simp [rank, hg]
          · simpa [rank, hg] using hpositive
      | true =>
          obtain ⟨j, hj⟩ := (hentered g).mp hg
          have hphase : x = .tasks ∧ ∀ k n, (status (own k p.trace)).phase ≠ .recovering (n + 1) := by
            rcases hwaits with ⟨-, hphase | hphase⟩ | ⟨rfl, hphase | hphase | hphase⟩
            · simpa [hphase, Phase.passes] using hpasses j j hj
            · simpa [hphase, Phase.passes] using hpasses j j hj
            · simpa [hphase, Phase.passes] using hpasses j j hj
            · refine ⟨rfl, fun k n hk => ?_⟩
              simpa [hphase, hk, Phase.passes] using hpasses j k hj
            · refine ⟨rfl, fun k n hk => ?_⟩
              simpa [hphase, hk, Phase.passes] using hpasses j k hj
          obtain ⟨rfl, hnone⟩ := hphase
          rcases htasks with ⟨⟨k, n, hk⟩, -⟩ | ⟨-, rfl⟩
          · exact absurd hk (hnone k n)
          · simp [rank, hg]
    · rw [hheld, List.mem_singleton] at hl
      subst hl
      rcases htasks with ⟨-, rfl⟩ | ⟨hnone, -⟩
      · simp [rank]
      · exact absurd hn (hnone i n)
    · rw [hheld, List.mem_singleton] at hl
      subst hl
      simp [rank, (hentered g).mpr ⟨i, hg⟩]
  exact hascending.free

theorem settled_inductive : Inductive (orderly identity) (fun c h => Ok c (status h)) fun _ tr => Settled tr :=
  ⟨fun _ hg _ he => hg _ _ he, fun h _ => h⟩

/-- 命令を出したスレッドと、まだ出していないスレッドの様子。 -/
def statuses (tr : List (Event (machine identity))) : List Status := status [] :: tr.map fun e => status (own e.tid tr)

theorem forall_statuses {tr : List (Event (machine identity))} {P : Status → Prop} :
    (∀ i, P (status (own i tr))) ↔ ∀ s ∈ statuses tr, P s := by
  rw [forall_own (P := fun h => P (status h))]
  simp [statuses]

/-- 取りに来ているワーカーのロック。 -/
def Phase.target : Phase → Option Nat
  | .entering g => some g
  | _ => none

theorem Phase.target_eq {phase : Phase} {g : Nat} : phase.target = some g ↔ phase = .entering g := by
  cases phase <;> simp [Phase.target]

theorem settled_iff {tr : List (Event (machine identity))} : Settled tr ↔
    (∀ s ∈ statuses tr, s.phase ≠ .failed) ∧ ∀ s ∈ statuses tr, ∀ g ∈ s.phase.target, ∀ s' ∈ statuses tr,
      .worker g ∈ s'.held → ∀ s'' ∈ statuses tr, s'.phase.passes s''.phase := by
  simp only [← forall_statuses, Option.mem_def, Phase.target_eq]
  exact ⟨fun h => ⟨h.failed, fun i g hi j hj k => h.passes i j k g hi hj⟩,
    fun h => ⟨h.1, fun i j k g hi hj => h.2 i g hi j hj k⟩⟩

instance {tr : List (Event (machine identity))} : Decidable (Settled tr) := decidable_of_iff _ settled_iff.symm

instance {k} : Decidable ((orderly identity).call k) := .isTrue trivial

instance {i c s tr} : Decidable ((orderly identity).cmd i c s tr) :=
  match h : Cmd.exec c s with
  | some (r, _) => decidable_of_iff (Settled (⟨i, c, r, s⟩ :: tr)) (by simp [orderly, h])
  | none => .isTrue (by simp [orderly, h])

theorem settled_nil : Settled ([] : List (Event (machine identity))) :=
  ⟨by simp [Prog.summary, Status.init], by simp [Prog.summary, Status.init]⟩

theorem run_of_orderly {p p' : Pool (machine identity)} (h : Run (orderly identity) p p') : Run (anyOrder identity) p p' := by
  apply Relation.ReflTransGen.mono _ _ _ h
  intro p p' hstep
  cases hstep with
  | spawn _ => exact .spawn trivial
  | run ht _ he => exact .run ht trivial he
  | env he => exact .env he

theorem lockDiscipline_of_orderly {podID : String} {numWorkers : Nat} {p : Pool (machine identity)}
    (hrun : Run (orderly identity) (.start (.init podID numWorkers)) p) :
    locking.Free p ∧ ∀ i, SendFailed i p.trace → Restored p i := by
  obtain ⟨hp, hs⟩ := settled_inductive.run bodies_ok (Pool.follows_start _) settled_nil hrun
  obtain ⟨howned, hfailed⟩ := failed_inductive.of_start bodies_ok (owned_init rfl) (run_of_orderly hrun)
  constructor
  · exact free_of_settled hp howned hs
  · exact fun i hi => absurd (hfailed i hi) (hs.failed i)

/-- タスクを始め、その完了を処理する間に、停止が同じワーカーのロックを待つ。 -/
def stopDuringCompletion : List (Move (machine twoKinds)) :=
  .spawn (.startWorker 0 true) :: List.replicate 3 (.run 0 ()) ++
    .spawn (.processRedisTask (.start "a") {}) :: List.replicate 12 (.run 1 ()) ++
    .spawn (.handleTaskCompletion ⟨0, 0⟩ ⟨"a", true, false⟩ none {}) :: List.replicate 2 (.run 2 ()) ++
    .spawn (.processRedisTask (.stop ⟨"s", "c", "record", -1, "a"⟩ (some ⟨"p", 0⟩)) {}) :: List.replicate 3 (.run 3 ())

theorem stopDuringCompletion_free : ∃ p, Run (orderly twoKinds) (.start (.init "p" 1)) p ∧
    nextLock p 3 = some (.worker 0) ∧ locking.owner (.worker 0) p.trace = some 2 ∧
      locking.Free p ∧ ∀ i, SendFailed i p.trace → Restored p i := by
  have hlast : (Pool.play stopDuringCompletion (.start (.init "p" 1))).map
      (fun p => (nextLock p 3, locking.owner (.worker 0) p.trace)) = some (some (.worker 0), some 2) := by decide
  obtain ⟨p, hp, heq⟩ := Option.map_eq_some_iff.mp hlast
  obtain ⟨hnext, howner⟩ := Prod.mk.inj heq
  have hrun : Run (orderly twoKinds) (.start (.init "p" 1)) p := Pool.play_sound (by decide) hp
  exact ⟨p, hrun, hnext, howner, lockDiscipline_of_orderly hrun⟩

end RtcEgress.Native.Threads
