import RtcEgress.Lib.Prog
import RtcEgress.Native.WorkerManager

/-!
# `pkg/egress/manager.go` のゴルーチン

`WorkerManager` の操作を、三種類のロックと共有の状態への命令を一つずつ出すプログラムとして写す。ワーカーの `Mutex` は、
`startWorker` の作った `Worker` ごとにある。Redis への命令は、`handleTaskCompletion` の進み方を表すものだけを残す。
-/

namespace RtcEgress.Native.Threads

open RtcEgress.Lib

inductive Lock where
  /-- `WorkerManager.Mutex` -/
  | manager
  /-- `WorkerManager.TasksMutex` -/
  | tasks
  /-- `Worker.Mutex` -/
  | worker (generation : Nat)
  deriving DecidableEq

/-- `*Worker` -/
structure WorkerRef where
  id : Nat
  generation : Nat
  deriving DecidableEq

inductive Action where
  | start | stop | status
  deriving DecidableEq

/-- `manager` の `held` は使わない。 -/
structure Shared where
  manager : WorkerManager
  locked : Lock → Bool

def Shared.init (podID : String) (numWorkers : Nat) : Shared := ⟨.init podID numWorkers, fun _ => false⟩

/-! ## 命令 -/

inductive Cmd where
  | lock (x : Lock)
  | unlock (x : Lock)
  | workerAt (workerID : Int)
  | existing (channel cmd : String)
  | findWorkerForChannel (channel : String)
  | assign (worker : WorkerRef) (channel cmd taskID : String)
  | sendUDSMessage (worker : WorkerRef) (action : Action) (ok : Bool)
  | setRunning (worker : WorkerRef)
  | removeTask (channel cmd taskID : String) (pick : Option Nat)
  | track (taskID : String)
  | untrack (taskID : String)
  | targetWorker (task : StopTask) (channel : String) (o : Outcome)
  | kill (workerID : Nat) (killed : Bool)
  | markDead (worker : WorkerRef) (channel : String)
  | checkTask (worker : WorkerRef) (taskID : String)
  | getTaskStatus (taskID : String) (record : Option Int)
  | updateTaskResult (taskID : String)
  | beginFail (taskID : String)
  | endFail (taskID : String)
  | locate (worker : WorkerRef) (taskID : String) (o : Outcome)
  | setStateAfter (worker : WorkerRef)
  | ownTasks
  | isOnWorker (workerID : Nat) (taskID : String)
  | forget (taskIDs : List String)
  | isDead (worker : WorkerRef)
  | startWorker (workerID : Nat) (ok : Bool)

abbrev Cmd.Resp : Cmd → Type
  | .workerAt _ | .findWorkerForChannel _ | .targetWorker _ _ _ | .kill _ _ => Option WorkerRef
  | .existing _ _ | .sendUDSMessage _ _ _ | .beginFail _ | .isOnWorker _ _ | .isDead _ => Bool
  | .checkTask _ _ => Option String
  | .getTaskStatus _ _ => Option Int
  | .locate _ _ _ => Option (String × String)
  | .ownTasks => List String
  | _ => Unit

def workerRef (m : WorkerManager) (workerID : Nat) : Option WorkerRef :=
  (m.worker workerID).map fun w => ⟨workerID, w.generation⟩

def Shared.update (s : Shared) (f : WorkerManager → WorkerManager) : Shared := { s with manager := f s.manager }

/-- 起動し直す前の接続への送信は、`ok` で決まる。 -/
def canSend (m : WorkerManager) (worker : WorkerRef) : Bool :=
  match m.worker worker.id with
  | some w => w.generation ≠ worker.generation || w.hasConn
  | none => true

/-- 割り当てたワーカーが使えなければ、割り当てを消す。 -/
def dropUnusable (m : WorkerManager) (channel : String) : WorkerManager :=
  match m.tables.channelWorkers.lookup channel with
  | some workerID => m.withTables fun t => t.dropChannel channel workerID
  | none => m

/-- 状態を尋ねるタスクがワーカーになければ、エラーの文を返す。 -/
def statusError (m : WorkerManager) (workerID : Nat) (taskID : String) : Option String :=
  match m.tables.workerChannels.lookup workerID with
  | none => some s!"worker {workerID} not assigned to any channel"
  | some channel =>
      if ((m.tables.channelTasks.lookup channel).map fun tasks => isTracked tasks taskID).getD false then none
      else some s!"task {taskID} not found on worker {workerID}"

/-- 命令の応答と、その後の状態。ロックは、空いているときにだけ取れる。 -/
def Cmd.exec (c : Cmd) (s : Shared) : Option (c.Resp × Shared) :=
  let m := s.manager
  match c with
  | .lock x => if s.locked x then none else some ((), { s with locked := Function.update s.locked x true })
  | .unlock x => some ((), { s with locked := Function.update s.locked x false })
  | .workerAt workerID => some (if 0 ≤ workerID then workerRef m workerID.toNat else none, s)
  | .existing channel cmd => some (m.tables.existing channel cmd ≠ [], s)
  | .findWorkerForChannel channel =>
      match m.usableWorker channel with
      | some workerID => some (workerRef m workerID, s)
      | none => some (m.findFreeWorker.bind (workerRef m), s.update fun m => dropUnusable m channel)
  | .assign worker channel cmd taskID =>
      some ((), s.update fun m => m.withTables fun t => t.assign channel worker.id cmd taskID)
  | .sendUDSMessage worker _ ok => some (canSend m worker && ok, s)
  | .setRunning worker => some ((), s.update fun m => m.setState worker.id worker.generation .running)
  | .removeTask channel cmd taskID pick =>
      some ((), s.update fun m => m.withTables fun t => t.removeTask channel cmd taskID pick)
  | .track taskID => some ((), s.update fun m => { m with activeTasks := m.activeTasks.insert taskID m.podID })
  | .untrack taskID => some ((), s.update fun m => { m with activeTasks := m.activeTasks.erase taskID })
  | .targetWorker task channel o => some ((m.targetWorker task channel o).bind (workerRef m), s)
  | .kill workerID killed => some (workerRef m workerID, s.update fun m =>
      match m.worker workerID with
      | some w => if w.hasProcess && killed then m.setWorker workerID { w with alive := false } else m
      | none => m)
  | .markDead worker channel => some ((), s.update fun m =>
      (match m.worker worker.id with
        | some w => if w.generation = worker.generation then
            m.setWorker worker.id { w with state := .notAvailable, hasProcess := false } else m
        | none => m).withTables fun t =>
          { t with
            channelWorkers := t.channelWorkers.erase channel
            workerChannels := t.workerChannels.erase worker.id })
  | .checkTask worker taskID => some (statusError m worker.id taskID, s)
  | .getTaskStatus _ record => some (record, s)
  | .updateTaskResult _ => some ((), s)
  | .beginFail taskID =>
      if (m.activeTasks.lookup ("failing:" ++ taskID)).isSome then some (true, s)
      else some (false, s.update fun m =>
        { m with activeTasks := m.activeTasks.insert ("failing:" ++ taskID) "failing" })
  | .endFail taskID =>
      some ((), s.update fun m => { m with activeTasks := m.activeTasks.erase ("failing:" ++ taskID) })
  | .locate worker taskID o => some ((m.locate worker.id taskID o).filter fun x => x.1 ≠ "" ∧ x.2 ≠ "", s)
  | .setStateAfter worker =>
      some ((), s.update fun m => m.setState worker.id worker.generation (m.stateAfter worker.id))
  | .ownTasks => some ((m.activeTasks.entries.filter fun e => e.2 == m.podID).map Sigma.fst, s)
  | .isOnWorker workerID taskID => some (m.tables.channelWorkers.entries.any fun e => e.2 == workerID &&
      ((m.tables.channelTasks.lookup e.1).map fun tasks => isTracked tasks taskID).getD false, s)
  | .forget taskIDs => some ((), s.update fun m =>
      { m with activeTasks := taskIDs.foldl (fun active taskID => active.erase taskID) m.activeTasks })
  | .isDead worker => some (match m.worker worker.id with
      | some w => !w.hasProcess || w.generation ≠ worker.generation
      | none => true, s)
  | .startWorker workerID ok => some ((), s.update fun m =>
      { m.setWorker workerID ⟨m.nextGeneration, if ok then .idle else .notAvailable, ok, ok, ok⟩ with
        nextGeneration := m.nextGeneration + 1 })

abbrev P (α : Type) := Prog Cmd Cmd.Resp α

abbrev perform (c : Cmd) : P c.Resp := Prog.perform c

abbrev lock (x : Lock) : P Unit := perform (.lock x)

abbrev unlock (x : Lock) : P Unit := perform (.unlock x)

variable (identity : String → TaskIdentity)

def untrack (taskID : String) : P Unit := do
  lock .tasks
  perform (.untrack taskID)
  unlock .tasks

def removeTaskFromChannel (channel cmd taskID : String) (o : Outcome) : P Unit := do
  lock .manager
  perform (.removeTask channel cmd taskID o.pickWorker)
  unlock .manager

/-! ## 開始 -/

/-- エラーの文を返す。送信に失敗したときは、ロックを持ったまま `removeTaskFromChannel` を呼ぶ。 -/
def startNativeRecorderTask (taskID : String) (o : Outcome) : P (Option String) := do
  let ⟨channel, cmd⟩ := identity taskID
  if !o.build then return some ("failed to build UDS message for task " ++ taskID ++ ": " ++ o.error)
  lock .manager
  let existing : Bool ← perform (.existing channel cmd)
  if existing then
    unlock .manager
    return some ("task of type " ++ cmd ++ " already running on channel " ++ channel)
  else
    let found : Option WorkerRef ← perform (.findWorkerForChannel channel)
    match found with
    | none =>
        unlock .manager
        return some "no free workers available"
    | some worker =>
        perform (.assign worker channel cmd taskID)
        lock (.worker worker.generation)
        let sent : Bool ← perform (.sendUDSMessage worker .start (o.sends 0))
        if sent then
          perform (.setRunning worker)
          unlock (.worker worker.generation)
          unlock .manager
          return none
        else
          unlock (.worker worker.generation)
          removeTaskFromChannel channel cmd taskID o
          unlock .manager
          return some ("failed to send task to worker: " ++ o.error)

/-! ## 停止 -/

def cleanupStoppedTask (channel cmd taskID : String) (o : Outcome) : P Unit := do
  removeTaskFromChannel channel cmd taskID o
  untrack taskID

/-- ロックを持ったまま `cleanupStoppedTask` を呼ぶ。 -/
def forceKillWorker (workerID : Nat) (taskID channel cmd : String) (o : Outcome) : P Unit := do
  lock .manager
  let found : Option WorkerRef ← perform (.kill workerID o.killed)
  match found with
  | none => unlock .manager
  | some worker =>
      cleanupStoppedTask channel cmd taskID o
      perform (.markDead worker channel)
      unlock .manager

/-- 停止を `n` 回まで送り、送れなければワーカーを止める。 -/
def stopAttempts (worker : WorkerRef) (task : StopTask) (o : Outcome) : Nat → P Unit
  | 0 => forceKillWorker worker.id task.originalTaskID task.channel task.cmd o
  | n + 1 => do
      lock (.worker worker.generation)
      let sent : Bool ← perform (.sendUDSMessage worker .stop (o.sends n))
      unlock (.worker worker.generation)
      if sent then cleanupStoppedTask task.channel task.cmd task.originalTaskID o
      else stopAttempts worker task o n

def stopNativeTask (task : StopTask) (o : Outcome) : P Unit := do
  lock .manager
  let target : Option WorkerRef ← perform (.targetWorker task (identity task.originalTaskID).channel o)
  unlock .manager
  match target with
  | none => untrack task.originalTaskID
  | some worker => if !o.build then return () else stopAttempts worker task o 3

def stopTask (task : StopTask) (original : Option OriginalTask) (o : Outcome) : P Unit := do
  if task.originalTaskID = "" then return ()
  match original with
  | none => untrack task.id
  | some orig =>
      if Queue.trimSpace orig.podID = "" ∨ orig.workerID < 0 ∨ o.isWeb then untrack task.id
      else
        stopNativeTask identity task o
        untrack task.id

/-! ## 状態 -/

/-- どの番号のワーカーも `StartAll` が作っている。 -/
def getNativeTaskStatus (taskID : String) (workerID : Int) (o : Outcome) : P (Option String) := do
  if !o.build then return some ("failed to build status UDS message for task " ++ taskID ++ ": " ++ o.error)
  let found : Option WorkerRef ← perform (.workerAt workerID)
  match found with
  | none => return some s!"invalid worker ID {workerID}"
  | some worker =>
      lock .manager
      let error : Option String ← perform (.checkTask worker taskID)
      match error with
      | some text =>
          unlock .manager
          return some text
      | none =>
          lock (.worker worker.generation)
          let sent : Bool ← perform (.sendUDSMessage worker .status (o.sends 0))
          unlock (.worker worker.generation)
          unlock .manager
          return if sent then none else some s!"failed to send status command to worker {workerID}: {o.error}"

/-! ## 受け取ったタスク -/

inductive Request where
  | start (taskID : String)
  | stop (task : StopTask) (original : Option OriginalTask)
  | status (taskID : String) (workerID : Int)

/-- 停止のほかは、成功すると延長の対象に加える。 -/
def processRedisTask (request : Request) (o : Outcome) : P Unit := do
  let track (taskID : String) (err : Option String) : P Unit :=
    match err with
    | some _ => return ()
    | none => do
        lock .tasks
        perform (.track taskID)
        unlock .tasks
  match request with
  | .start taskID =>
      let err ← startNativeRecorderTask identity taskID o
      track taskID err
  | .stop task original => stopTask identity task original o
  | .status taskID workerID =>
      let err ← getNativeTaskStatus taskID workerID o
      track taskID err

/-! ## 失敗と完了 -/

/-- 呼び出し側がワーカーのロックを持つ。 -/
def failTask (taskID : String) (workerID : Int) (o : Outcome) : P Unit := do
  let ⟨channel, cmd⟩ := identity taskID
  lock .tasks
  let failing : Bool ← perform (.beginFail taskID)
  unlock .tasks
  if failing then return ()
  let found : Option WorkerRef ← perform (.workerAt workerID)
  match found with
  | none => perform (.updateTaskResult taskID)
  | some worker =>
      let _ ← perform (.sendUDSMessage worker .stop (o.sends 0))
      removeTaskFromChannel channel cmd taskID o
      perform (.updateTaskResult taskID)
  untrack taskID
  lock .tasks
  perform (.endFail taskID)
  unlock .tasks

def releaseCompleted (worker : WorkerRef) (taskID : String) (o : Outcome) : P Unit := do
  perform (.updateTaskResult taskID)
  untrack taskID
  lock .manager
  let found : Option (String × String) ← perform (.locate worker taskID o)
  unlock .manager
  match found with
  | some (channel, cmd) => removeTaskFromChannel channel cmd taskID o
  | none => pure ()
  lock .manager
  perform (.setStateAfter worker)
  unlock .manager

def handleTaskCompletion (worker : WorkerRef) (completion : UDSCompletionMessage) (record : Option Int) (o : Outcome) :
    P Unit := do
  lock (.worker worker.generation)
  if !completion.success && completion.isUnrecoverable then
    let task : Option Int ← perform (.getTaskStatus completion.taskID record)
    match task with
    | some workerID => failTask identity completion.taskID workerID o
    | none => releaseCompleted worker completion.taskID o
  else releaseCompleted worker completion.taskID o
  unlock (.worker worker.generation)

/-! ## 起動と回復 -/

def startWorker (workerID : Nat) (ok : Bool) : P Unit := do
  lock .manager
  perform (.startWorker workerID ok)
  unlock .manager

/-- 終わったワーカーのチャンネルにあるタスク。 -/
def tasksToRecover (workerID : Nat) : List String → P (List String)
  | [] => return []
  | taskID :: taskIDs => do
      lock .manager
      let on : Bool ← perform (.isOnWorker workerID taskID)
      unlock .manager
      let rest ← tasksToRecover workerID taskIDs
      return if on then taskID :: rest else rest

def recoverTasksFromDeadWorker (workerID : Nat) : P Unit := do
  lock .tasks
  let taskIDs : List String ← perform .ownTasks
  let found ← tasksToRecover workerID taskIDs
  perform (.forget found)
  unlock .tasks

def scheduleWorkerRecovery (worker : WorkerRef) : P Unit := do
  lock .manager
  let stillDead : Bool ← perform (.isDead worker)
  unlock .manager
  if stillDead then recoverTasksFromDeadWorker worker.id else return ()

/-! ## 全体 -/

inductive Call where
  | processRedisTask (request : Request) (o : Outcome)
  | handleTaskCompletion (worker : WorkerRef) (completion : UDSCompletionMessage) (record : Option Int) (o : Outcome)
  | scheduleWorkerRecovery (worker : WorkerRef)
  | startWorker (workerID : Nat) (ok : Bool)

def Call.body : Call → P Unit
  | .processRedisTask request o => Threads.processRedisTask identity request o
  | .handleTaskCompletion worker completion record o => Threads.handleTaskCompletion identity worker completion record o
  | .scheduleWorkerRecovery worker => Threads.scheduleWorkerRecovery worker
  | .startWorker workerID ok => Threads.startWorker workerID ok

/-- ワーカーのプロセスが終わる。 -/
def die (workerID : Nat) (s : Shared) : Shared := s.update fun m =>
  match m.worker workerID with
  | some w => m.setWorker workerID { w with alive := false }
  | none => m

def machine : Machine Cmd Cmd.Resp where
  State := Shared
  Oracle := Unit
  exec := fun _ => Cmd.exec
  Env := Nat
  env := fun workerID s => some (die workerID s)
  Call := Call
  body := Call.body identity

end RtcEgress.Native.Threads
