import RtcEgress.Lib.Action
import RtcEgress.Lib.System
import RtcEgress.Native.Tables
import RtcEgress.Queue.Task

/-!
# `pkg/egress/manager.go` のワーカーの割り当て

`ModeNative` の `WorkerManager` の操作を、一つずつ行う処理として写す。Redis から読んだ記録、UDS の送信、プロセスの
起動と終了の成否は、結果として受け取る。ロックは持ち主を問わないので、持ったまま再び取ろうとした処理は戻らない。
-/

namespace RtcEgress.Native

open RtcEgress.Lib

/-! ## 状態 -/

inductive WorkerState where
  | idle | running | notAvailable
  deriving DecidableEq

/-- `hasProcess` と `hasConn` は、`Cmd` と `Conn` があることである。`generation` は、どの `startWorker` が作ったかを表す。 -/
structure Worker where
  generation : Nat
  state : WorkerState
  hasProcess : Bool
  hasConn : Bool
  alive : Bool

inductive Mutex where
  /-- `WorkerManager.Mutex` -/
  | manager
  /-- `WorkerManager.TasksMutex` -/
  | tasks
  deriving DecidableEq

structure WorkerManager where
  podID : String
  workers : List (Option Worker)
  tables : Tables
  activeTasks : AList fun _ : String => String
  held : Mutex → Bool
  nextGeneration : Nat

/-- どのワーカーも起動していない。 -/
def WorkerManager.init (podID : String) (numWorkers : Nat) : WorkerManager where
  podID
  workers := List.replicate numWorkers none
  tables := .empty
  activeTasks := ∅
  held := fun _ => false
  nextGeneration := 0

namespace WorkerManager

def worker (m : WorkerManager) (workerID : Nat) : Option Worker := (m.workers[workerID]?).join

def setWorker (m : WorkerManager) (workerID : Nat) (w : Worker) : WorkerManager :=
  { m with workers := m.workers.set workerID (some w) }

def withTables (m : WorkerManager) (f : Tables → Tables) : WorkerManager := { m with tables := f m.tables }

/-- 同じ `startWorker` の作ったワーカーがまだあれば、その状態を書く。 -/
def setState (m : WorkerManager) (workerID generation : Nat) (state : WorkerState) : WorkerManager :=
  match m.worker workerID with
  | some w => if w.generation = generation then m.setWorker workerID { w with state } else m
  | none => m

def findFreeWorker (m : WorkerManager) : Option Nat :=
  m.workers.findIdx? fun w => match w with
    | some w => w.state == .idle
    | none => false

/-- チャンネルに割り当てた、使えるワーカー。 -/
def usableWorker (m : WorkerManager) (channel : String) : Option Nat :=
  (m.tables.channelWorkers.lookup channel).filter fun workerID =>
    match m.worker workerID with
    | some w => w.state != .notAvailable
    | none => false

/-- 送信は、接続がなければ失敗する。 -/
def canSend (m : WorkerManager) (workerID : Nat) : Bool := ((m.worker workerID).map Worker.hasConn).getD false

end WorkerManager

abbrev M (α : Type) := Action WorkerManager α

/-- 空くのを待つ相手のないロックでは、処理が戻らない。 -/
def lock (x : Mutex) : M Unit := do
  let m ← Action.get
  if m.held x then Action.block
  else Action.modify fun m => { m with held := Function.update m.held x true }

def unlock (x : Mutex) : M Unit := Action.modify fun m => { m with held := Function.update m.held x false }

def untrack (taskID : String) : M Unit := do
  lock .tasks
  Action.modify fun m => { m with activeTasks := m.activeTasks.erase taskID }
  unlock .tasks

/-- 状態から決まらない結果。`sends` は、送信の試みごとの成否である。 -/
structure Outcome where
  build : Bool := true
  sends : Nat → Bool := fun _ => true
  /-- 伝言を作れないときと、送れないときのエラーの文。 -/
  error : String := ""
  pickWorker : Option Nat := none
  pickChannel : Option String := none
  pickCmd : Option String := none
  isWeb : Bool := false
  killed : Bool := true

variable (identity : String → TaskIdentity)

/-! ## 割り当て -/

def removeTaskFromChannel (channel cmd taskID : String) (o : Outcome) : M Unit := do
  lock .manager
  Action.modify fun m => m.withTables fun t => t.removeTask channel cmd taskID o.pickWorker
  unlock .manager

/-- 割り当てたワーカーが使えなければ、割り当てを消して、空いているものを探す。 -/
def findWorkerForChannel (channel : String) : M (Option Nat) := do
  let m ← Action.get
  match m.usableWorker channel with
  | some workerID => return some workerID
  | none =>
      match m.tables.channelWorkers.lookup channel with
      | some workerID => Action.modify fun m => m.withTables fun t => t.dropChannel channel workerID
      | none => pure ()
      let m ← Action.get
      return m.findFreeWorker

/-- エラーの文を返す。送信に失敗したときは、ロックを持ったまま `removeTaskFromChannel` を呼ぶ。 -/
def startNativeRecorderTask (taskID : String) (o : Outcome) : M (Option String) := do
  let ⟨channel, cmd⟩ := identity taskID
  if !o.build then return some ("failed to build UDS message for task " ++ taskID ++ ": " ++ o.error)
  lock .manager
  let m ← Action.get
  if m.tables.existing channel cmd ≠ [] then
    unlock .manager
    return some ("task of type " ++ cmd ++ " already running on channel " ++ channel)
  let found ← findWorkerForChannel channel
  match found with
  | none =>
      unlock .manager
      return some "no free workers available"
  | some workerID =>
      Action.modify fun m => m.withTables fun t => t.assign channel workerID cmd taskID
      let m ← Action.get
      if !(m.canSend workerID && o.sends 0) then
        removeTaskFromChannel channel cmd taskID o
        unlock .manager
        return some ("failed to send task to worker: " ++ o.error)
      Action.modify fun m => m.setState workerID (((m.worker workerID).map Worker.generation).getD 0) .running
      unlock .manager
      return none

/-- `processRedisTask` が、始まったタスクを延長の対象に加える。 -/
def track (taskID : String) : M Unit := do
  lock .tasks
  Action.modify fun m => { m with activeTasks := m.activeTasks.insert taskID m.podID }
  unlock .tasks

/-! ## 停止 -/

def cleanupStoppedTask (channel cmd taskID : String) (o : Outcome) : M Unit := do
  removeTaskFromChannel channel cmd taskID o
  untrack taskID

/-- ロックを持ったまま `cleanupStoppedTask` を呼ぶ。 -/
def forceKillWorker (workerID : Nat) (taskID channel cmd : String) (o : Outcome) : M Unit := do
  lock .manager
  let m ← Action.get
  match m.worker workerID with
  | none => unlock .manager
  | some w =>
      if w.hasProcess && o.killed then Action.modify fun m => m.setWorker workerID { w with alive := false }
      cleanupStoppedTask channel cmd taskID o
      Action.modify fun m =>
        (m.setWorker workerID { w with alive := false, state := .notAvailable, hasProcess := false }).withTables fun t =>
          { t with
            channelWorkers := t.channelWorkers.erase channel
            workerChannels := t.workerChannels.erase workerID }
      unlock .manager

/-- 停止のタスク。`originalTaskID` は、中身の `task_id` である。 -/
structure StopTask where
  id : String
  channel : String
  cmd : String
  workerID : Int
  originalTaskID : String

/-- 停止を `n` 回まで送り、送れなければワーカーを止める。 -/
def stopAttempts (workerID : Nat) (task : StopTask) (o : Outcome) : Nat → M Bool
  | 0 => do
      forceKillWorker workerID task.originalTaskID task.channel task.cmd o
      return false
  | n + 1 => do
      let m ← Action.get
      if m.canSend workerID && o.sends n then
        cleanupStoppedTask task.channel task.cmd task.originalTaskID o
        return true
      else stopAttempts workerID task o n

def stopOriginalTaskWithRetries (workerID : Nat) (task : StopTask) (o : Outcome) : M Bool := do
  if !o.build then return false
  stopAttempts workerID task o 3

def isTracked (tasks : TasksByType) (taskID : String) : Bool := tasks.entries.any fun e => taskID ∈ e.2

/-- 止めるタスクを動かしているワーカー。停止のタスクの `WorkerID` が同じチャンネルのものなら、それを優先する。 -/
def WorkerManager.targetWorker (m : WorkerManager) (task : StopTask) (channel : String) (o : Outcome) : Option Nat :=
  let present (workerID : Nat) : Bool := (m.worker workerID).isSome
  let byChannel : Option Nat :=
    if channel = "" then none
    else ((m.tables.channelWorkers.lookup channel).filter present).filter fun _ =>
      match m.tables.channelTasks.lookup channel with
      | some tasks => isTracked tasks task.originalTaskID
      | none => true
  let bySearch : Option Nat :=
    choose o.pickWorker (m.tables.channelTasks.entries.filterMap fun e =>
      if isTracked e.2 task.originalTaskID then (m.tables.channelWorkers.lookup e.1).filter present else none)
  let workerID := task.workerID.toNat
  if 0 ≤ task.workerID ∧ workerID < m.workers.length ∧ present workerID ∧
      m.tables.workerChannels.lookup workerID = some channel then some workerID
  else byChannel.or bySearch

/-- 元のタスクの記録のうち、`stopTask` が読む欄。 -/
structure OriginalTask where
  podID : String
  workerID : Int

def stopNativeTask (task : StopTask) (o : Outcome) : M Unit := do
  lock .manager
  let m ← Action.get
  let target := m.targetWorker task (identity task.originalTaskID).channel o
  unlock .manager
  match target with
  | none => untrack task.originalTaskID
  | some workerID =>
      let _ ← stopOriginalTaskWithRetries workerID task o
      return ()

def stopTask (task : StopTask) (original : Option OriginalTask) (o : Outcome) : M Unit := do
  if task.originalTaskID = "" then return ()
  match original with
  | none => pure ()
  | some orig =>
      if Queue.trimSpace orig.podID = "" ∨ orig.workerID < 0 ∨ o.isWeb then pure ()
      else stopNativeTask identity task o
  untrack task.id

/-! ## 失敗と完了 -/

/-- 記録のワーカーがなければ、割り当ての表には触れない。 -/
def failTask (taskID : String) (workerID : Int) (o : Outcome) : M Unit := do
  let ⟨channel, cmd⟩ := identity taskID
  let failKey := "failing:" ++ taskID
  lock .tasks
  let m ← Action.get
  if (m.activeTasks.lookup failKey).isSome then unlock .tasks
  else
    Action.modify fun m => { m with activeTasks := m.activeTasks.insert failKey "failing" }
    unlock .tasks
    let m ← Action.get
    if 0 ≤ workerID ∧ workerID < m.workers.length ∧ (m.worker workerID.toNat).isSome then
      removeTaskFromChannel channel cmd taskID o
    untrack taskID
    untrack failKey

structure UDSCompletionMessage where
  taskID : String
  success : Bool
  /-- `isUnrecoverableError` の結果。 -/
  isUnrecoverable : Bool := false

/-- ワーカーのチャンネルで、完了したタスクを探す。 -/
def WorkerManager.locate (m : WorkerManager) (workerID : Nat) (taskID : String) (o : Outcome) : Option (String × String) := do
  let channel ← choose o.pickChannel ((m.tables.channelWorkers.entries.filter fun e => e.2 == workerID).map Sigma.fst)
  let tasks ← m.tables.channelTasks.lookup channel
  let cmd ← choose o.pickCmd ((tasks.entries.filter fun e => taskID ∈ e.2).map Sigma.fst)
  return (channel, cmd)

/-- 割り当ての表から決まるワーカーの状態。 -/
def WorkerManager.stateAfter (m : WorkerManager) (workerID : Nat) : WorkerState :=
  match m.tables.workerChannels.lookup workerID with
  | none => .idle
  | some channel =>
      match m.tables.channelTasks.lookup channel with
      | some tasks => if tasks.entries = [] then .idle else .running
      | none => .idle

/-- 失敗として扱わない完了の後始末。 -/
def releaseCompleted (workerID generation : Nat) (taskID : String) (o : Outcome) : M Unit := do
  untrack taskID
  lock .manager
  let m ← Action.get
  let found := (m.locate workerID taskID o).filter fun x => x.1 ≠ "" ∧ x.2 ≠ ""
  unlock .manager
  match found with
  | some (channel, cmd) => removeTaskFromChannel channel cmd taskID o
  | none => pure ()
  lock .manager
  Action.modify fun m => m.setState workerID generation (m.stateAfter workerID)
  unlock .manager

/-- 通知を受けるのは、`startWorker` の作った特定のワーカーである。`record` は、記録から読んだワーカーである。 -/
def handleTaskCompletion (workerID generation : Nat) (completion : UDSCompletionMessage) (record : Option Int)
    (o : Outcome) : M Unit :=
  if !completion.success && completion.isUnrecoverable then
    match record with
    | some recorded => failTask identity completion.taskID recorded o
    | none => releaseCompleted workerID generation completion.taskID o
  else releaseCompleted workerID generation completion.taskID o

/-! ## 起動と回復 -/

/-- 失敗した起動は、使えないワーカーを残す。 -/
def startWorker (workerID : Nat) (ok : Bool) : M Unit := do
  lock .manager
  Action.modify fun m =>
    { m.setWorker workerID ⟨m.nextGeneration, if ok then .idle else .notAvailable, ok, ok, ok⟩ with
      nextGeneration := m.nextGeneration + 1 }
  unlock .manager

/-- `monitorWorkers` が一つのワーカーを調べる。 -/
def monitorWorker (workerID : Nat) (ok : Bool) : M Unit := do
  let m ← Action.get
  if workerID < m.workers.length then
    match m.worker workerID with
    | none => startWorker workerID ok
    | some w => if w.hasProcess && w.alive then pure () else startWorker workerID ok
  else pure ()

/-- ワーカーのプロセスが終わる。 -/
def die (workerID : Nat) : M Unit := Action.modify fun m =>
  match m.worker workerID with
  | some w => m.setWorker workerID { w with alive := false }
  | none => m

/-- 終わったワーカーのチャンネルにあるタスク。 -/
def WorkerManager.tasksToRecover (m : WorkerManager) (workerID : Nat) : List String :=
  (m.activeTasks.entries.filter fun e => e.2 == m.podID).map Sigma.fst |>.filter fun taskID =>
    m.tables.channelWorkers.entries.any fun e => e.2 == workerID &&
      ((m.tables.channelTasks.lookup e.1).map fun tasks => isTracked tasks taskID).getD false

/-- 延長の対象から外し、Redis のキューへ戻す。割り当ての表には触れない。 -/
def recoverTasksFromDeadWorker (workerID : Nat) : M Unit := do
  lock .tasks
  let m ← Action.get
  if m.activeTasks.entries.any fun e => e.2 == m.podID then
    lock .manager
    unlock .manager
  Action.modify fun m =>
    { m with activeTasks := (m.tasksToRecover workerID).foldl (fun active taskID => active.erase taskID) m.activeTasks }
  unlock .tasks

/-! ## 全体 -/

inductive Op where
  | startNativeRecorderTask (taskID : String) (o : Outcome)
  | track (taskID : String)
  | stopTask (task : StopTask) (original : Option OriginalTask) (o : Outcome)
  | handleTaskCompletion (workerID generation : Nat) (completion : UDSCompletionMessage) (record : Option Int) (o : Outcome)
  | failTask (taskID : String) (workerID : Int) (o : Outcome)
  | forceKillWorker (workerID : Nat) (taskID channel cmd : String) (o : Outcome)
  | die (workerID : Nat)
  | monitorWorker (workerID : Nat) (ok : Bool)
  | recoverTasksFromDeadWorker (workerID : Nat)

def Op.apply (op : Op) (m : WorkerManager) : WorkerManager :=
  match op with
  | .startNativeRecorderTask taskID o => (Native.startNativeRecorderTask identity taskID o).after m
  | .track taskID => (Native.track taskID).after m
  | .stopTask task original o => (Native.stopTask identity task original o).after m
  | .handleTaskCompletion workerID generation completion record o =>
      (Native.handleTaskCompletion identity workerID generation completion record o).after m
  | .failTask taskID workerID o => (Native.failTask identity taskID workerID o).after m
  | .forceKillWorker workerID taskID channel cmd o => (Native.forceKillWorker workerID taskID channel cmd o).after m
  | .die workerID => (Native.die workerID).after m
  | .monitorWorker workerID ok => (Native.monitorWorker workerID ok).after m
  | .recoverTasksFromDeadWorker workerID => (Native.recoverTasksFromDeadWorker workerID).after m

def manager : System Op := ⟨WorkerManager, Op.apply identity⟩

end RtcEgress.Native
