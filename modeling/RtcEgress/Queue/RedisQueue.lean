import RtcEgress.Queue.Command

/-!
# `pkg/queue/redis_queue.go` の関数

各関数を、Redis の命令を順に出すプログラムとして写す。Redis そのものの失敗は扱わないので、エラーになるのは
キーがないときだけである。エラーを返す関数は、値を返すものを `Option`、返さないものを `Bool`（成功）で表す。
-/

namespace RtcEgress.Queue

open RtcEgress.Lib

def getTaskStatus (reader : Reader) (taskID : String) : P (Option Task) := perform (.getTask reader taskID)

def publishTaskToRegion (cmd action channel requestID : String) (payload : Option Payload) (region : String) :
    P (Option Task) := do
  let dup : Bool ← perform (.existsDedupe (buildDedupeKey cmd channel requestID))
  if dup then return none
  let taskID : String ← perform (.generateTaskID cmd channel requestID)
  let now : Nat ← perform .timeNow
  let task := Task.published taskID cmd action channel requestID payload now
  perform (.publishTx (getQueueKey (layoutOf payload) cmd channel region) task)
  return some task

/-- 停止を宛てるポッド。記録に持ち主がなければ、リースの持ち主を使う。 -/
def stopTargetPod (orig : Task) (originalTaskID : String) : P String := do
  let podID := trimSpace orig.podID
  if podID ≠ "" then return podID
  let holder : Option String ← perform (.getLease .publishStop originalTaskID)
  match holder with
  | some h => return trimSpace h
  | none => return ""

def publishStopTaskFor (originalTaskID requestID region : String) : P (Option Task) := do
  let found : Option Task ← perform (.getTask .publishStop originalTaskID)
  match found with
  | none => return none
  | some orig =>
      let targetPodID ← stopTargetPod orig originalTaskID
      let queueKey :=
        if targetPodID ≠ "" then stopQueueKey targetPodID
        else getQueueKey (layoutOf orig.payload) orig.cmd orig.channel region
      let targetWorkerID := if targetPodID = "" then -1 else orig.workerID
      let dup : Bool ← perform (.existsDedupe (buildDedupeKey orig.cmd orig.channel requestID))
      if dup then return none
      let stopID : String ← perform (.generateTaskID orig.cmd orig.channel requestID)
      let now : Nat ← perform .timeNow
      let stopTask := Task.publishedStop stopID requestID originalTaskID targetPodID targetWorkerID orig now
      perform (.publishTx queueKey stopTask)
      return some stopTask

def claimTaskWithLease (taskID podID : String) : P (Option Task) := do
  let found : Option Task ← perform (.getTask (.claim podID) taskID)
  match found with
  | none => return none
  | some task =>
      let now : Nat ← perform .timeNow
      perform (.claimTx podID taskID now task)
      return some (task.claimed podID now)

def updateTaskWorker (taskID : String) (workerID : Int) : P Bool := do
  let found : Option Task ← perform (.getTask .worker taskID)
  match found with
  | none => return false
  | some task =>
      perform (.setWorker taskID workerID task)
      return true

def updateTaskResult (taskID : String) (state : TaskState) (message : String) : P Bool := do
  let found : Option Task ← perform (.getTask (.result state) taskID)
  match found with
  | none => return false
  | some task =>
      let now : Nat ← perform .timeNow
      perform (.setResult taskID state message now task)
      if state.isTerminal then
        perform (.delDedupe taskID task.dedupeKey)
      return true

def renewLease (taskID podID : String) : P Bool := do
  let holder : Option String ← perform (.getLease (.renew podID) taskID)
  if holder ≠ some podID then return false
  let found : Option Task ← perform (.getTask (.renew podID) taskID)
  match found with
  | none => return false
  | some task =>
      let now : Nat ← perform .timeNow
      perform (.renewTx podID taskID now task)
      return true

def checkAndRecoverTask (taskID processingQueue : String) : P Unit := do
  let holder : Option String ← perform (.getLease .recover taskID)
  if holder.isSome then return ()
  let found : Option Task ← perform (.getTask .recover taskID)
  match found with
  | none => perform (.lrem processingQueue taskID)
  | some task =>
      if task.isTerminal then perform (.lrem processingQueue taskID)
      else
        let now : Nat ← perform .timeNow
        perform (.recoverTx processingQueue taskID now task)

def cleanupExpiredLeases : P Unit := do
  let queues : List String ← perform (.keys "egress:processing:*")
  Prog.forEach (fun queue => do
    let taskIDs : List String ← perform (.lrange queue)
    Prog.forEach (fun taskID => checkAndRecoverTask taskID queue) taskIDs) queues

/-- 待ち始めの時刻がない古い記録では、作成の時刻から数える。 -/
def Task.enqueuedTime (t : Task) : Nat := t.enqueuedAt.getD t.createdAt

def checkAndTimeoutEnqueuedTask (taskID queueName : String) : P Unit := do
  let watched : Nat × Nat ← perform (.watch taskID queueName)
  let found : Option Task ← perform (.getTask .aged taskID)
  match found with
  | none => perform (.lrem queueName taskID)
  | some task =>
      if task.state ≠ .enqueued then return ()
      let now : Nat ← perform .timeNow
      let taskAge := now - task.enqueuedTime
      if taskAge ≤ taskTimeout then return ()
      let position : Option Nat ← perform (.lpos queueName taskID)
      match position with
      | none => return ()
      | some _ =>
          let _ : Bool ← perform (.timeoutTx taskID queueName watched taskAge task)
          return ()

def agedQueuePattern : String := "egress:*:channel:*"

def cleanupAgedTasks : P Unit := do
  let queues : List String ← perform (.keys agedQueuePattern)
  Prog.forEach (fun queue => do
    let taskIDs : List String ← perform (.lrange queue)
    Prog.forEach (fun taskID => checkAndTimeoutEnqueuedTask taskID queue) taskIDs) queues

end RtcEgress.Queue
