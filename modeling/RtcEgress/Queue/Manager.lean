import RtcEgress.Queue.Protocol
import RtcEgress.Queue.RedisQueue

/-!
# `pkg/egress` の関数のうち、Redis の記録を扱うもの

ポッドがタスクを取り出し、始め、止め、完了を記録する道筋を写す。ワーカーの表の上の処理の結果は、命令の
応答として受け取る。
-/

namespace RtcEgress.Queue

open RtcEgress.Lib

/-- ポッド。`maxRetries` はウェブの録画サービスへの要求の試行の回数で、設定が正でなければ三回になる。 -/
structure Pod where
  id : String
  region : String
  mode : WorkerManagerMode
  numWorkers : Nat
  maxRetries : Nat := 3
  maxRetries_pos : 0 < maxRetries := by decide

/-- 地域を持たず、ワーカーが一つのポッド。 -/
def nativePod (id : String) : Pod := { id, region := "", mode := .modeNative, numWorkers := 1 }

/-! ## キューの選択 -/

def isValidQueueKey : List String → Bool
  | [a, b, _] => a == "egress" && (b == "stop" || b ∈ validCmds)
  | [a, _, c, _] => a == "egress" && c ∈ validCmds
  | [a, _, c, d, _] => a == "egress" && c == "web" && d ∈ validCmds
  | _ => false

/-- キーの名前が示す地域。 -/
def taskRegion (keyParts : List String) : Option String :=
  match keyParts with
  | _ :: r :: _ :: _ :: _ => if r ∈ ["record", "snapshot", "rtmp", "whip", "web", "cmd"] then none else some r
  | _ => none

/-- 各パターンに合うキーを、パターンの順に集める。 -/
def gatherKeys : List String → P (List String)
  | [] => return []
  | pattern :: patterns => do
      let keys : List String ← perform (.keys pattern)
      let rest ← gatherKeys patterns
      return keys ++ rest

/-- 停止のキュー、同じ地域のキュー、その他のキューの順に並べ、重複を除く。 -/
def getPrioritizedQueues (podRegion : String) (patterns : List String) : P (List String) := do
  let keys := (← gatherKeys patterns).filter fun key => isValidQueueKey (splitColon key)
  let isStop := fun key => (splitColon key)[1]? == some "stop"
  let isLocal := fun key => taskRegion (splitColon key) == some podRegion
  let stopQueues := keys.filter isStop
  let regionalQueues := keys.filter fun key => !isStop key && isLocal key
  let globalQueues := keys.filter fun key => !isStop key && !isLocal key
  return (stopQueues ++ regionalQueues ++ globalQueues).eraseDups

/-! ## 取り出し -/

/-- 停止の記録の宛先を、もとのタスクの今の持ち主に合わせる。宛先と、書き戻すなら新しい値を返す。 -/
def retargetStop (task : Task) : P (String × Option (String × Int)) := do
  let targetPodID := trimSpace task.podID
  if task.action ≠ "stop" then return (targetPodID, none)
  match task.payloadStr? "task_id" with
  | none => return (targetPodID, none)
  | some originalID =>
      if originalID = "" then return (targetPodID, none)
      let found : Option Task ← perform (.getTask .deferOriginal originalID)
      match found with
      | some orig =>
          let newPodID := trimSpace orig.podID
          let podID := if newPodID ≠ targetPodID then newPodID else task.podID
          if newPodID ≠ targetPodID ∨ orig.workerID ≠ task.workerID then
            return (newPodID, some (podID, orig.workerID))
          else return (targetPodID, none)
      | none =>
          if targetPodID ≠ "" ∨ task.workerID ≠ -1 then return ("", some ("", -1))
          else return (targetPodID, none)

/-- 別のポッドに宛てたタスクを、そのポッドの停止のキューへ回す。回したかどうかを返す。 -/
def deferTaskForAnotherPod (podID taskID : String) : P Bool := do
  let found : Option Task ← perform (.getTask .deferTask taskID)
  match found with
  | none => return false
  | some task =>
      let (targetPodID, update) ← retargetStop task
      match update with
      | some (newPodID, newWorkerID) => perform (.setTarget podID taskID newPodID newWorkerID task)
      | none => pure ()
      if targetPodID = "" ∨ targetPodID = podID then return false
      perform (.deferTx podID taskID targetPodID)
      return true

/-- キューを順に試し、取り出せたタスクを一つ確保する。確保できなければ元のキューへ戻して終わる。 -/
def tryQueues (podID : String) : List String → P (Option Task)
  | [] => return none
  | queue :: queues => do
      let popped : Option String ← perform (.brPopLPush podID queue)
      match popped with
      | none => tryQueues podID queues
      | some taskID =>
          let skip ← deferTaskForAnotherPod podID taskID
          if skip then tryQueues podID queues
          else
            let claimed ← claimTaskWithLease taskID podID
            match claimed with
            | none =>
                perform (.lrem (buildProcessingQueueKey podID) taskID)
                perform (.lpush queue taskID)
                return none
            | some task => return some { task with sourceQueue := queue }

def fetchTaskFromRedis (podID region : String) (patterns : List String) : P (Option Task) := do
  tryQueues podID (← getPrioritizedQueues region patterns)

/-! ## ウェブの録画の代理 -/

/-- 成功の応答を得るまで、決まった回数まで要求を送る。`lastErr` は直前の失敗の文である。 -/
def makeHTTPRequest (podID : String) (request : WebRecorderRequest) (lastErr : String) :
    Nat → P (Except String WebRecorderResponse)
  | 0 => return .error ("all HTTP request attempts failed: " ++ lastErr)
  | attempts + 1 => do
      let response : Except String WebRecorderResponse ← perform (.httpPost podID request)
      match response with
      | .ok r => return .ok r
      | .error e => makeHTTPRequest podID request e attempts

/-- 応答の状態が `accepted` のいずれでもなければエラーにする。 -/
def checkedRequest (pod : Pod) (request : WebRecorderRequest) (accepted : List String) (what : String) :
    P (Option String) := do
  let response ← makeHTTPRequest pod.id request "<nil>" pod.maxRetries
  match response with
  | .error e => return some ("failed to " ++ what ++ " web recording: " ++ e)
  | .ok r =>
      if r.status ∈ accepted then return none
      else return some ("web recorder " ++ what ++ " failed: " ++ r.error)

def proxyStartTask (pod : Pod) (task : Task) : P (Option String) :=
  match task.payload with
  | none => return some "web recorder tasks require payload with 'url'"
  | some payload =>
      match payload.str? "url" with
      | none => return some "web recorder tasks require a 'url' field in payload"
      | some url =>
          if url = "" then return some "web recorder tasks require a 'url' field in payload"
          else
            let options := ("url", Json.str url) :: payload.filter (·.1 ≠ "url")
            checkedRequest pod ⟨task.requestID, .start, task.id, url, options⟩ ["success", "started"] "start"

def proxyStopTask (pod : Pod) (task : Task) : P (Option String) :=
  match task.payloadStr? "task_id" with
  | none => return some ("stop task " ++ task.id ++ " missing original task_id in payload")
  | some originalTaskID =>
      if originalTaskID = "" then
        return some ("stop task " ++ task.id ++ " missing original task_id in payload")
      else
        let request : WebRecorderRequest :=
          { requestID := task.requestID, action := .stop, taskID := originalTaskID }
        checkedRequest pod request ["success", "stopped"] "stop"

def proxyGetTaskStatus (pod : Pod) (task : Task) : P (Option String) := do
  let request : WebRecorderRequest := { requestID := task.requestID, action := .status, taskID := task.id }
  let response ← makeHTTPRequest pod.id request "<nil>" pod.maxRetries
  match response with
  | .error e => return some ("failed to get web recording status: " ++ e)
  | .ok r => if r.status = "error" then return some ("web recorder status failed: " ++ r.error) else return none

/-- 代理の `ProcessRedisTask`。 -/
def proxyProcessRedisTask (pod : Pod) (task : Task) : P (Option String) := do
  let invalid ← validateRedisTask task
  match invalid with
  | some e => return some ("validation failed: " ++ e)
  | none =>
      if task.action = "start" then proxyStartTask pod task
      else if task.action = "stop" then proxyStopTask pod task
      else if task.action = "status" then proxyGetTaskStatus pod task
      else return some ("unknown action: " ++ task.action)

/-! ## 開始 -/

/-- 取り出したキューの名前がウェブの経路を示すか。 -/
def isWebQueue (sourceQueue : String) : Bool :=
  let parts := splitColon sourceQueue
  sourceQueue ≠ "" && 3 ≤ parts.length && parts[0]? == some "egress" &&
    (parts[1]? == some "web" || (4 ≤ parts.length && parts[2]? == some "web"))

/-- 記録のレイアウトがウェブの録画を示すか。 -/
def Task.isFreestyle (t : Task) : Bool :=
  match t.payloadStr? "layout" with
  | some s => equalFold s "freestyle"
  | none => false

def isWebTask (mode : WorkerManagerMode) (task : Task) : Bool :=
  isWebQueue task.sourceQueue || task.isFreestyle || mode == .modeWeb

def startNativeRecorderTask (pod : Pod) (task : Task) : P (Option String) := do
  let assigned : Except String Nat ← perform (.startNative pod.id task)
  match assigned with
  | .error e => return some e
  | .ok workerID =>
      let _ ← updateTaskWorker task.id workerID
      return none

def startWebRecorderTask (pod : Pod) (task : Task) : P (Option String) := do
  perform (.createProxy pod.id)
  let err ← proxyProcessRedisTask pod task
  match err with
  | some e => return some ("failed to start web recording task: " ++ e)
  | none => return none

def startTask (pod : Pod) (task : Task) : P (Option String) :=
  if isWebTask pod.mode task then startWebRecorderTask pod task else startNativeRecorderTask pod task

/-- 状態の問い合わせの処理（`getTaskStatus`）。 -/
def statusTask (pod : Pod) (task : Task) : P (Option String) := do
  if isWebTask pod.mode task then
    if pod.mode ≠ .modeWeb then return some "native-only manager cannot handle web task status"
    let ready : Bool ← perform (.hasProxy pod.id)
    if ready then proxyProcessRedisTask pod task
    else return some ("web recorder proxy not available for task " ++ task.id)
  else
    if pod.mode ≠ .modeNative then return some "web-only manager cannot handle native task status"
    perform (.nativeStatus pod.id task)

/-! ## 停止 -/

/-- 停止の対象を調べ、もとのタスクを `STOPPED` にする。停止の記録に書く文を返す。 -/
def stopOriginal (pod : Pod) (task : Task) (originalTaskID : String) : P String := do
  let _ ← updateTaskResult originalTaskID .stopping "Stop in progress"
  let found ← getTaskStatus (.stopLookup pod.id pod.mode) originalTaskID
  match found with
  | none =>
      let message := "Stop completed (task already finished or not found)"
      let _ ← updateTaskResult originalTaskID .stopped message
      return message
  | some originalTask =>
      if trimSpace originalTask.podID = "" ∨ originalTask.workerID < 0 then
        let message := "Stop completed (task idle)"
        let _ ← updateTaskResult originalTaskID .stopped message
        return message
      else if isWebTask pod.mode originalTask then
        let ready : Bool ← perform (.hasProxy pod.id)
        if ready then let _ ← proxyProcessRedisTask pod task
        let message := "Stop completed via web recorder"
        let _ ← updateTaskResult originalTaskID .stopped message
        return message
      else
        let target : Option Nat ← perform (.findWorker pod.id task originalTask)
        match target with
        | none =>
            let message := "Stop completed (task already completed or not found)"
            let _ ← updateTaskResult originalTaskID .stopped message
            return message
        | some workerID =>
            let stopped : Bool ← perform (.stopOnWorker pod.id workerID originalTaskID task)
            let message := if stopped then "Stop completed" else "Stop completed after force kill"
            let _ ← updateTaskResult originalTaskID .stopped message
            return message

/-- 停止の記録そのものは、最後に必ず `STOPPED` にする。 -/
def stopTask (pod : Pod) (task : Task) : P Unit := do
  match task.payloadStr? "task_id" with
  | none => return ()
  | some originalTaskID =>
      if originalTaskID = "" then return ()
      let message ← stopOriginal pod task originalTaskID
      let _ ← updateTaskResult task.id .stopped (message ++ "/stop-task")
      return ()

/-! ## 取り出したタスクの処理 -/

/-- 開始または問い合わせの結果を記録する。 -/
def recordOutcome (taskID : String) : Option String → P Unit
  | some e => do let _ ← updateTaskResult taskID .failed e
  | none => do let _ ← updateTaskResult taskID .processing ""

def processRedisTask (pod : Pod) (task : Task) : P Unit := do
  let invalid ← validateRedisTask task
  match invalid with
  | some e => do let _ ← updateTaskResult task.id .failed ("Validation failed: " ++ e)
  | none =>
      if task.action = "start" then recordOutcome task.id (← startTask pod task)
      else if task.action = "stop" then stopTask pod task
      else if task.action = "status" then recordOutcome task.id (← statusTask pod task)
      else recordOutcome task.id (some ("unknown action: " ++ task.action))

/-- `startRedisSubscriber` の一巡。 -/
def subscribeOnce (pod : Pod) (patterns : List String) : P Unit := do
  let fetched ← fetchTaskFromRedis pod.id pod.region patterns
  match fetched with
  | none => return ()
  | some task => processRedisTask pod task

/-! ## 完了と失敗 -/

structure UDSCompletionMessage where
  taskID : String
  status : String
  error : String
  message : String

def deriveCompletionResult (c : UDSCompletionMessage) : TaskState × String :=
  let message := trimSpace c.message
  if c.status ≠ "success" then
    let message := if message = "" then trimSpace c.error else message
    (.failed, if message = "" then "Task failed" else message)
  else (.stopped, if message = "" then "Task completed successfully" else message)

/-- Go の `strings.ToLower` のうち、ASCII の文字になるもの。 -/
def lowerChar (c : Char) : Char :=
  if c.toNat = 0x212A then 'k' else if c.toNat = 0x130 then 'i' else c.toLower

/-- 一つの組は、そこに挙げた語をすべて含む文に当たる。 -/
def unrecoverablePhrases : List (List String) :=
  [["access_token"], ["authentication"], ["unauthorized"], ["permission denied"], ["token", "invalid"],
    ["token", "expired"], ["access_token_expired"], ["invalid token"], ["token expired"],
    ["channel", "join", "failed"], ["rtc", "connect", "failed"], ["invalid", "channel"],
    ["connection_failure"], ["connection_lost"], ["rtc connection", "failed"], ["rtc connection lost"],
    ["banned by server"], ["rejected by server"], ["invalid app id"], ["invalid channel name"],
    ["too many broadcasters"], ["same uid login"],
    ["no space left"], ["disk full"], ["storage", "full"], ["out of disk"], ["insufficient", "space"],
    ["config", "invalid"], ["initialization", "failed"], ["codec", "not supported"],
    ["sdk", "error"], ["agora", "error"], ["sdk error:"], ["task failed due to unrecoverable sdk error"],
    ["failed to create agora service"], ["failed to create media node factory"],
    ["failed to create video mixer"]]

def isUnrecoverableError (errorMsg : String) : Bool :=
  let lower := errorMsg.toList.map lowerChar
  unrecoverablePhrases.any fun phrases => phrases.all fun word => decide (word.toList <:+: lower)

/-- 記録の番号のワーカーが表にあるか。 -/
def hasAssignedWorker (pod : Pod) (task : Task) : P Bool :=
  if task.workerID < 0 ∨ (pod.numWorkers : Int) ≤ task.workerID then return false
  else perform (.workerPresent pod.id task.workerID)

def failTask (pod : Pod) (task : Task) (reason : String) : P Unit := do
  let begun : Bool ← perform (.beginFail pod.id task.id)
  if !begun then return ()
  let assigned ← hasAssignedWorker pod task
  let _ ← updateTaskResult task.id .failed reason
  if !assigned then return ()
  perform (.lremLast (buildProcessingQueueKey pod.id) task.id)
  perform (.delLease task.id)

def recordCompletion (c : UDSCompletionMessage) : P Unit := do
  let (status, message) := deriveCompletionResult c
  let _ ← updateTaskResult c.taskID status message

def handleTaskCompletion (pod : Pod) (c : UDSCompletionMessage) : P Unit := do
  let message := if c.message = "" then c.error else c.message
  if c.status ≠ "success" ∧ isUnrecoverableError message then
    let found ← getTaskStatus .completion c.taskID
    match found with
    | some task => failTask pod task message
    | none => recordCompletion c
  else recordCompletion c

/-! ## 死んだワーカーからの回収 -/

def moveTaskBackToMainQueue (podID taskID : String) : P Unit := do
  let found ← getTaskStatus .moveBack taskID
  match found with
  | none => return ()
  | some task => perform (.moveBackTx podID taskID task)

/-! ## 状態機械 -/

/-- 実行を始められる呼び出し。前半はポッドと API サーバーの実際の入口、後半は個々の関数である。 -/
inductive Call where
  | publish (cmd action channel requestID : String) (payload : Option Payload) (region : String)
  | publishStop (originalTaskID requestID region : String)
  | subscribe (pod : Pod) (patterns : List String)
  | completion (pod : Pod) (message : UDSCompletionMessage)
  | renew (podID taskID : String)
  | moveBack (podID taskID : String)
  | cleanupExpiredLeases
  | cleanupAgedTasks
  | fetch (podID region : String) (patterns : List String)
  | popAndClaim (podID queue : String)
  | claim (podID taskID : String)
  | result (taskID : String) (state : TaskState) (message : String)
  | recover (taskID processingQueue : String)

/-- ポッドと API サーバーの実際の入口。 -/
def Call.isEntry : Call → Bool
  | .publish .. | .publishStop .. | .subscribe .. | .completion .. | .renew .. | .moveBack ..
  | .cleanupExpiredLeases | .cleanupAgedTasks => true
  | _ => false

/-- 取り出しと確保だけを続けて行う。 -/
def popAndClaim (podID queue : String) : P Unit := do
  let popped : Option String ← perform (.brPopLPush podID queue)
  match popped with
  | none => return ()
  | some taskID =>
      let _ ← claimTaskWithLease taskID podID
      return ()

/-- 呼び出しの本体。結果の値は捨てる。 -/
def callBody : Call → P Unit
  | .publish cmd action channel requestID payload region => do
      let _ ← publishTaskToRegion cmd action channel requestID payload region
  | .publishStop originalTaskID requestID region => do
      let _ ← publishStopTaskFor originalTaskID requestID region
  | .subscribe pod patterns => subscribeOnce pod patterns
  | .completion pod message => handleTaskCompletion pod message
  | .renew podID taskID => do let _ ← renewLease taskID podID
  | .moveBack podID taskID => moveTaskBackToMainQueue podID taskID
  | .cleanupExpiredLeases => cleanupExpiredLeases
  | .cleanupAgedTasks => cleanupAgedTasks
  | .fetch podID region patterns => do let _ ← fetchTaskFromRedis podID region patterns
  | .popAndClaim podID queue => popAndClaim podID queue
  | .claim podID taskID => do let _ ← claimTaskWithLease taskID podID
  | .result taskID state message => do let _ ← updateTaskResult taskID state message
  | .recover taskID processingQueue => checkAndRecoverTask taskID processingQueue

/-- 命令を実行する。 -/
def exec (o : Oracle) (c : Cmd) (w : World) : Option (c.Resp × World) :=
  (c.reply o w).map fun r => (r, c.effect w r)

/-- Redis を共有するポッドと API サーバーの全体。 -/
abbrev machine : Machine Cmd Cmd.Resp where
  State := World
  Oracle := Oracle
  exec := exec
  Env := Env
  env := fun e w => e.apply w
  Call := Call
  body := callBody

/-! ## 実行の指定 -/

/-- 実際の入口だけから始まる実行。 -/
def entries : Guard machine := .ofCalls fun k => k.isEntry = true

/-- 呼び出しを始める。 -/
def begin (k : Call) : List (Move machine) := [.spawn k]

/-- スレッド `i` の命令を `n` 個続けて実行する。 -/
def advance (i n : Nat) : List (Move machine) := List.replicate n (.run i {})

/-- スレッド `i` の命令を、状態から決まらない応答 `o` で実行する。 -/
def advanceWith (i : Nat) (o : Oracle) : List (Move machine) := [.run i o]

end RtcEgress.Queue
