import Mathlib.Algebra.Group.Int.Defs
import Mathlib.Algebra.Group.Nat.Defs
import RtcEgress.Lib.Assoc
import RtcEgress.Lib.System
import RtcEgress.Queue.Task

/-!
# 状態の通知

`pkg/webhook/notifier.go` を写す。購読、再送、まとめ送りの各 goroutine と、送るたびに作られる goroutine は、一歩ずつ進む。
Redis への一回の要求、ロックの取得、一回の HTTP の要求が、それぞれ一歩である。Redis は応じ、HTTP の結果は外から与える。
時刻と期間はナノ秒の整数である。
-/

namespace RtcEgress.Webhook

open RtcEgress.Lib
open RtcEgress.Queue (Payload second)

/-- `queue.Task` のうち、通知が読む項目。状態は任意の文字列である。 -/
structure Task where
  id : String
  requestID : String := ""
  cmd : String := ""
  action : String := ""
  channel : String := ""
  state : String
  message : String := ""
  workerID : Int := 0
  payload : Option Payload := none
  createdAt : Nat := 0
  processedAt : Option Nat := none
  completedAt : Option Nat := none
  retryCount : Int := 0

structure WebhookPayload where
  taskID : String
  requestID : String
  cmd : String
  action : String
  channel : String
  state : String
  message : String
  workerID : Int
  payload : Option Payload
  createdAt : Nat
  processedAt : Option Nat
  completedAt : Option Nat
  retryCount : Int
  timestamp : Nat

structure WebhookConfig where
  maxRetries : Int := 0
  baseRetryInterval : Int := 0
  maxRetryInterval : Int := 0
  notifyStates : List String := []
  includePayload : Bool := false
  batchSize : Int := 0
  batchTimeout : Int := 0
  deliveredTTL : Int := 0

/-- `DefaultWebhookConfig`。 -/
def defaultWebhookConfig : WebhookConfig where
  maxRetries := 5
  baseRetryInterval := 15 * second
  maxRetryInterval := 5 * 60 * second
  notifyStates := ["PROCESSING", "STOPPED", "FAILED", "TIMEOUT"]
  includePayload := false
  batchSize := 0
  batchTimeout := 5 * second
  deliveredTTL := 48 * 60 * 60 * second

/-- `NewWebhookNotifier` が補う既定の値。 -/
def WebhookConfig.withDefaults (config : WebhookConfig) : WebhookConfig :=
  { config with
    maxRetries := if config.maxRetries = 0 then 5 else config.maxRetries
    baseRetryInterval := if config.baseRetryInterval = 0 then 15 * second else config.baseRetryInterval
    maxRetryInterval := if config.maxRetryInterval = 0 then 5 * 60 * second else config.maxRetryInterval
    notifyStates :=
      if config.notifyStates.isEmpty then ["PROCESSING", "STOPPED", "FAILED", "TIMEOUT"] else config.notifyStates
    deliveredTTL := if config.deliveredTTL = 0 then 48 * 60 * 60 * second else config.deliveredTTL }

/-- 再送の状態。`nextRetryTime` の `none` は零の時刻である。 -/
structure NotificationState where
  lastState : String := ""
  retryCount : Nat := 0
  nextRetryTime : Option Int := none

/-! ## 補助の関数 -/

def shouldNotifyState (config : WebhookConfig) (state : String) : Bool := config.notifyStates.any (state == ·)

def isTerminalState (state : String) : Bool := state == "STOPPED" || state == "FAILED" || state == "TIMEOUT"

def isValidTaskKey (key : List Char) : Bool :=
  let taskPrefix := "egress:task:".toList
  decide (taskPrefix.length < key.length) && taskPrefix.isPrefixOf key

def extractTaskIDFromKey (key : List Char) : String := String.ofList (key.drop "egress:task:".length)

def deliveredKey (taskID state : String) : String := "egress:notif:delivered:" ++ taskID ++ ":" ++ state

/-- `time.Duration` は 64 ビットで、積は桁あふれする。`retryCount` は 1 以上である。 -/
def calculateBackoff (config : WebhookConfig) (retryCount : Nat) : Int :=
  let backoff := (config.baseRetryInterval * 2 ^ (retryCount - 1)).bmod (2 ^ 64)
  if backoff > config.maxRetryInterval then config.maxRetryInterval else backoff

/-- 二つの経路が記録から作る通知。 -/
def newPayload (config : WebhookConfig) (now : Nat) (task : Task) : WebhookPayload where
  taskID := task.id
  requestID := task.requestID
  cmd := task.cmd
  action := task.action
  channel := task.channel
  state := task.state
  message := task.message
  workerID := task.workerID
  payload := if config.includePayload then task.payload else none
  createdAt := task.createdAt
  processedAt := task.processedAt
  completedAt := task.completedAt
  retryCount := task.retryCount
  timestamp := now

namespace NotificationState

/-- `sendNotification` と `sendBatchNotification` が送信の後に行う更新。 -/
def settle (config : WebhookConfig) (now : Nat) (state : String) (ok : Bool) (n : NotificationState) : NotificationState :=
  if ok then { lastState := state, retryCount := 0, nextRetryTime := none }
  else if (n.retryCount + 1 : Int) ≤ config.maxRetries then
    { n with retryCount := n.retryCount + 1, nextRetryTime := some (now + calculateBackoff config (n.retryCount + 1)) }
  else { n with retryCount := 0 }

/-- `time.Now().Before(notifState.NextRetryTime)` を伴う待ち。 -/
def inBackoff (now : Nat) (n : NotificationState) : Bool :=
  decide (0 < n.retryCount) && n.nextRetryTime.any ((now : Int) < ·)

/-- `processRetries` が送り直す。 -/
def due (config : WebhookConfig) (now : Nat) (n : NotificationState) : Bool :=
  decide (0 < n.retryCount) && decide ((n.retryCount : Int) ≤ config.maxRetries) && n.nextRetryTime.all (· < (now : Int))

end NotificationState

/-! ## 状態 -/

/-- キー空間の通知。 -/
structure Message where
  channel : String
  payload : String

/-- 一回の `sendNotification` か `sendBatchNotification` の段階。前者は項目 `entry` を持つ。 -/
inductive Call where
  | requesting (entry : Option String) (payloads : List WebhookPayload)
  /-- まとめ送りの後で `notifMutex` を待つ。 -/
  | waiting (payloads : List WebhookPayload) (success : Bool)
  | settling (entry : Option String) (payloads : List WebhookPayload) (success : Bool)
  | marking (entry : Option String) (payload : WebhookPayload) (payloads : List WebhookPayload)
  | done

/-- 購読の goroutine。`checking` からは `notifMutex` を持つ。 -/
inductive Subscriber where
  | idle
  | fetching (taskID : String)
  | waiting (task : Task)
  | checking (task : Task)
  | deciding (task : Task)
  | sending (call : Call)

/-- 再送の goroutine。`idle` の他では `notifMutex` を持つ。 -/
inductive Retrier where
  | idle
  | looking (now : Nat) (taskIDs : List String)
  | fetching (taskID : String) (now : Nat) (taskIDs : List String)

/-- Redis と通知のプロセス。 -/
structure WebhookNotifier where
  clock : Nat := 0
  /-- `egress:task:<id>` の記録。`none` は復号できない値である。 -/
  tasks : AList fun _ : String => Option Task := ∅
  /-- 送ったことを示すキーと、その期限。 -/
  delivered : AList fun _ : String => Option Int := ∅
  events : List Message := []
  notifications : AList fun _ : String => NotificationState := ∅
  notifMutex : Bool := false
  batchQueue : List WebhookPayload := []
  lastBatchFlush : Nat := 0
  subscriber : Subscriber := .idle
  retrier : Retrier := .idle
  /-- 背後の goroutine。 -/
  background : List Call := []
  stopping : Bool := false
  batchStopped : Bool := false
  /-- 行った HTTP の要求と、2xx の応答を得たか。 -/
  requests : List (List WebhookPayload × Bool) := []

namespace WebhookNotifier

variable (config : WebhookConfig)

def getTaskFromRedis (s : WebhookNotifier) (taskID : String) : Option Task := (s.tasks.lookup taskID).join

def hasDelivered (s : WebhookNotifier) (taskID state : String) : Bool :=
  match s.delivered.lookup (deliveredKey taskID state) with
  | none => false
  | some expiry => expiry.all ((s.clock : Int) ≤ ·)

/-- 期限は、正のときに限って付く。 -/
def markDelivered (s : WebhookNotifier) (taskID state : String) : WebhookNotifier :=
  let expiry := if 0 < config.deliveredTTL then some (s.clock + config.deliveredTTL) else none
  { s with delivered := s.delivered.insert (deliveredKey taskID state) expiry }

/-! ## 送信 -/

/-- `sendNotification` と `sendBatchNotification` の一歩。前者は呼び出した側の項目を、後者は通知ごとの項目を更新する。 -/
def send (ok : Bool) (s : WebhookNotifier) : Call → Call × WebhookNotifier
  | .requesting entry payloads =>
      (if entry.isSome then .settling entry payloads ok else .waiting payloads ok,
        { s with requests := (payloads, ok) :: s.requests })
  | .waiting payloads success =>
      if s.notifMutex then (.waiting payloads success, s)
      else (.settling none payloads success, { s with notifMutex := true })
  | .settling entry [] _ => (.done, if entry.isSome then s else { s with notifMutex := false })
  | .settling entry (payload :: payloads) success =>
      let taskID := entry.getD payload.taskID
      match s.notifications.lookup taskID with
      | none => (.settling entry payloads success, s)
      | some n =>
          (if success && isTerminalState payload.state then .marking entry payload payloads
            else .settling entry payloads success,
          { s with notifications := s.notifications.insert taskID (n.settle config s.clock payload.state success) })
  | .marking entry payload payloads => (.settling entry payloads true, s.markDelivered config payload.taskID payload.state)
  | .done => (.done, s)

def flushBatch (s : WebhookNotifier) : WebhookNotifier :=
  if s.batchQueue.isEmpty then s
  else
    { s with
      batchQueue := [], lastBatchFlush := s.clock, background := s.background ++ [.requesting none s.batchQueue] }

def addToBatch (payload : WebhookPayload) (s : WebhookNotifier) : WebhookNotifier :=
  let s := { s with batchQueue := s.batchQueue ++ [payload] }
  if config.batchSize ≤ s.batchQueue.length then s.flushBatch else s

/-! ## 購読 -/

/-- `handleRedisKeyspaceNotification` が、通知から取り出すタスク。 -/
def handleRedisKeyspaceNotification (msg : Message) : Subscriber :=
  if msg.payload ≠ "set" then .idle
  else
    let taskKey := msg.channel.toList.drop "__keyspace@0__:".length
    if isValidTaskKey taskKey then .fetching (extractTaskIDFromKey taskKey) else .idle

/-- `notifMutex` を放して次の通知を待つ。 -/
def unlockSubscriber (s : WebhookNotifier) : WebhookNotifier := { s with notifMutex := false, subscriber := .idle }

/-- 送ったものではない。 -/
def passes (s : WebhookNotifier) (task : Task) : Bool :=
  if isTerminalState task.state then !s.hasDelivered task.id task.state
  else
    let n := (s.notifications.lookup task.id).getD {}
    !(n.lastState == task.state && n.retryCount == 0)

/-- `startRedisSubscriber` とそこから呼ばれる `processTaskNotification` の一歩。 -/
def stepSubscriber (ok : Bool) (s : WebhookNotifier) : WebhookNotifier :=
  match s.subscriber with
  | .idle =>
      if s.stopping then s
      else
        match s.events with
        | [] => s
        | msg :: events => { s with events, subscriber := handleRedisKeyspaceNotification msg }
  | .fetching taskID =>
      match s.getTaskFromRedis taskID with
      | none => { s with subscriber := .idle }
      | some task => { s with subscriber := if shouldNotifyState config task.state then .waiting task else .idle }
  | .waiting task =>
      if s.notifMutex then s
      else
        let n := (s.notifications.lookup task.id).getD {}
        { s with notifMutex := true, notifications := s.notifications.insert task.id n, subscriber := .checking task }
  | .checking task => if s.passes task then { s with subscriber := .deciding task } else s.unlockSubscriber
  | .deciding task =>
      if ((s.notifications.lookup task.id).getD {}).inBackoff s.clock then s.unlockSubscriber
      else
        let payload := newPayload config s.clock task
        if 0 < config.batchSize then (s.addToBatch config payload).unlockSubscriber
        else { s with subscriber := .sending (.requesting (some task.id) [payload]) }
  | .sending .done => s.unlockSubscriber
  | .sending call =>
      let (call, s) := s.send config ok call
      { s with subscriber := .sending call }

/-! ## 再送 -/

/-- `processRetries` の始まり。`map` を巡る順は決まっていない。 -/
def startRetries (taskIDs : List String) (s : WebhookNotifier) : WebhookNotifier :=
  match s.retrier with
  | .idle =>
      if s.notifMutex then s
      else if taskIDs.isPerm s.notifications.keys then { s with notifMutex := true, retrier := .looking s.clock taskIDs }
      else s
  | _ => s

def stepRetrier (s : WebhookNotifier) : WebhookNotifier :=
  match s.retrier with
  | .idle => s
  | .looking _ [] => { s with notifMutex := false, retrier := .idle }
  | .looking now (taskID :: taskIDs) =>
      if ((s.notifications.lookup taskID).getD {}).due config now then { s with retrier := .fetching taskID now taskIDs }
      else { s with retrier := .looking now taskIDs }
  | .fetching taskID now taskIDs =>
      match s.getTaskFromRedis taskID with
      | none => { s with retrier := .looking now taskIDs }
      | some task =>
          { s with
            retrier := .looking now taskIDs
            background := s.background ++ [.requesting (some taskID) [newPayload config s.clock task]] }

/-! ## まとめ送りと背後の送信 -/

/-- `startBatchProcessor` は、まとめ送りのときに限って動く。 -/
def batchRuns (s : WebhookNotifier) : Bool := decide (0 < config.batchSize) && !s.batchStopped

def batchTick (s : WebhookNotifier) : WebhookNotifier :=
  if s.batchRuns config && decide (config.batchTimeout ≤ (s.clock : Int) - s.lastBatchFlush) then s.flushBatch else s

/-- 止めるときは、残りを送って終わる。 -/
def batchStop (s : WebhookNotifier) : WebhookNotifier :=
  if s.batchRuns config && s.stopping then { s.flushBatch with batchStopped := true } else s

def stepBackground (i : Nat) (ok : Bool) (s : WebhookNotifier) : WebhookNotifier :=
  match s.background[i]? with
  | none => s
  | some call =>
      let (call, s) := s.send config ok call
      { s with background := s.background.set i call }

/-! ## 外からの操作 -/

/-- 記録の `SET`。購読する接続に通知が届く。 -/
def setTask (id : String) (record : Option Task) (s : WebhookNotifier) : WebhookNotifier :=
  { s with
    tasks := s.tasks.insert id record
    events := s.events ++ [⟨"__keyspace@0__:egress:task:" ++ id, "set"⟩] }

/-- プロセスを終えて、新しく始める。Redis の値は残る。 -/
def restart (s : WebhookNotifier) : WebhookNotifier :=
  { clock := s.clock, tasks := s.tasks, delivered := s.delivered, lastBatchFlush := s.clock, requests := s.requests }

end WebhookNotifier

inductive Op where
  | set (id : String) (record : Option Task)
  | remove (id : String)
  /-- その他の通知が届く。 -/
  | publish (msg : Message)
  | tick (d : Nat)
  | stop
  | restart
  | subscriber (ok : Bool)
  | startRetries (taskIDs : List String)
  | retrier
  | batchTick
  | batchStop
  | background (i : Nat) (ok : Bool)

/-- 一つの操作。`config` は既定の値を補ったものである。 -/
def WebhookNotifier.step (config : WebhookConfig) : Op → WebhookNotifier → WebhookNotifier
  | .set id record, s => s.setTask id record
  | .remove id, s => { s with tasks := s.tasks.erase id }
  | .publish msg, s => { s with events := s.events ++ [msg] }
  | .tick d, s => { s with clock := s.clock + d }
  | .stop, s => { s with stopping := true }
  | .restart, s => s.restart
  | .subscriber ok, s => s.stepSubscriber config ok
  | .startRetries taskIDs, s => s.startRetries taskIDs
  | .retrier, s => s.stepRetrier config
  | .batchTick, s => s.batchTick config
  | .batchStop, s => s.batchStop config
  | .background i ok, s => s.stepBackground config i ok

/-- `config` で作った通知。 -/
def notifier (config : WebhookConfig) : System Op := ⟨WebhookNotifier, WebhookNotifier.step config.withDefaults⟩

end RtcEgress.Webhook
