import Mathlib.Data.Rat.Defs

/-!
# タスクの記録とキー

`pkg/queue/redis_queue.go` の `Task`、状態の定数、キーの組み立て、および記録を読んで書き戻す各関数が
記録に加える変更を写す。時刻と期間はナノ秒の自然数である。記録は JSON で保存されるが、往復で変わるのは
保存しない `SourceQueue` だけなので、保存した記録をそのまま `Task` で表す。
-/

namespace RtcEgress.Queue

/-! ## 定数 -/

/-- タスクの状態（`TaskState*`）。 -/
inductive TaskState where
  | enqueued | processing | stopping | stopped | failed | timeout
  deriving DecidableEq, Repr

/-- 終わった状態。`STOPPED`、`FAILED`、`TIMEOUT` のいずれかである。 -/
def TaskState.isTerminal : TaskState → Bool
  | .stopped | .failed | .timeout => true
  | _ => false

def second : Nat := 1000000000

def taskTimeout : Nat := 30 * second
def leaseTimeout : Nat := 45 * second

/-! ## 文字列の操作 -/

/-- Go の `unicode.IsSpace`。 -/
def isSpace (c : Char) : Bool :=
  let n := c.toNat
  (9 ≤ n && n ≤ 13) || n == 0x20 || n == 0x85 || n == 0xA0 || n == 0x1680 ||
    (0x2000 ≤ n && n ≤ 0x200A) || n == 0x2028 || n == 0x2029 || n == 0x202F || n == 0x205F || n == 0x3000

/-- Go の `strings.TrimSpace`。 -/
def trimSpace (s : String) : String :=
  String.ofList ((s.toList.dropWhile isSpace).reverse.dropWhile isSpace).reverse

/-- ASCII の文字へ畳み込まれる文字の代表。`ſ` と `K`（ケルビン）も英字へ畳み込まれる。 -/
def foldChar (c : Char) : Char :=
  if c = 'ſ' then 's' else if c.toNat = 0x212A then 'k' else c.toLower

/-- ASCII の文字列との比較に限った Go の `strings.EqualFold`。 -/
def equalFold (s ascii : String) : Bool := s.toList.map foldChar == ascii.toList.map foldChar

/-- Go の `strings.Split(s, ":")`。 -/
def splitColon (s : String) : List String := (s.toList.splitOn ':').map String.ofList

/-- 一秒以上の期間についての Go の `time.Duration.String`。 -/
def durationString (ns : Nat) : String :=
  let frac := (((Nat.toDigits 10 (second + ns % second)).tail.reverse.dropWhile (· == '0')).reverse)
  let secs := toString (ns / second % 60) ++ (if frac.isEmpty then "" else "." ++ String.ofList frac) ++ "s"
  let mins := ns / second / 60
  if mins = 0 then secs
  else if mins < 60 then toString mins ++ "m" ++ secs
  else toString (mins / 60) ++ "h" ++ toString (mins % 60) ++ "m" ++ secs

/-! ## 記録 -/

/-- `interface{}` に復号した JSON の値。 -/
inductive Json where
  | null
  | bool (b : Bool)
  | num (q : Rat)
  | str (s : String)
  | arr (xs : List Json)
  | obj (fields : List (String × Json))

/-- `map[string]interface{}`。`nil` の写像は `Option` の `none` で表す。 -/
abbrev Payload := List (String × Json)

/-- 型の確認を伴う参照 `payload[key].(string)`。 -/
def Payload.str? (p : Payload) (key : String) : Option String :=
  match p.lookup key with
  | some (.str s) => some s
  | _ => none

/-- `Task` の記録。 -/
structure Task where
  id : String
  cmd : String
  action : String
  channel : String
  requestID : String
  payload : Option Payload
  state : TaskState
  createdAt : Nat
  enqueuedAt : Option Nat
  processedAt : Option Nat := none
  completedAt : Option Nat := none
  message : String := ""
  workerID : Int
  leaseExpiry : Option Nat := none
  retryCount : Nat := 0
  podID : String := ""
  sourceQueue : String := ""

namespace Task

def isTerminal (t : Task) : Bool := t.state.isTerminal

/-- `payload[key].(string)`。写像が `nil` なら値はない。 -/
def payloadStr? (t : Task) (key : String) : Option String := t.payload.bind (·.str? key)

end Task

/-! ## キー -/

def buildQueueKey (cmd channel : String) : String := "egress:" ++ cmd ++ ":" ++ channel

def buildProcessingQueueKey (podID : String) : String := "egress:processing:" ++ podID

def buildDedupeKey (cmd channel requestID : String) : String :=
  "egress:dedupe:" ++ cmd ++ ":" ++ channel ++ ":" ++ requestID

/-- ポッドに宛てた停止のキュー `egress:stop:<podID>`。 -/
def stopQueueKey (podID : String) : String := "egress:stop:" ++ podID

def getQueueKey (layout cmd channel region : String) : String :=
  if layout = "freestyle" then
    if region ≠ "" then "egress:" ++ region ++ ":web:" ++ cmd ++ ":" ++ channel
    else "egress:web:" ++ cmd ++ ":" ++ channel
  else
    if region ≠ "" then "egress:" ++ region ++ ":" ++ cmd ++ ":" ++ channel
    else "egress:" ++ cmd ++ ":" ++ channel

/-- 公開の経路を決めるレイアウト。指定がないか空なら `flat` である。 -/
def layoutOf (payload : Option Payload) : String :=
  match payload.bind (·.str? "layout") with
  | some s => if s = "" then "flat" else s
  | none => "flat"

namespace Task

/-- 記録の重複排除のキー。 -/
def dedupeKey (t : Task) : String := buildDedupeKey t.cmd t.channel t.requestID

/-! ## 各関数が記録に加える変更 -/

/-- `PublishTaskToRegion` が作る記録。 -/
def published (id cmd action channel requestID : String) (payload : Option Payload) (now : Nat) : Task where
  id; cmd; action; channel; requestID; payload
  state := .enqueued
  createdAt := now
  enqueuedAt := some now
  workerID := -1

/-- `PublishStopTaskFor` が作る停止の記録。 -/
def publishedStop (stopID requestID originalTaskID targetPodID : String) (targetWorkerID : Int)
    (orig : Task) (now : Nat) : Task where
  id := stopID
  cmd := orig.cmd
  action := "stop"
  channel := orig.channel
  requestID
  payload := some [("task_id", .str originalTaskID)]
  state := .enqueued
  createdAt := now
  enqueuedAt := some now
  podID := targetPodID
  workerID := targetWorkerID

/-- `ClaimTaskWithLease`。 -/
def claimed (podID : String) (now : Nat) (t : Task) : Task :=
  { t with
    state := .processing, processedAt := some now, workerID := -1,
    leaseExpiry := some (now + leaseTimeout), podID }

/-- `UpdateTaskWorker`。 -/
def withWorker (workerID : Int) (t : Task) : Task := { t with workerID }

/-- `UpdateTaskResult`。終わった状態のときだけ完了の時刻を入れる。 -/
def withResult (state : TaskState) (message : String) (now : Nat) (t : Task) : Task :=
  { t with
    state, message, completedAt := if state.isTerminal then some now else t.completedAt }

/-- `RenewLease`。 -/
def renewed (now : Nat) (t : Task) : Task := { t with leaseExpiry := some (now + leaseTimeout) }

/-- `moveTaskBackToMainQueue`。待ち始めの時刻は変えない。 -/
def movedBack (t : Task) : Task :=
  { t with
    state := .enqueued, workerID := -1, leaseExpiry := none, processedAt := none,
    retryCount := t.retryCount + 1, podID := "" }

/-- `checkAndRecoverTask`。待ち始めの時刻も新しくする。 -/
def recovered (now : Nat) (t : Task) : Task := { t.movedBack with enqueuedAt := some now }

/-- `deferTaskForAnotherPod` が停止の記録に書く宛先。 -/
def retargeted (podID : String) (workerID : Int) (t : Task) : Task := { t with podID, workerID }

/-- `checkAndTimeoutEnqueuedTask`。 -/
def timedOut (age : Nat) (t : Task) : Task :=
  { t with
    state := .timeout
    message := "Task timeout: ENQUEUED task exceeded " ++ durationString taskTimeout ++
      " limit (age: " ++ durationString age ++ ")" }

end Task

end RtcEgress.Queue
