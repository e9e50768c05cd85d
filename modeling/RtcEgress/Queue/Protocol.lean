import RtcEgress.Queue.Command

/-!
# `pkg/egress/protocol.go` の検査

取り出したタスクの検査のうち、記録そのものの欄を調べる部分を写す。開始の要求の中身の検査は、命令の応答として
受け取る。文字の数は、Go の `len` に合わせてバイトで数える。
-/

namespace RtcEgress.Queue

open RtcEgress.Lib

def validCmds : List String := ["snapshot", "record", "rtmp", "whip"]

def validLayouts : List String := ["flat", "spotlight", "customized", "freestyle"]

def validActions : List String := ["start", "stop", "status"]

/-- `^[a-f0-9]+$` の一文字。 -/
def isTaskIDChar (c : Char) : Bool := ('a' ≤ c && c ≤ 'f') || c.isDigit

/-- `^[0-9a-zA-Z]{1,32}$` の一文字。 -/
def isRequestIDChar (c : Char) : Bool := c.isDigit || c.isAlpha

/-- `^[a-zA-Z0-9_\-.:]+$` の一文字。 -/
def isChannelChar (c : Char) : Bool := c.isAlpha || c.isDigit || c ∈ ['_', '-', '.', ':']

/-- `ValidateStartTaskRequest` が受け入れるチャンネルの名前。 -/
def isValidChannel (channel : String) : Bool :=
  channel ≠ "" && channel.utf8ByteSize ≤ 64 && channel.toList.all isChannelChar

def validateTaskID (taskID : String) : Option String :=
  if taskID = "" then some "task_id is required"
  else if 64 < taskID.utf8ByteSize then some "task_id must be at most 64 characters"
  else if taskID.toList.all isTaskIDChar then none
  else some "task_id format is invalid"

def validateRequestID (requestID : String) : Option String :=
  if requestID = "" then some "request_id is required"
  else if 32 < requestID.utf8ByteSize then some "request_id must be at most 32 characters"
  else if requestID.toList.all isRequestIDChar then none
  else some "request_id must only contain 0-9, a-z, A-Z"

/-- `ValidateRedisTask` のうち、名前、種類、操作、チャンネル、要求の名前の検査。 -/
def validateTaskFields (task : Task) : Option String :=
  match validateTaskID task.id with
  | some e => some ("invalid task ID: " ++ e)
  | none =>
      if task.cmd ∉ validCmds then some ("task cmd " ++ task.cmd ++ " is not supported")
      else if task.action ∉ validActions then some ("task action " ++ task.action ++ " is not supported")
      else if task.channel ≠ "" ∧ 64 < task.channel.utf8ByteSize then
        some "channel name must be at most 64 characters"
      else if task.channel ≠ "" ∧ !task.channel.toList.all isChannelChar then
        some "channel name contains invalid characters"
      else if task.requestID = "" then none
      else (validateRequestID task.requestID).map ("invalid request ID: " ++ ·)

def validateRedisTask (task : Task) : P (Option String) :=
  match validateTaskFields task with
  | some e => return some e
  | none => do
      if task.action = "start" ∧ task.payload.isSome then
        let invalid : Option String ← perform (.validateStartTaskRequest task)
        return invalid.map ("payload validation failed: " ++ ·)
      else return none

end RtcEgress.Queue
