import RtcEgress.Message.StreamOutput

/-!
# `pkg/egress/protocol.go`

開始の要求の検査、取り出した記録の検査、およびワーカーへの伝言の組み立てを写す。検査は要求の写像の `layout` を
書き換えるので、書き換えた要求を返す。
-/

namespace RtcEgress.Message

open RtcEgress.Lib RtcEgress.Queue

/-! ## 要求 -/

structure TaskRequest where
  requestID : String
  cmd : String
  action : String
  taskID : String := ""
  payload : Option Payload

/-- `payload[key] = value`。 -/
def setKey (payload : Payload) (key : String) (value : Json) : Payload :=
  (key, value) :: payload.filter (·.1 != key)

/-- 使うレイアウト。文字列でないか空なら `flat` である。 -/
def chosenLayout (payload : Payload) : String :=
  match payload.str? "layout" with
  | some s => if s = "" then "flat" else s
  | none => "flat"

/-- 検査が書き換えた写像。 -/
def withLayout (payload : Payload) : Payload := setKey payload "layout" (.str (chosenLayout payload))

/-- 両端の空白を除いた `freestyleCanvasUrl`。 -/
def canvasURL (payload : Payload) : String := trimSpace ((payload.str? "freestyleCanvasUrl").getD "")

def hasPrefix (s start : String) : Bool := start.toList.isPrefixOf s.toList

def validateCanvasURL (canvas : String) : Option String :=
  if canvas = "" then none
  else if 1024 < canvas.utf8ByteSize then some "freestyleCanvasUrl must be less than 1024 characters"
  else if ' ' ∈ canvas.toList then some "freestyleCanvasUrl must not contain whitespaces"
  else if !hasPrefix canvas "http" ∧ !hasPrefix canvas "https" then
    some "freestyleCanvasUrl must start with http or https"
  else none

/-- `null` でない値。 -/
def value? (payload : Payload) (key : String) : Option Json :=
  match payload.lookup key with
  | some .null => none
  | v => v

/-- 検査する利用者の欄。`users` がなければ `uid` である。 -/
def usersField (payload : Payload) : Option Json := (value? payload "users").or (value? payload "uid")

def validateUserCount : Option Json → Option String
  | some (.arr xs) => if 32 < xs.length then some "users must be at most 32" else none
  | _ => none

/-- 欄の値を整数にする。数でなければ零である。 -/
def intOf : Json → Int
  | .num q => truncate q
  | _ => 0

/-- 開始に要る欄。空の文字列は、ないものとみなす。 -/
def requireField (payload : Payload) (field : String) : Option String :=
  match value? payload field with
  | none | some (.str "") => some (field ++ " is required")
  | some _ => none

def requireWorkerUid (payload : Payload) : Option String :=
  match value? payload "workerUid" with
  | none => some "workerUid is required"
  | some (.num q) => if truncate q = 0 then some "workerUid is required and must be non-zero" else none
  | some _ => some "workerUid is required and must be non-zero"

def requireFields (action taskID : String) (payload : Payload) : Option String :=
  if action = "start" then
    ((requireField payload "channel").or (requireField payload "access_token")).or (requireWorkerUid payload)
  else if (action = "stop" ∨ action = "status") ∧ taskID = "" then
    some ("task_id is required for " ++ action ++ " actions")
  else none

/-- `validateTaskRequest` の検査。 -/
def checkTaskRequest (r : TaskRequest) (payload : Payload) : Option String :=
  (validateRequestID r.requestID).or <|
    if r.cmd ∉ validCmds then some (r.cmd ++ " unsupported, only snapshot, record, rtmp, and whip are supported")
    else if r.action ∉ validActions then
      some ("action " ++ r.action ++ " not supported, only start, stop, and status are supported")
    else if chosenLayout payload ∉ validLayouts then
      some ("layout " ++ chosenLayout payload ++
        " not supported, only flat, spotlight, customized, and freestyle are supported")
    else ((validateCanvasURL (canvasURL payload)).or (validateUserCount (usersField payload))).or
      (requireFields r.action r.taskID payload)

def validateTaskRequest (r : TaskRequest) : Except String TaskRequest :=
  let payload := r.payload.getD []
  match checkTaskRequest r payload with
  | some e => .error e
  | none => .ok { r with payload := some (withLayout payload) }

/-! ## 開始の要求 -/

def validateChannel : Option Json → Option String
  | some (.str channel) =>
      if channel = "" then some "channel name cannot be empty"
      else if 64 < channel.utf8ByteSize then some "channel name must be at most 64 characters"
      else if channel.toList.all isChannelChar then none
      else some "channel name contains invalid characters (only a-z, A-Z, 0-9, _, -, ., : allowed)"
  | _ => none

def validateToken : Option Json → Option String
  | some (.str token) =>
      if token = "" then none
      else if token.utf8ByteSize < 10 then some "access_token too short (minimum 10 characters)"
      else if 512 < token.utf8ByteSize then some "access_token too long (maximum 512 characters)"
      else none
  | _ => none

def validateWorkerUid : Option Json → Option String
  | some v => if intOf v < 1 ∨ 999999999 < intOf v then some "workerUid must be between 1 and 999999999" else none
  | none => none

def validateInterval : Option Json → Option String
  | some v =>
      if intOf v < 1000 then some "interval_in_ms must be at least 1000ms (1 second)"
      else if 300000 < intOf v then some "interval_in_ms must be at most 300000ms (5 minutes)"
      else none
  | none => none

/-- `^[a-zA-Z0-9_\-]+$` の一文字。 -/
def isUIDChar (c : Char) : Bool := c.isAlpha || c.isDigit || c ∈ ['_', '-']

/-- 受け入れる利用者の名前。 -/
def isValidUID (uid : String) : Bool := uid ≠ "" && uid.utf8ByteSize ≤ 32 && uid.toList.all isUIDChar

def validateUID (i : Nat) (uid : String) : Option String :=
  let name := "uid[" ++ toString i ++ "]"
  if uid = "" then some (name ++ " cannot be empty")
  else if 32 < uid.utf8ByteSize then some (name ++ " must be at most 32 characters")
  else if uid.toList.all isUIDChar then none
  else some (name ++ " contains invalid characters")

/-- `i` 番目からの名前を順に検査する。 -/
def validateUIDs (i : Nat) : List Json → Option String
  | [] => none
  | .str uid :: xs => (validateUID i uid).or (validateUIDs (i + 1) xs)
  | _ :: _ => some ("uid[" ++ toString i ++ "] must be a string")

/-- 配列のほかの値は、検査しない。 -/
def validateUsers : Option Json → Option String
  | some (.arr xs) => validateUIDs 0 xs
  | _ => none

/-- 配信の設定の検査。 -/
def checkStreamOutput (cmd layout : String) (payload : Payload) : Option String :=
  match readStreamOutput payload with
  | .error e => some e
  | .ok stream => validateStreamOutput cmd layout stream

/-- 配置の検査。 -/
def checkNativeLayout (layout : String) (payload : Payload) : Option String :=
  match readNativeLayout payload with
  | .error e => some e
  | .ok native => validateNativeLayout layout native

/-- `validateTaskRequest` のあとの検査。 -/
def checkStartPayload (cmd action layout : String) (payload : Payload) : Option String :=
  ((if action = "start" then checkStreamOutput cmd layout payload else none).or
    (if action = "start" ∧ layout ≠ "freestyle" then checkNativeLayout layout payload else none)).or <|
  ((validateChannel (payload.lookup "channel")).or (validateToken (payload.lookup "access_token"))).or <|
  ((validateWorkerUid (payload.lookup "workerUid")).or (validateInterval (payload.lookup "interval_in_ms"))).or <|
    validateUsers (usersField payload)

def validateStartTaskRequest (r : TaskRequest) : Except String TaskRequest := do
  let r ← validateTaskRequest r
  let payload := r.payload.getD []
  match checkStartPayload r.cmd r.action (chosenLayout payload) payload with
  | some e => .error e
  | none => return r

/-! ## 取り出した記録 -/

/-- 記録を、要求の形に直す。 -/
def requestOf (task : Task) : TaskRequest where
  requestID := task.requestID
  cmd := task.cmd
  action := task.action
  taskID := task.id
  payload := task.payload

/-- `ValidateRedisTask`。開始の記録では、写像の書き換えが記録にも及ぶ。 -/
def validateRedisTask (task : Task) : Except String Task :=
  match validateTaskFields task with
  | some e => .error e
  | none =>
      if task.action = "start" ∧ task.payload.isSome then
        match validateStartTaskRequest (requestOf task) with
        | .error e => .error ("payload validation failed: " ++ e)
        | .ok r => .ok { task with payload := r.payload }
      else .ok task

/-! ## ワーカーへの伝言 -/

structure UDSMessage where
  taskID : String
  cmd : String
  action : String
  layout : String := "flat"
  freestyleCanvasUrl : String := ""
  uid : List String := []
  channel : String
  accessToken : String := ""
  workerUid : Int := 0
  intervalInMs : Int := 0
  videoDecodeMode : Int := 0
  regions : List LayoutRegion := []
  width : Int := 0
  height : Int := 0
  outputURL : String := ""
  outputToken : String := ""
  outputTimeoutMs : Int := 0
  outputReconnectAttempts : Int := 0
  outputReconnectDelayMs : Int := 0
  deriving DecidableEq

/-- 値が挙げる名前。文字列でない要素は無視する。 -/
def uidOf : Json → List String
  | .arr xs => xs.filterMap fun
      | .str s => some s
      | _ => none
  | .str s => if s = "" then [] else [s]
  | _ => []

/-- 伝言に入れる利用者。`users` だけを読む。 -/
def buildUid (payload : Payload) : List String := ((value? payload "users").map uidOf).getD []

def buildChannel (task : Task) (payload : Payload) : Except String String := do
  let channel ← match payload.lookup "channel" with
    | none => .ok task.channel
    | some (.str channel) => .ok channel
    | some _ => .error "channel must be a string"
  if channel = "" ∧ task.action = "start" then .error "channel is required for start actions" else .ok channel

def buildAccessToken (action : String) (payload : Payload) : Except String String :=
  match payload.lookup "access_token" with
  | some (.str token) => .ok token
  | some _ => .error "access_token must be a string"
  | none => if action = "start" then .error "access_token is required for start actions" else .ok ""

/-- 数の欄を読む。 -/
def readNumber (payload : Payload) (field : String) : Except String (Option Int) :=
  match payload.lookup field with
  | none => .ok none
  | some (.num q) => .ok (some (truncate q))
  | some _ => .error (field ++ " must be a number")

def buildWorkerUid (action : String) (payload : Payload) : Except String Int := do
  match ← readNumber payload "workerUid" with
  | some workerUid => .ok workerUid
  | none => if action = "start" then .error "workerUid is required for start actions" else .ok 0

def buildInterval (action : String) (payload : Payload) : Except String Int := do
  let interval := (← readNumber payload "interval_in_ms").getD 0
  if interval = 0 ∧ action = "start" then .ok 20000 else .ok interval

/-- 数でない値は無視する。 -/
def buildVideoDecodeMode (payload : Payload) : Int :=
  match payload.lookup "videoDecodeMode" with
  | some (.num q) => truncate q
  | _ => -1

/-- 伝言のタスク。`task_id` の欄が優先する。 -/
def buildTaskID (task : Task) (payload : Payload) : String :=
  match payload.str? "task_id" with
  | some id => if id = "" then task.id else id
  | none => task.id

def UDSMessage.streamOutput (m : UDSMessage) : StreamOutputSettings :=
  ⟨m.outputURL, m.outputToken, m.outputTimeoutMs, m.outputReconnectAttempts, m.outputReconnectDelayMs⟩

def UDSMessage.nativeLayout (m : UDSMessage) : NativeLayout := ⟨m.regions, m.width, m.height⟩

/-- 開始の伝言だけの検査。 -/
def validateStartMessage (m : UDSMessage) : Option String :=
  ((validateStreamOutput m.cmd m.layout m.streamOutput).or (validateNativeLayout m.layout m.nativeLayout)).or <|
    if m.channel = "" then some "channel is required"
    else if m.accessToken = "" then some "access_token is required"
    else if m.workerUid = 0 then some "workerUid is required and must be non-zero"
    else none

def validateUDSMessage (m : UDSMessage) : Option String :=
  if m.cmd ∉ validCmds then
    some ("cmd " ++ m.cmd ++ " is not supported, only snapshot, record, rtmp, and whip are supported")
  else if m.action ∉ validActions then
    some ("action " ++ m.action ++ " is not supported, only start, stop, and status are supported")
  else if m.layout ∉ validLayouts then
    some ("layout " ++ m.layout ++ " is not supported, only flat, spotlight, customized, and freestyle are supported")
  else (validateCanvasURL m.freestyleCanvasUrl).or <|
    if 32 < m.uid.length then some "uid count must be at most 32"
    else (if m.action = "start" then validateStartMessage m else none).or <|
      if m.videoDecodeMode < -1 ∨ 2 < m.videoDecodeMode then
        some "videoDecodeMode must be -1 (auto), 0 (passthrough), 1 (ffmpeg), or 2 (sdk)"
      else none

/-- 検査の前の伝言。 -/
def assembleUDSMessage (task : Task) (payload : Payload) : Except String UDSMessage := do
  let channel ← buildChannel task payload
  let accessToken ← buildAccessToken task.action payload
  let workerUid ← buildWorkerUid task.action payload
  let intervalInMs ← buildInterval task.action payload
  let native ← readNativeLayout payload
  let stream ← readStreamOutput payload
  return {
    taskID := buildTaskID task payload
    cmd := task.cmd
    action := task.action
    layout := chosenLayout payload
    freestyleCanvasUrl := canvasURL payload
    uid := buildUid payload
    channel, accessToken, workerUid, intervalInMs
    videoDecodeMode := buildVideoDecodeMode payload
    regions := native.regions
    width := native.width
    height := native.height
    outputURL := stream.destination
    outputToken := stream.token
    outputTimeoutMs := stream.timeout
    outputReconnectAttempts := stream.attempts
    outputReconnectDelayMs := stream.delay }

def buildUDSMessageFromQueueTask (task : Task) : Except String UDSMessage := do
  let m ← assembleUDSMessage task (task.payload.getD [])
  match validateUDSMessage m with
  | some e => .error ("validation failed after building UDS message: " ++ e)
  | none => return m

end RtcEgress.Message
