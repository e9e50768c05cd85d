import RtcEgress.Message.Lemmas.Accepted
import RtcEgress.Worker.TaskPipe

/-!
# UDS の伝言の書き出しと読み取り

Go の `json.Marshal` が `UDSMessage` を書き、ワーカーの `from_json`（`src/include/uds_message.h`）が読む。二つの JSON の
実装は標準に従うものとし、間の値を `Json` で表す。Go の整数は 64 ビット、ワーカーの整数は 32 ビットである。
-/

namespace RtcEgress.Wire

open RtcEgress.Lib RtcEgress.Queue
open RtcEgress.Message (isStreamCmd)

/-! ## 書き出し -/

def intJson (n : Int) : Json := .num n

/-- `omitempty` の欄。 -/
def omitEmpty (name : String) (empty : Bool) (value : Json) : Payload := if empty then [] else [(name, value)]

def regionJson (r : Message.LayoutRegion) : Json :=
  .obj [("uid", .str r.uid), ("x", intJson r.x), ("y", intJson r.y), ("width", intJson r.width),
    ("height", intJson r.height), ("z", intJson r.z)]

def jsonFields (m : Message.UDSMessage) : Payload :=
  [("task_id", .str m.taskID), ("cmd", .str m.cmd), ("action", .str m.action), ("layout", .str m.layout),
    ("freestyleCanvasUrl", .str m.freestyleCanvasUrl), ("uid", .arr (m.uid.map .str)), ("channel", .str m.channel),
    ("access_token", .str m.accessToken), ("workerUid", intJson m.workerUid), ("interval_in_ms", intJson m.intervalInMs),
    ("videoDecodeMode", intJson m.videoDecodeMode)] ++
  omitEmpty "regions" m.regions.isEmpty (.arr (m.regions.map regionJson)) ++
  omitEmpty "width" (m.width == 0) (intJson m.width) ++
  omitEmpty "height" (m.height == 0) (intJson m.height) ++
  omitEmpty "output_url" (m.outputURL == "") (.str m.outputURL) ++
  omitEmpty "output_token" (m.outputToken == "") (.str m.outputToken) ++
  omitEmpty "output_timeout_ms" (m.outputTimeoutMs == 0) (intJson m.outputTimeoutMs) ++
  [("output_reconnect_attempts", intJson m.outputReconnectAttempts),
    ("output_reconnect_delay_ms", intJson m.outputReconnectDelayMs)]

/-- `json.Marshal`。 -/
def marshal (m : Message.UDSMessage) : Json := .obj (jsonFields m)

/-- `sendUDSMessageToWorker` が書く伝言。 -/
def sendUDSMessageToWorker (taskID : String) (m : Message.UDSMessage) : Json := marshal { m with taskID }

/-! ## 読み取り -/

/-- ワーカーの `UDSMessage`。 -/
structure UDSMessage where
  taskId : String := ""
  cmd : String := ""
  action : String := ""
  layout : String := "flat"
  freestyleCanvasUrl : String := ""
  uid : List String := []
  channel : String := ""
  accessToken : String := ""
  workerUid : Int := 0
  intervalInMs : Int := 0
  videoDecodeMode : Int := -1
  regions : List Worker.LayoutRegion := []
  width : Int := 0
  height : Int := 0
  outputUrl : String := ""
  outputToken : String := ""
  outputTimeoutMs : Int := 5000
  outputReconnectAttempts : Int := 5
  outputReconnectDelayMs : Int := 1000

/-- `static_cast<int>`。 -/
def toInt32 (n : Int) : Int := n.bmod (2 ^ 32)

/-- `get_to(std::string&)`。 -/
def getString : Json → Option String
  | .str s => some s
  | _ => none

/-- `get_to(int&)`。真偽値も受け入れ、小数は切り捨てる。 -/
def getInt : Json → Option Int
  | .num q => some (toInt32 (truncate q))
  | .bool b => some (if b then 1 else 0)
  | _ => none

/-- `get_to(std::vector<std::string>&)`。 -/
def getStrings : Json → Option (List String)
  | .arr xs => xs.mapM getString
  | _ => none

/-- 範囲の `for` が訪れる値。 -/
def iterated : Json → List Json
  | .arr xs => xs
  | .obj fields => fields.map (·.2)
  | .null => []
  | v => [v]

/-- `j.at(key).get_to(x)`。 -/
def required {α : Type} (j : Payload) (key : String) (get : Json → Option α) : Option α := (j.lookup key).bind get

/-- `if (j.contains(key)) j.at(key).get_to(x)`。 -/
def optional {α : Type} (j : Payload) (key : String) (default : α) (get : Json → Option α) : Option α :=
  match j.lookup key with
  | none => some default
  | some v => get v

def getRegion : Json → Option Worker.LayoutRegion
  | .obj j => do
      let uid ← required j "uid" getString
      let x ← required j "x" getInt
      let y ← required j "y" getInt
      let width ← required j "width" getInt
      let height ← required j "height" getInt
      let z ← optional j "z" 0 getInt
      return { uid := uid, x, y, width, height, z }
  | _ => none

def getRegions (v : Json) : Option (List Worker.LayoutRegion) := (iterated v).mapM getRegion

/-- `from_json`。例外は `none` である。 -/
def fromJson : Json → Option UDSMessage
  | .obj j => do
      let taskId ← optional j "task_id" "" getString
      let cmd ← required j "cmd" getString
      let action ← optional j "action" "start" getString
      let layout ← optional j "layout" "flat" getString
      let freestyleCanvasUrl ← optional j "freestyleCanvasUrl" "" getString
      let uid ← optional j "uid" [] getStrings
      let channel ← required j "channel" getString
      let accessToken ← required j "access_token" getString
      let workerUid ← optional j "workerUid" 0 getInt
      let intervalInMs ← optional j "interval_in_ms" 0 getInt
      let videoDecodeMode ← optional j "videoDecodeMode" (-1) getInt
      let width ← optional j "width" 0 getInt
      let height ← optional j "height" 0 getInt
      let outputUrl ← optional j "output_url" "" getString
      let outputToken ← optional j "output_token" "" getString
      let outputTimeoutMs ← optional j "output_timeout_ms" 5000 getInt
      let outputReconnectAttempts ← optional j "output_reconnect_attempts" 5 getInt
      let outputReconnectDelayMs ← optional j "output_reconnect_delay_ms" 1000 getInt
      let regions ← optional j "regions" [] getRegions
      return {
        taskId := taskId, cmd := cmd, action := action, layout := layout, freestyleCanvasUrl, uid, channel, accessToken
        workerUid, intervalInMs, videoDecodeMode, regions, width, height, outputUrl, outputToken, outputTimeoutMs
        outputReconnectAttempts, outputReconnectDelayMs }
  | _ => none

/-! ## 書いた値の読み取り -/

/-- 書いた整数を、ワーカーが読んだ値。 -/
def receivedInt (n : Int) : Int := toInt32 (truncate n)

theorem getInt_intJson (n : Int) : getInt (intJson n) = some (receivedInt n) := rfl

def receivedRegion (r : Message.LayoutRegion) : Worker.LayoutRegion :=
  ⟨r.uid, receivedInt r.x, receivedInt r.y, receivedInt r.width, receivedInt r.height, receivedInt r.z⟩

/-- 書いた伝言を、ワーカーが読んだ値。省かれた欄は、ワーカーの既定の値になる。 -/
def receivedMessage (m : Message.UDSMessage) : UDSMessage where
  taskId := m.taskID
  cmd := m.cmd
  action := m.action
  layout := m.layout
  freestyleCanvasUrl := m.freestyleCanvasUrl
  uid := m.uid
  channel := m.channel
  accessToken := m.accessToken
  workerUid := receivedInt m.workerUid
  intervalInMs := receivedInt m.intervalInMs
  videoDecodeMode := receivedInt m.videoDecodeMode
  regions := m.regions.map receivedRegion
  width := receivedInt m.width
  height := receivedInt m.height
  outputUrl := m.outputURL
  outputToken := m.outputToken
  outputTimeoutMs := if m.outputTimeoutMs = 0 then 5000 else receivedInt m.outputTimeoutMs
  outputReconnectAttempts := receivedInt m.outputReconnectAttempts
  outputReconnectDelayMs := receivedInt m.outputReconnectDelayMs

theorem getStrings_map (xs : List String) : getStrings (.arr (xs.map .str)) = some xs := by
  induction xs with
  | nil => rfl
  | cons x xs ih =>
      simp only [getStrings] at ih
      simp [getStrings, getString, ih]

theorem getRegion_regionJson (r : Message.LayoutRegion) : getRegion (regionJson r) = some (receivedRegion r) := by
  simp [getRegion, regionJson, required, optional, List.lookup_cons, getString, getInt_intJson, receivedRegion]

theorem getRegions_map (rs : List Message.LayoutRegion) :
    getRegions (.arr (rs.map regionJson)) = some (rs.map receivedRegion) := by
  induction rs with
  | nil => rfl
  | cons r rs ih =>
      simp only [getRegions, iterated] at ih
      simp [getRegions, iterated, getRegion_regionJson, ih]

theorem lookup_omitEmpty {name key : String} {empty : Bool} {value : Json} :
    (omitEmpty name empty value).lookup key = if key = name ∧ empty = false then some value else none := by
  by_cases h : key = name
  · cases empty <;> simp [omitEmpty, h]
  · cases empty <;> simp [omitEmpty, List.lookup_cons, h, beq_false_of_ne h]

/-- 省いた欄は、既定の値として読む。 -/
theorem optional_of_lookup {α : Type} {j : Payload} {name : String} {p : Prop} [Decidable p] {value : Json}
    {default x : α} {get : Json → Option α} (hj : j.lookup name = if p then none else some value)
    (hget : get value = some x) : optional j name default get = some (if p then default else x) := by
  by_cases h : p
  · rw [if_pos h] at hj
    simp [optional, hj, h]
  · rw [if_neg h] at hj
    simp [optional, hj, hget, h]

theorem receivedInt_zero : receivedInt 0 = 0 := by decide

theorem optional_int {j : Payload} {name : String} (n default : Int)
    (hj : j.lookup name = if n = 0 then none else some (intJson n)) :
    optional j name default getInt = some (if n = 0 then default else receivedInt n) :=
  optional_of_lookup hj (getInt_intJson n)

/-- 既定の値が零ならば、省かれた零も同じに読める。 -/
theorem optional_size {j : Payload} {name : String} (n : Int)
    (hj : j.lookup name = if n = 0 then none else some (intJson n)) :
    optional j name 0 getInt = some (receivedInt n) := by
  rw [optional_int n 0 hj]
  split_ifs with h <;> simp [h, receivedInt_zero]

theorem optional_string {j : Payload} {name s : String} (hj : j.lookup name = if s = "" then none else some (.str s)) :
    optional j name "" getString = some s := by
  have hs : getString (.str s) = some s := rfl
  rw [optional_of_lookup hj hs]
  split_ifs with h <;> simp [h]

section
variable (m : Message.UDSMessage)

theorem optional_regions : optional (jsonFields m) "regions" [] getRegions = some (m.regions.map receivedRegion) := by
  have h : (jsonFields m).lookup "regions" = if m.regions = [] then none else some (.arr (m.regions.map regionJson)) := by
    simp [jsonFields, List.lookup_append, lookup_omitEmpty, List.lookup_cons]
  rw [optional_of_lookup h (getRegions_map m.regions)]
  split_ifs with he <;> simp [he]

theorem optional_width : optional (jsonFields m) "width" 0 getInt = some (receivedInt m.width) :=
  optional_size m.width (by simp [jsonFields, List.lookup_append, lookup_omitEmpty, List.lookup_cons])

theorem optional_height : optional (jsonFields m) "height" 0 getInt = some (receivedInt m.height) :=
  optional_size m.height (by simp [jsonFields, List.lookup_append, lookup_omitEmpty, List.lookup_cons])

theorem optional_outputURL : optional (jsonFields m) "output_url" "" getString = some m.outputURL :=
  optional_string (by simp [jsonFields, List.lookup_append, lookup_omitEmpty, List.lookup_cons])

theorem optional_outputToken : optional (jsonFields m) "output_token" "" getString = some m.outputToken :=
  optional_string (by simp [jsonFields, List.lookup_append, lookup_omitEmpty, List.lookup_cons])

theorem optional_outputTimeoutMs : optional (jsonFields m) "output_timeout_ms" 5000 getInt =
    some (if m.outputTimeoutMs = 0 then 5000 else receivedInt m.outputTimeoutMs) :=
  optional_int m.outputTimeoutMs 5000 (by simp [jsonFields, List.lookup_append, lookup_omitEmpty, List.lookup_cons])

theorem optional_outputReconnectAttempts :
    optional (jsonFields m) "output_reconnect_attempts" 5 getInt = some (receivedInt m.outputReconnectAttempts) := by
  have h : (jsonFields m).lookup "output_reconnect_attempts" = some (intJson m.outputReconnectAttempts) := by
    simp [jsonFields, List.lookup_append, lookup_omitEmpty, List.lookup_cons]
  simp only [optional, h, getInt_intJson]

theorem optional_outputReconnectDelayMs :
    optional (jsonFields m) "output_reconnect_delay_ms" 1000 getInt = some (receivedInt m.outputReconnectDelayMs) := by
  have h : (jsonFields m).lookup "output_reconnect_delay_ms" = some (intJson m.outputReconnectDelayMs) := by
    simp [jsonFields, List.lookup_append, lookup_omitEmpty, List.lookup_cons]
  simp only [optional, h, getInt_intJson]

/-- 書いた伝言は、必ず読める。 -/
theorem fromJson_marshal : fromJson (marshal m) = some (receivedMessage m) := by
  have htaskId : optional (jsonFields m) "task_id" "" getString = some m.taskID := rfl
  have hcmd : required (jsonFields m) "cmd" getString = some m.cmd := rfl
  have haction : optional (jsonFields m) "action" "start" getString = some m.action := rfl
  have hlayout : optional (jsonFields m) "layout" "flat" getString = some m.layout := rfl
  have hcanvas : optional (jsonFields m) "freestyleCanvasUrl" "" getString = some m.freestyleCanvasUrl := rfl
  have huid : optional (jsonFields m) "uid" [] getStrings = some m.uid := getStrings_map m.uid
  have hchannel : required (jsonFields m) "channel" getString = some m.channel := rfl
  have htoken : required (jsonFields m) "access_token" getString = some m.accessToken := rfl
  have hworker : optional (jsonFields m) "workerUid" 0 getInt = some (receivedInt m.workerUid) := rfl
  have hinterval : optional (jsonFields m) "interval_in_ms" 0 getInt = some (receivedInt m.intervalInMs) := rfl
  have hmode : optional (jsonFields m) "videoDecodeMode" (-1) getInt = some (receivedInt m.videoDecodeMode) := rfl
  simp only [fromJson, marshal, htaskId, hcmd, haction, hlayout, hcanvas, huid, hchannel, htoken, hworker, hinterval,
    hmode, optional_width, optional_height, optional_outputURL, optional_outputToken, optional_outputTimeoutMs,
    optional_outputReconnectAttempts, optional_outputReconnectDelayMs, optional_regions, Option.bind_eq_bind,
    Option.bind_some]
  rfl

end

end RtcEgress.Wire
