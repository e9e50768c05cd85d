import RtcEgress.Message.Users
import RtcEgress.Wire.Marshal
import Mathlib.Algebra.Order.BigOperators.Group.List

/-!
# 伝言の長さの上限

ワーカーは、上限を超える行を受け取ると、読み込みのループを終える。検査は、いくつかの欄の長さを抑えない。抑えた欄だけの
行は上限に収まり、抑えない欄があれば、その長さが残りに収まるときに限って収まる。
-/

namespace RtcEgress.Wire

open RtcEgress.Lib RtcEgress.Lib.Json RtcEgress.Message
open RtcEgress.Queue (Json Payload Task)

/-! ## 送る伝言 -/

/-- 検査を通った記録から組み立て、ワーカーに送る伝言。停止の伝言の名前は、止めるタスクの名前である。 -/
structure Sent where
  task : Task
  accepted : Task
  message : Message.UDSMessage
  taskID : String
  valid : validateRedisTask task = .ok accepted
  built : buildUDSMessageFromQueueTask accepted = .ok message
  own : task.action = "stop" ∨ taskID = task.id

def Sent.line (s : Sent) : Bytes := Wire.line s.taskID s.message

def sentBytes (sent : List Sent) : Bytes := sent.flatMap fun s => s.line ++ [newline]

/-- 送った行がすべて上限に収まり、どう切れて届いても、バッファは `false` を返さない。 -/
def WithinLimit (sent : List Sent) : Prop :=
  (∀ s ∈ sent, s.line.length ≤ maxMessageSize) ∧
    ∀ reads : List Bytes, reads.flatten = sentBytes sent → (LineMessageBuffer.appendAll {} reads).ok = true

/-! ## 欄の長さ -/

def isText : Option Json → Bool
  | some (.str _) => true
  | _ => false

/-- 検査が長さを抑えない欄。開始の記録では、文字列の利用者、配信でない宛先とトークン、`freestyle` の領域である。 -/
def isUnchecked (task : Task) (name : String) : Bool :=
  let payload := task.payload.getD []
  if task.action = "start" then
    (name == "uid" && isText (value? payload "users")) ||
      (name ∈ ["output_url", "output_token"] && !isStreamCmd task.cmd) ||
      (name == "regions" && chosenLayout payload == "freestyle")
  else
    (name == "task_id" && task.action == "stop") ||
      name ∈ ["uid", "channel", "access_token", "output_url", "output_token", "regions"]

/-- 記録が与える伝言の欄。 -/
def given (taskID : String) (task : Task) : Message.UDSMessage :=
  let payload := task.payload.getD []
  let interval := ((payload.lookup "interval_in_ms").map intOf).getD 0
  let native := (readNativeLayout payload).toOption.getD {}
  let stream := (readStreamOutput payload).toOption.getD {}
  { taskID
    cmd := task.cmd
    action := task.action
    layout := chosenLayout payload
    freestyleCanvasUrl := canvasURL payload
    uid := buildUid payload
    channel := (payload.str? "channel").getD task.channel
    accessToken := (payload.str? "access_token").getD ""
    workerUid := ((payload.lookup "workerUid").map intOf).getD 0
    intervalInMs := if interval = 0 ∧ task.action = "start" then 20000 else interval
    videoDecodeMode := buildVideoDecodeMode payload
    regions := native.regions
    width := native.width
    height := native.height
    outputURL := stream.destination
    outputToken := stream.token
    outputTimeoutMs := stream.timeout
    outputReconnectAttempts := stream.attempts
    outputReconnectDelayMs := stream.delay }

/-- 検査が抑えない欄の長さ。 -/
def uncheckedLength (taskID : String) (task : Task) : Nat :=
  fieldsLength ((jsonFields (given taskID task)).filter fun f => isUnchecked task f.1)

/-- 検査が抑える欄だけの行の長さ。 -/
def checkedLength (taskID : String) (task : Task) : Nat :=
  fieldsLength ((jsonFields (given taskID task)).filter fun f => !isUnchecked task f.1) + 1

/-- 抑えた欄が残す長さ。 -/
def room (taskID : String) (task : Task) : Nat := maxMessageSize - checkedLength taskID task

/-! ## 記録の欄 -/

section
variable {task : Task} {payload : Payload} {m : Message.UDSMessage}

theorem buildChannel_eq {channel : String} (h : buildChannel task payload = .ok channel) :
    channel = (payload.str? "channel").getD task.channel := by
  unfold buildChannel at h
  unfold Payload.str?
  cases hv : payload.lookup "channel" with
  | none =>
      simp only [hv, bind, Except.bind] at h
      split_ifs at h
      cases h
      rfl
  | some v =>
      cases v with
      | str c =>
          simp only [hv, bind, Except.bind] at h
          split_ifs at h
          cases h
          rfl
      | _ => simp [hv, bind, Except.bind] at h

theorem buildAccessToken_eq {action token : String} (h : buildAccessToken action payload = .ok token) :
    token = (payload.str? "access_token").getD "" := by
  unfold buildAccessToken at h
  unfold Payload.str?
  cases hv : payload.lookup "access_token" with
  | none =>
      simp only [hv] at h
      split_ifs at h
      cases h
      rfl
  | some v =>
      cases v with
      | str t =>
          simp only [hv] at h
          cases h
          rfl
      | _ => simp [hv] at h

theorem readNumber_eq {field : String} {n : Option Int} (h : readNumber payload field = .ok n) :
    n = (payload.lookup field).map intOf := by
  unfold readNumber at h
  cases hv : payload.lookup field with
  | none =>
      simp only [hv] at h
      cases h
      rfl
  | some v =>
      cases v with
      | num q =>
          simp only [hv] at h
          cases h
          rfl
      | _ => simp [hv] at h

theorem buildWorkerUid_eq {action : String} {n : Int} (h : buildWorkerUid action payload = .ok n) :
    n = ((payload.lookup "workerUid").map intOf).getD 0 := by
  unfold buildWorkerUid at h
  obtain ⟨found, hfound, h⟩ := bind_eq_ok.mp h
  rw [← readNumber_eq hfound]
  cases found with
  | none =>
      simp only at h
      split_ifs at h
      cases h
      rfl
  | some k =>
      cases h
      rfl

theorem buildInterval_eq {action : String} {n : Int} (h : buildInterval action payload = .ok n) :
    let interval := ((payload.lookup "interval_in_ms").map intOf).getD 0
    n = if interval = 0 ∧ action = "start" then 20000 else interval := by
  unfold buildInterval at h
  obtain ⟨found, hfound, h⟩ := bind_eq_ok.mp h
  rw [readNumber_eq hfound] at h
  simp only at h ⊢
  split at h <;> simp_all

/-- 組み立てた伝言は、記録が与える欄からなる。 -/
theorem given_eq (h : Assembled task (task.payload.getD []) m) (taskID : String) :
    given taskID task = { m with taskID } := by
  have hnative : readNativeLayout (task.payload.getD []) = .ok ⟨m.regions, m.width, m.height⟩ := h.native
  have hstream : readStreamOutput (task.payload.getD []) = .ok ⟨m.outputURL, m.outputToken, m.outputTimeoutMs,
      m.outputReconnectAttempts, m.outputReconnectDelayMs⟩ := h.stream
  simp only [given, hnative, hstream, Except.toOption, Option.getD_some, ← h.cmd, ← h.layout, ← h.canvas, ← h.uid,
    ← buildChannel_eq h.channel, ← buildAccessToken_eq h.token, ← buildWorkerUid_eq h.workerUid,
    ← buildInterval_eq h.interval, ← h.decodeMode]
  rw [← h.action]

end

/-! ## 数の欄 -/

section
variable {payload : Payload}

theorem inInt64_intOf (v : Json) : inInt64 (intOf v) = true := by
  cases v with
  | num q => exact inInt64_truncate q
  | _ => rfl

theorem inInt64_field (field : String) : inInt64 (((payload.lookup field).map intOf).getD 0) = true := by
  cases payload.lookup field with
  | none => decide
  | some v => exact inInt64_intOf v

theorem inInt64_unmarshalInt {old n : Int} {v : Json} (hold : inInt64 old = true) (h : unmarshalInt old v = some n) :
    inInt64 n = true := by
  cases v with
  | null =>
      cases h
      exact hold
  | num q => exact inInt64_of_jsonInt h
  | _ => cases h

theorem inInt64_readField {field : String} {default n : Int} {read : Json → Option Int}
    (hdefault : inInt64 default = true) (hread : ∀ v k, read v = some k → inInt64 k = true)
    (h : readField payload field default read = .ok n) : inInt64 n = true := by
  unfold readField at h
  split at h
  · cases h
    exact hdefault
  · split at h
    · cases h
      exact hread _ _ ‹_›
    · cases h

theorem inInt64_nonNull {old : Int} (hold : inInt64 old = true) (v : Json) (n : Int)
    (h : nonNull (unmarshalInt old) v = some n) : inInt64 n = true := by
  unfold nonNull at h
  split at h
  · cases h
  · exact inInt64_unmarshalInt hold h

theorem inInt64_readNativeLayout {n : NativeLayout} (h : readNativeLayout payload = .ok n) :
    inInt64 n.width = true ∧ inInt64 n.height = true := by
  simp only [readNativeLayout, bind_eq_ok] at h
  obtain ⟨regions, -, width, hwidth, height, hheight, h⟩ := h
  cases h
  exact ⟨inInt64_readField (by decide) (fun v k => inInt64_unmarshalInt (by decide)) hwidth,
    inInt64_readField (by decide) (fun v k => inInt64_unmarshalInt (by decide)) hheight⟩

theorem inInt64_readStreamOutput {s : StreamOutputSettings} (h : readStreamOutput payload = .ok s) :
    inInt64 s.timeout = true ∧ inInt64 s.attempts = true ∧ inInt64 s.delay = true := by
  simp only [readStreamOutput, bind_eq_ok] at h
  obtain ⟨destination, -, token, -, timeout, htimeout, attempts, hattempts, delay, hdelay, h⟩ := h
  cases h
  exact ⟨inInt64_readField (by decide) (inInt64_nonNull (by decide)) htimeout,
    inInt64_readField (by decide) (inInt64_nonNull (by decide)) hattempts,
    inInt64_readField (by decide) (inInt64_nonNull (by decide)) hdelay⟩

end

/-! ## 抑えた欄 -/

/-- 検査が抑えた欄の上限。 -/
structure Limited (task : Task) (m : Message.UDSMessage) : Prop where
  taskID : isUnchecked task "task_id" = false → m.taskID.utf8ByteSize ≤ 64
  words : ∀ w ∈ [m.cmd, m.action, m.layout], w.utf8ByteSize ≤ 64
  canvas : m.freestyleCanvasUrl.utf8ByteSize ≤ 1024
  uid : isUnchecked task "uid" = false → m.uid.length ≤ 32 ∧ ∀ u ∈ m.uid, u.utf8ByteSize ≤ 32
  channel : isUnchecked task "channel" = false → m.channel.utf8ByteSize ≤ 64
  token : isUnchecked task "access_token" = false → m.accessToken.utf8ByteSize ≤ 512
  regions : isUnchecked task "regions" = false → m.regions.length ≤ 32 ∧ ∀ r ∈ m.regions, r.uid.utf8ByteSize ≤ 32 ∧
    ∀ n ∈ [r.x, r.y, r.width, r.height, r.z], inInt64 n = true
  outputURL : isUnchecked task "output_url" = false → m.outputURL.utf8ByteSize ≤ 1024
  outputToken : isUnchecked task "output_token" = false → m.outputToken.utf8ByteSize ≤ 512
  numbers : ∀ n ∈ [m.workerUid, m.intervalInMs, m.videoDecodeMode, m.width, m.height, m.outputTimeoutMs,
    m.outputReconnectAttempts, m.outputReconnectDelayMs], inInt64 n = true

section
variable {task : Task} {m : Message.UDSMessage}

theorem isUnchecked_start (ha : task.action = "start") :
    isUnchecked task "uid" = isText (value? (task.payload.getD []) "users") ∧
      isUnchecked task "output_url" = !isStreamCmd task.cmd ∧ isUnchecked task "output_token" = !isStreamCmd task.cmd ∧
      isUnchecked task "regions" = (chosenLayout (task.payload.getD []) == "freestyle") := by
  simp [isUnchecked, ha]

theorem isUnchecked_of_ne (ha : task.action ≠ "start") :
    ∀ name ∈ ["uid", "channel", "access_token", "output_url", "output_token", "regions"], isUnchecked task name = true := by
  simp [isUnchecked, ha]

theorem size_of_mem_words {w : String} (h : w ∈ Queue.validCmds ++ Queue.validActions ++ Queue.validLayouts) :
    w.utf8ByteSize ≤ 64 := by
  revert w
  decide

theorem size_of_validateTaskFields (h : Queue.validateTaskFields task = none) : task.id.utf8ByteSize ≤ 64 := by
  unfold Queue.validateTaskFields at h
  split at h
  · cases h
  case h_2 hid =>
    simp only [Queue.validateTaskID, ite_some_eq_none] at hid
    omega

theorem channel_of_validateTaskFields (h : Queue.validateTaskFields task = none) : task.channel.utf8ByteSize ≤ 64 := by
  unfold Queue.validateTaskFields at h
  split at h
  · cases h
  · simp only [ite_some_eq_none] at h
    by_cases he : task.channel = ""
    · simp [he]
    · exact Nat.le_of_not_lt (not_and.mp h.2.2.1 he)

theorem size_of_validateCanvasURL {canvas : String} (h : validateCanvasURL canvas = none) : canvas.utf8ByteSize ≤ 1024 := by
  unfold validateCanvasURL at h
  split_ifs at h with hc
  · simp [hc]
  · omega

theorem words_of_validateUDSMessage (h : validateUDSMessage m = none) :
    (∀ w ∈ [m.cmd, m.action, m.layout], w.utf8ByteSize ≤ 64) ∧ m.freestyleCanvasUrl.utf8ByteSize ≤ 1024 := by
  simp only [validateUDSMessage, ite_some_eq_none, Option.or_eq_none_iff, not_not] at h
  obtain ⟨hcmd, haction, hlayout, hcanvas, -⟩ := h
  refine ⟨?_, size_of_validateCanvasURL hcanvas⟩
  simp only [List.mem_cons, List.not_mem_nil, or_false, forall_eq_or_imp, forall_eq]
  exact ⟨size_of_mem_words (by simp [hcmd]), size_of_mem_words (by simp [haction]), size_of_mem_words (by simp [hlayout])⟩

theorem channel_le (h : Built task m) (ha : task.action = "start") : m.channel.utf8ByteSize ≤ 64 := by
  have hcheck := (h.start ha).channel
  have htask : task.channel.utf8ByteSize ≤ 64 := channel_of_validateTaskFields h.fields
  rw [buildChannel_eq h.assembled.channel]
  unfold Payload.str?
  split
  case h_1 c hc =>
    simp only [hc, validateChannel, ite_some_eq_none] at hcheck
    simp only [Option.getD_some]
    omega
  · exact htask

theorem token_le (h : Built task m) (ha : task.action = "start") : m.accessToken.utf8ByteSize ≤ 512 := by
  have hcheck := (h.start ha).token
  rw [buildAccessToken_eq h.assembled.token]
  unfold Payload.str?
  split
  case h_1 t ht =>
    simp only [ht, validateToken] at hcheck
    split_ifs at hcheck with hempty
    · simp [hempty]
    · simp only [Option.getD_some]
      omega
  · simp

theorem uid_le (h : Built task m) (ha : task.action = "start") (hu : isText (value? (task.payload.getD []) "users") = false) :
    m.uid.length ≤ 32 ∧ ∀ u ∈ m.uid, u.utf8ByteSize ≤ 32 := by
  rw [h.assembled.uid]
  unfold buildUid
  cases hv : value? (task.payload.getD []) "users" with
  | none => simp
  | some v =>
      have hfield : usersField (task.payload.getD []) = some v := by simp [usersField, hv]
      have hs (s : String) (he : v = .str s) : isValidUID s = true := by
        rw [hv, he] at hu
        cases hu
      obtain ⟨hvalid, hcount⟩ := (h.start ha).uidOf_valid hfield hs
      refine ⟨hcount, fun u hmem => ?_⟩
      have := hvalid u hmem
      simp only [isValidUID, Bool.and_eq_true, decide_eq_true_eq] at this
      exact this.1.2

theorem numbers_inInt64 (h : Assembled task (task.payload.getD []) m) :
    ∀ n ∈ [m.workerUid, m.intervalInMs, m.videoDecodeMode, m.width, m.height, m.outputTimeoutMs,
      m.outputReconnectAttempts, m.outputReconnectDelayMs], inInt64 n = true := by
  obtain ⟨hwidth, hheight⟩ := inInt64_readNativeLayout h.native
  obtain ⟨htimeout, hattempts, hdelay⟩ := inInt64_readStreamOutput h.stream
  have hworker : inInt64 m.workerUid = true := by
    rw [buildWorkerUid_eq h.workerUid]
    exact inInt64_field _
  have hinterval : inInt64 m.intervalInMs = true := by
    rw [buildInterval_eq h.interval]
    split
    · decide
    · exact inInt64_field _
  have hmode : inInt64 m.videoDecodeMode = true := by
    rw [h.decodeMode]
    unfold buildVideoDecodeMode
    split
    · exact inInt64_truncate _
    · decide
  simp only [List.mem_cons, List.not_mem_nil, or_false, forall_eq_or_imp, forall_eq]
  exact ⟨hworker, hinterval, hmode, hwidth, hheight, htimeout, hattempts, hdelay⟩

theorem regions_le (h : StartMessage m) (hl : m.layout ≠ "freestyle") :
    m.regions.length ≤ 32 ∧ ∀ r ∈ m.regions, r.uid.utf8ByteSize ≤ 32 ∧
      ∀ n ∈ [r.x, r.y, r.width, r.height, r.z], inInt64 n = true := by
  have hn := (validateNativeLayout_eq_none hl).mp h.native
  have hwidth := canvasSize_le hn.width
  have hheight := canvasSize_le hn.height
  refine ⟨hn.count, fun r hr => ?_⟩
  obtain ⟨huid, horigin, hsize, hright, hbottom, -, hz⟩ := hn.regions r hr
  simp only [List.mem_cons, List.not_mem_nil, or_false, forall_eq_or_imp, forall_eq, inInt64, Bool.and_eq_true,
    decide_eq_true_eq]
  simp only [UDSMessage.nativeLayout] at hright hbottom hwidth hheight
  omega

/-- 検査は、抑えるべき欄を抑える。 -/
theorem limited_of_built (h : Built task m) {taskID : String} (hid : task.action = "stop" ∨ taskID = task.id) :
    Limited task { m with taskID } := by
  obtain ⟨hwords, hcanvas⟩ := words_of_validateUDSMessage h.valid
  have hnumbers := numbers_inInt64 h.assembled
  have htaskID : isUnchecked task "task_id" = false → taskID.utf8ByteSize ≤ 64 := by
    intro hu
    rcases hid with hstop | rfl
    · simp [isUnchecked, hstop] at hu
    · exact size_of_validateTaskFields h.fields
  by_cases ha : task.action = "start"
  · obtain ⟨huid, hurl, htoken, hregions⟩ := isUnchecked_start ha
    have hstart := (validateUDSMessage_start (h.assembled.action.trans ha)).mp h.valid
    have hstream (hc : isStreamCmd task.cmd = true) := by
      have hc' : isStreamCmd m.cmd = true := h.assembled.cmd ▸ hc
      exact (validateStreamOutput_eq_none hc').mp hstart.stream
    refine ⟨htaskID, hwords, hcanvas, fun hu => uid_le (m := m) h ha (huid ▸ hu),
      fun _ => channel_le (m := m) h ha, fun _ => token_le (m := m) h ha,
      fun hu => regions_le (m := m) hstart ?_, fun hu => (hstream ?_).length, fun hu => (hstream ?_).token.1, hnumbers⟩
    · rw [hregions] at hu
      simpa [h.assembled.layout] using hu
    · simpa [hurl] using hu
    · simpa [htoken] using hu
  · have hall := isUnchecked_of_ne ha
    have habsurd {name : String} {P : Prop} (hmem : name ∈ ["uid", "channel", "access_token", "output_url", "output_token",
        "regions"]) (hu : isUnchecked task name = false) : P := by
      rw [hall name hmem] at hu
      cases hu
    exact ⟨htaskID, hwords, hcanvas, habsurd (by simp), habsurd (by simp), habsurd (by simp), habsurd (by simp),
      habsurd (by simp), habsurd (by simp), hnumbers⟩

end

/-! ## 抑えた欄の和 -/

/-- 伝言の欄の名前。 -/
def fieldNames : List String :=
  ["task_id", "cmd", "action", "layout", "freestyleCanvasUrl", "uid", "channel", "access_token", "workerUid",
    "interval_in_ms", "videoDecodeMode"] ++ ["regions"] ++ ["width"] ++ ["height"] ++ ["output_url"] ++
    ["output_token"] ++ ["output_timeout_ms"] ++ ["output_reconnect_attempts", "output_reconnect_delay_ms"]

/-- エスケープを見込んだ、抑えた欄の長さの上限。 -/
def fieldLimit (name : String) : Nat :=
  if name ∈ ["freestyleCanvasUrl", "output_url"] then 6300
  else if name ∈ ["access_token", "output_token"] then 3200
  else if name = "uid" then 6400
  else if name = "regions" then 14000
  else 550

theorem sum_fieldLimit : (fieldNames.map fieldLimit).sum < maxMessageSize := by decide

theorem names_omitEmpty (name : String) (empty : Bool) (value : Json) :
    ((omitEmpty name empty value).map Prod.fst).Sublist [name] := by
  cases empty <;> simp [omitEmpty]

theorem names_jsonFields (m : Message.UDSMessage) : ((jsonFields m).map Prod.fst).Sublist fieldNames := by
  simp only [jsonFields, List.map_append]
  exact ((((((List.Sublist.refl _).append (names_omitEmpty ..)).append (names_omitEmpty ..)).append
    (names_omitEmpty ..)).append (names_omitEmpty ..)).append (names_omitEmpty ..)).append (names_omitEmpty ..)
    |>.append (List.Sublist.refl _)

theorem mem_omitEmpty {name : String} {empty : Bool} {value : Json} {f : String × Json}
    (h : f ∈ omitEmpty name empty value) : f = (name, value) ∧ empty = false := by
  cases empty
  · simpa [omitEmpty] using h
  · simp [omitEmpty] at h

theorem fieldLength_str {name s : String} {size : Nat} (h : s.utf8ByteSize ≤ size) :
    fieldLength (name, .str s) ≤ 6 * name.utf8ByteSize + 6 * size + 6 := by
  have hname := length_marshalString_le name
  have hs := length_marshalString_le s
  simp only [fieldLength, encode]
  omega

theorem fieldLength_int {name : String} {n : Int} (h : inInt64 n = true) :
    fieldLength (name, intJson n) ≤ 6 * name.utf8ByteSize + 24 := by
  have hname := length_marshalString_le name
  have hn := length_marshalInt_le h
  simp only [fieldLength, encode, intJson, Rat.num_intCast]
  omega

theorem fieldLength_arr {name : String} {xs : List Json} {bound : Nat} (hcount : xs.length ≤ 32)
    (h : ∀ x ∈ xs, (encode x).length ≤ bound) :
    fieldLength (name, .arr xs) ≤ 6 * name.utf8ByteSize + 32 * (bound + 1) + 6 := by
  have hname := length_marshalString_le name
  have hxs := length_encodeItems_le h
  have hmul := Nat.mul_le_mul_right (bound + 1) hcount
  simp only [fieldLength, encode, List.length_cons]
  omega

theorem length_encode_regionJson {r : Message.LayoutRegion} (huid : r.uid.utf8ByteSize ≤ 32)
    (h : ∀ n ∈ [r.x, r.y, r.width, r.height, r.z], inInt64 n = true) : (encode (regionJson r)).length ≤ 421 := by
  simp only [List.mem_cons, List.not_mem_nil, or_false, forall_eq_or_imp, forall_eq] at h
  obtain ⟨hx, hy, hwidth, hheight, hz⟩ := h
  have h₁ : fieldLength ("uid", .str r.uid) ≤ _ := fieldLength_str huid
  have h₂ : fieldLength ("x", intJson r.x) ≤ _ := fieldLength_int hx
  have h₃ : fieldLength ("y", intJson r.y) ≤ _ := fieldLength_int hy
  have h₄ : fieldLength ("width", intJson r.width) ≤ _ := fieldLength_int hwidth
  have h₅ : fieldLength ("height", intJson r.height) ≤ _ := fieldLength_int hheight
  have h₆ : fieldLength ("z", intJson r.z) ≤ _ := fieldLength_int hz
  rw [regionJson, encode, List.length_cons, length_encodeFields (List.cons_ne_nil _ _)]
  simp only [fieldsLength, List.map_cons, List.map_nil, List.sum_cons, List.sum_nil]
  have hsizes : "uid".utf8ByteSize = 3 ∧ "x".utf8ByteSize = 1 ∧ "y".utf8ByteSize = 1 ∧ "width".utf8ByteSize = 5 ∧
      "height".utf8ByteSize = 6 ∧ "z".utf8ByteSize = 1 := by decide
  omega

theorem fieldLength_le_limit {task : Task} {m : Message.UDSMessage} (h : Limited task m) {f : String × Json}
    (hf : f ∈ jsonFields m) (hu : isUnchecked task f.1 = false) : fieldLength f ≤ fieldLimit f.1 := by
  have hwords := h.words
  have hnumbers := h.numbers
  simp only [List.mem_cons, List.not_mem_nil, or_false, forall_eq_or_imp, forall_eq] at hwords hnumbers
  obtain ⟨hcmd, haction, hlayout⟩ := hwords
  obtain ⟨hworker, hinterval, hmode, hwidth, hheight, htimeout, hattempts, hdelay⟩ := hnumbers
  simp only [jsonFields, List.mem_append, List.mem_cons, List.not_mem_nil, or_false] at hf
  rcases hf with ((((((((rfl | rfl | rfl | rfl | rfl | rfl | rfl | rfl | rfl | rfl | rfl) | hf) | hf) | hf) | hf) | hf) | hf) |
    rfl | rfl)
  all_goals try obtain ⟨rfl, -⟩ := mem_omitEmpty hf
  all_goals dsimp only
  · exact (fieldLength_str (h.taskID hu)).trans (by decide)
  · exact (fieldLength_str hcmd).trans (by decide)
  · exact (fieldLength_str haction).trans (by decide)
  · exact (fieldLength_str hlayout).trans (by decide)
  · exact (fieldLength_str h.canvas).trans (by decide)
  · obtain ⟨hcount, huid⟩ := h.uid hu
    have hbound : ∀ x ∈ m.uid.map Json.str, (encode x).length ≤ 194 := by
      intro x hx
      obtain ⟨u, hmem, rfl⟩ := List.mem_map.mp hx
      have hle := length_marshalString_le u
      have hsize := huid u hmem
      rw [encode]
      omega
    exact (fieldLength_arr (by simpa using hcount) hbound).trans (by decide)
  · exact (fieldLength_str (h.channel hu)).trans (by decide)
  · exact (fieldLength_str (h.token hu)).trans (by decide)
  · exact (fieldLength_int hworker).trans (by decide)
  · exact (fieldLength_int hinterval).trans (by decide)
  · exact (fieldLength_int hmode).trans (by decide)
  · obtain ⟨hcount, hregions⟩ := h.regions hu
    have hbound : ∀ x ∈ m.regions.map regionJson, (encode x).length ≤ 421 := by
      intro x hx
      obtain ⟨r, hmem, rfl⟩ := List.mem_map.mp hx
      exact length_encode_regionJson (hregions r hmem).1 (hregions r hmem).2
    exact (fieldLength_arr (by simpa using hcount) hbound).trans (by decide)
  · exact (fieldLength_int hwidth).trans (by decide)
  · exact (fieldLength_int hheight).trans (by decide)
  · exact (fieldLength_str (h.outputURL hu)).trans (by decide)
  · exact (fieldLength_str (h.outputToken hu)).trans (by decide)
  · exact (fieldLength_int htimeout).trans (by decide)
  · exact (fieldLength_int hattempts).trans (by decide)
  · exact (fieldLength_int hdelay).trans (by decide)

/-- 抑えた欄だけの行は、上限に収まる。 -/
theorem checkedLength_le (s : Sent) : checkedLength s.taskID s.task ≤ maxMessageSize := by
  have hbuilt := built_of_accepted s.valid s.built
  have hlimited := limited_of_built hbuilt s.own
  rw [checkedLength, given_eq hbuilt.assembled]
  set fields := jsonFields { s.message with taskID := s.taskID } with hfields
  have hnames : ((fields.filter fun f => !isUnchecked s.task f.1).map Prod.fst).Sublist fieldNames :=
    (List.filter_sublist.map Prod.fst).trans (names_jsonFields _)
  have hle : fieldsLength (fields.filter fun f => !isUnchecked s.task f.1) ≤ (fieldNames.map fieldLimit).sum :=
    calc fieldsLength (fields.filter fun f => !isUnchecked s.task f.1)
      _ ≤ ((fields.filter fun f => !isUnchecked s.task f.1).map fun f => fieldLimit f.1).sum := by
          apply List.sum_le_sum
          intro f hf
          obtain ⟨hmem, hu⟩ := List.mem_filter.mp hf
          exact fieldLength_le_limit hlimited hmem (by simpa using hu)
      _ = (((fields.filter fun f => !isUnchecked s.task f.1).map Prod.fst).map fieldLimit).sum := by
          rw [List.map_map]
          rfl
      _ ≤ (fieldNames.map fieldLimit).sum := (hnames.map fieldLimit).sum_le_sum fun _ _ => Nat.zero_le _
  have hsum := sum_fieldLimit
  omega

/-! ## 送った行 -/

theorem length_filter_add (p : String × Json → Bool) (fields : Payload) :
    fieldsLength (fields.filter p) + fieldsLength (fields.filter fun f => !p f) = fieldsLength fields := by
  induction fields with
  | nil => rfl
  | cons f fields ih =>
      simp only [fieldsLength, List.filter_cons, List.map_cons, List.sum_cons] at ih ⊢
      cases hp : p f with
      | true =>
          simp only [if_true, Bool.not_true, Bool.false_eq_true, if_false, List.map_cons, List.sum_cons]
          omega
      | false =>
          simp only [if_true, Bool.not_false, Bool.false_eq_true, if_false, List.map_cons, List.sum_cons]
          omega

theorem Sent.length_line (s : Sent) : s.line.length = uncheckedLength s.taskID s.task + checkedLength s.taskID s.task := by
  have hgiven := given_eq (built_of_accepted s.valid s.built).assembled s.taskID
  have hsplit := length_filter_add (fun f => isUnchecked s.task f.1) (jsonFields (given s.taskID s.task))
  rw [Sent.line, Wire.length_line, ← hgiven, ← hsplit, uncheckedLength, checkedLength]
  omega

theorem Sent.fits_iff (s : Sent) :
    s.line.length ≤ maxMessageSize ↔ uncheckedLength s.taskID s.task ≤ room s.taskID s.task := by
  have hline := s.length_line
  have hchecked := checkedLength_le s
  unfold room
  omega

/-- どう切れて届いても、バッファは、上限を超える行がないときに限って `false` を返さない。 -/
theorem appendAll_ok {sent : List Sent} {reads : List Bytes} (hreads : reads.flatten = sentBytes sent) :
    (LineMessageBuffer.appendAll {} reads).ok = true ↔ ∀ s ∈ sent, s.line.length ≤ maxMessageSize := by
  have hok := congrArg Appended.ok (LineMessageBuffer.appendAll_eq (b := {}) (by simp) (by simp [fits]) reads)
  have hsplit : (sentBytes sent).splitOn newline = sent.map Sent.line ++ [[]] :=
    splitOn_flatMap Sent.line fun s _ => newline_notMem_line s.taskID s.message
  simp only [List.nil_append, hreads] at hok
  rw [hok, allFit, hsplit]
  simp [fits]

/-- 送る行がすべて上限に収まるのは、どの記録でも、検査が抑えない欄が残りに収まるときである。 -/
theorem withinLimit_iff (sent : List Sent) :
    WithinLimit sent ↔ ∀ s ∈ sent, uncheckedLength s.taskID s.task ≤ room s.taskID s.task := by
  have hfits : (∀ s ∈ sent, s.line.length ≤ maxMessageSize) ↔
      ∀ s ∈ sent, uncheckedLength s.taskID s.task ≤ room s.taskID s.task :=
    forall₂_congr fun s _ => s.fits_iff
  rw [← hfits]
  constructor
  · intro h
    exact h.1
  · intro h
    exact ⟨h, fun reads hreads => (appendAll_ok hreads).mpr h⟩

/-- 空の宛先とトークンは書かれない。 -/
theorem output_of_mem {m : Message.UDSMessage} {f : String × Json} (hf : f ∈ jsonFields m) :
    (f.1 = "output_url" → m.outputURL ≠ "") ∧ (f.1 = "output_token" → m.outputToken ≠ "") := by
  simp only [jsonFields, List.mem_append, List.mem_cons, List.not_mem_nil, or_false] at hf
  rcases hf with ((((((((rfl | rfl | rfl | rfl | rfl | rfl | rfl | rfl | rfl | rfl | rfl) | hf) | hf) | hf) | hf) | hf) | hf) |
    rfl | rfl)
  all_goals try obtain ⟨rfl, hempty⟩ := mem_omitEmpty hf
  all_goals simp_all

/-- `freestyle` でない開始の記録では、利用者が文字列でなく、配信でなければ宛先もトークンもないとき、必ず収まる。 -/
theorem Sent.fits_of_checked (s : Sent) (ha : s.task.action = "start")
    (husers : isText (value? (s.task.payload.getD []) "users") = false)
    (hlayout : chosenLayout (s.task.payload.getD []) ≠ "freestyle")
    (hstream : isStreamCmd s.task.cmd = true ∨ s.message.outputURL = "" ∧ s.message.outputToken = "") :
    s.line.length ≤ maxMessageSize := by
  have hgiven := given_eq (built_of_accepted s.valid s.built).assembled s.taskID
  have hnone : ∀ f ∈ jsonFields (given s.taskID s.task), isUnchecked s.task f.1 = false := by
    intro f hf
    rw [hgiven] at hf
    obtain ⟨hurl, htoken⟩ := output_of_mem hf
    rcases hstream with hstream | ⟨hurl', htoken'⟩
    · simp [isUnchecked, ha, husers, hlayout, hstream]
    · have hne : f.1 ≠ "output_url" ∧ f.1 ≠ "output_token" := ⟨fun he => hurl he hurl', fun he => htoken he htoken'⟩
      simp [isUnchecked, ha, husers, hlayout, hne]
  have hzero : uncheckedLength s.taskID s.task = 0 := by
    rw [uncheckedLength, List.filter_eq_nil_iff.mpr fun f hf => by simp [hnone f hf]]
    rfl
  rw [s.fits_iff, hzero]
  exact Nat.zero_le _

/-! ## 例 -/

/-- 宛先を加えた、録画の要求の中身。 -/
def urlPayload (url : String) : Payload :=
  [("channel", .str "c1"), ("access_token", .str "0123456789"), ("workerUid", .num 42), ("output_url", .str url)]

def urlTask (url : String) : Task := .published "a1" "record" "start" "c1" "r1" (some (urlPayload url)) 0

def urlMessage (url : String) : Message.UDSMessage where
  taskID := "a1"
  cmd := "record"
  action := "start"
  channel := "c1"
  accessToken := "0123456789"
  workerUid := 42
  intervalInMs := 20000
  videoDecodeMode := -1
  outputURL := url
  outputTimeoutMs := 5000
  outputReconnectAttempts := 5
  outputReconnectDelayMs := 1000

/-- 録画の要求の宛先は、検査されない。 -/
theorem startAccepted_urlPayload (url : String) : StartAccepted "r1" "record" (urlPayload url) where
  request := rfl
  supported := by decide
  layout := show "flat" ∈ Queue.validLayouts by decide
  canvas := rfl
  userCount := rfl
  hasChannel := rfl
  hasToken := rfl
  hasWorkerUid := rfl
  stream := rfl
  native := fun _ => rfl
  channel := rfl
  token := rfl
  workerUid := rfl
  interval := rfl
  users := rfl

theorem assembled_urlMessage (url : String) : Assembled (urlTask url) (urlPayload url) (urlMessage url) where
  taskID := rfl
  cmd := rfl
  action := rfl
  layout := rfl
  canvas := rfl
  uid := rfl
  channel := rfl
  token := rfl
  workerUid := rfl
  interval := rfl
  decodeMode := rfl
  native := rfl
  stream := rfl

theorem startMessage_urlMessage (url : String) : StartMessage (urlMessage url) where
  supported := show "record" ∈ Queue.validCmds by decide
  layout := show "flat" ∈ Queue.validLayouts by decide
  canvas := rfl
  userCount := Nat.zero_le 32
  stream := rfl
  native := rfl
  channel := show "c1" ≠ "" by decide
  token := show "0123456789" ≠ "" by decide
  workerUid := show (42 : Int) ≠ 0 by decide
  decodeMode := show -1 ≤ (-1 : Int) ∧ (-1 : Int) ≤ 2 by decide

/-- どの宛先を加えた録画の記録からも、伝言を送る。 -/
theorem exists_sent_urlTask (url : String) : ∃ s : Sent, s.task = urlTask url ∧ s.message = urlMessage url := by
  have hfields : Queue.validateTaskFields (urlTask url) = none := by
    have hid : Queue.validateTaskID "a1" = none := rfl
    simp [Queue.validateTaskFields, urlTask, Queue.Task.published, hid]
    decide
  have hvalid : validateRedisTask (urlTask url) = .ok { urlTask url with payload := some (withLayout (urlPayload url)) } :=
    (validateRedisTask_start rfl rfl).mpr ⟨hfields, startAccepted_urlPayload url, rfl⟩
  have hmessage : validateUDSMessage (urlMessage url) = none :=
    (validateUDSMessage_start rfl).mpr (startMessage_urlMessage url)
  obtain ⟨h₁, h₂, h₃, h₄, h₅, h₆, h₇, h₈, h₉, h₁₀, h₁₁, h₁₂, h₁₃⟩ :=
    assembled_withLayout.mpr (assembled_urlMessage url)
  have hbuilt : buildUDSMessageFromQueueTask { urlTask url with payload := some (withLayout (urlPayload url)) } =
      .ok (urlMessage url) :=
    buildUDSMessageFromQueueTask_eq_ok.mpr ⟨⟨h₁, h₂, h₃, h₄, h₅, h₆, h₇, h₈, h₉, h₁₀, h₁₁, h₁₂, h₁₃⟩, hmessage⟩
  exact ⟨⟨urlTask url, _, urlMessage url, "a1", hvalid, hbuilt, .inr rfl⟩, rfl, rfl⟩

theorem outputURL_le_line (s : Sent) : s.message.outputURL.length ≤ s.line.length := by
  by_cases h : s.message.outputURL = ""
  · simp [h]
  · have hmem : ("output_url", Json.str s.message.outputURL) ∈ jsonFields { s.message with taskID := s.taskID } := by
      simp [jsonFields, omitEmpty, h]
    have hle : fieldLength ("output_url", .str s.message.outputURL) ≤
        fieldsLength (jsonFields { s.message with taskID := s.taskID }) := List.le_sum_of_mem (List.mem_map_of_mem hmem)
    have hstr := le_length_marshalString s.message.outputURL
    simp only [fieldLength, encode] at hle
    rw [Sent.line, Wire.length_line]
    omega

/-- 録画の長い宛先は、検査を通り、行の上限を超える。 -/
theorem not_withinLimit :
    ∃ s : Sent, s.task = urlTask (String.ofList (List.replicate 65537 'a')) ∧ ¬WithinLimit [s] := by
  obtain ⟨s, htask, hmessage⟩ := exists_sent_urlTask (String.ofList (List.replicate 65537 'a'))
  have hlength : s.message.outputURL.length = 65537 := by
    rw [hmessage, urlMessage, ← String.length_toList, String.toList_ofList, List.length_replicate]
  refine ⟨s, htask, fun h => ?_⟩
  have hfits := h.1 s (by simp)
  have hlong := outputURL_le_line s
  simp only [maxMessageSize] at hfits
  omega

end RtcEgress.Wire
