import RtcEgress.Message.Protocol

/-!
# 受け入れた要求と、組み立てた伝言

検査を通った要求の条件をまとめ、検査が書き換えた写像でも、読み取る値が変わらないことを示す。
-/

namespace RtcEgress.Message

open RtcEgress.Lib RtcEgress.Queue

theorem bind_eq_ok {α β ε : Type} {x : Except ε α} {f : α → Except ε β} {b : β} :
    x >>= f = .ok b ↔ ∃ a, x = .ok a ∧ f a = .ok b := by
  cases x <;> simp [Bind.bind, Except.bind]

theorem ite_some_eq_none {p : Prop} [Decidable p] {e : String} {x : Option String} :
    (if p then some e else x) = none ↔ ¬p ∧ x = none := by
  split <;> simp [*]

/-! ## 書き換えた写像 -/

section
variable {payload : Payload} {key name : String} {value : Json}

@[simp] theorem lookup_setKey_self : (setKey payload key value).lookup key = some value := by
  simp [setKey]

theorem lookup_filter_ne (h : name ≠ key) : (payload.filter (·.1 != key)).lookup name = payload.lookup name := by
  induction payload with
  | nil => rfl
  | cons e es ih =>
      obtain ⟨k, v⟩ := e
      by_cases hk : k = key
      · subst hk
        simpa [List.lookup_cons, beq_false_of_ne h] using ih
      · simp [List.lookup_cons, hk, ih]

theorem lookup_setKey_ne (h : name ≠ key) : (setKey payload key value).lookup name = payload.lookup name := by
  rw [setKey, List.lookup_cons, beq_false_of_ne h]
  exact lookup_filter_ne h

theorem lookup_withLayout (h : name ≠ "layout") : (withLayout payload).lookup name = payload.lookup name :=
  lookup_setKey_ne h

theorem chosenLayout_ne : chosenLayout payload ≠ "" := by
  unfold chosenLayout
  split
  · split_ifs with h
    · decide
    · exact h
  · decide

theorem chosenLayout_withLayout : chosenLayout (withLayout payload) = chosenLayout payload := by
  have h : (withLayout payload).str? "layout" = some (chosenLayout payload) := by
    simp [withLayout, Payload.str?]
  rw [chosenLayout, h]
  simp [chosenLayout_ne]

theorem str?_withLayout (h : name ≠ "layout") : (withLayout payload).str? name = payload.str? name := by
  simp only [Payload.str?, lookup_withLayout h]

theorem value?_withLayout (h : name ≠ "layout") : value? (withLayout payload) name = value? payload name := by
  simp only [value?, lookup_withLayout h]

theorem readField_withLayout {α : Type} {default : α} {read : Json → Option α} (h : name ≠ "layout") :
    readField (withLayout payload) name default read = readField payload name default read := by
  simp only [readField, lookup_withLayout h]

theorem readNativeLayout_withLayout : readNativeLayout (withLayout payload) = readNativeLayout payload := by
  simp (disch := decide) only [readNativeLayout, readField_withLayout]

theorem readStreamOutput_withLayout : readStreamOutput (withLayout payload) = readStreamOutput payload := by
  simp (disch := decide) only [readStreamOutput, readField_withLayout]

theorem usersField_withLayout : usersField (withLayout payload) = usersField payload := by
  simp (disch := decide) only [usersField, value?_withLayout]

theorem canvasURL_withLayout : canvasURL (withLayout payload) = canvasURL payload := by
  simp (disch := decide) only [canvasURL, str?_withLayout]

theorem checkStartPayload_withLayout {cmd action layout : String} :
    checkStartPayload cmd action layout (withLayout payload) = checkStartPayload cmd action layout payload := by
  simp (disch := decide) only [checkStartPayload, checkStreamOutput, checkNativeLayout, readStreamOutput_withLayout,
    readNativeLayout_withLayout, lookup_withLayout, usersField_withLayout]

theorem checkTaskRequest_withLayout {r : TaskRequest} :
    checkTaskRequest r (withLayout payload) = checkTaskRequest r payload := by
  simp (disch := decide) only [checkTaskRequest, chosenLayout_withLayout, canvasURL_withLayout, usersField_withLayout,
    requireFields, requireField, requireWorkerUid, value?_withLayout]

theorem assembleUDSMessage_withLayout {task : Task} :
    assembleUDSMessage task (withLayout payload) = assembleUDSMessage task payload := by
  simp (disch := decide) only [assembleUDSMessage, buildChannel, buildAccessToken, buildWorkerUid, buildInterval,
    readNumber, buildTaskID, buildUid, buildVideoDecodeMode, lookup_withLayout, readNativeLayout_withLayout,
    readStreamOutput_withLayout, chosenLayout_withLayout, canvasURL_withLayout, str?_withLayout, value?_withLayout]

end

/-! ## 開始の要求 -/

/-- 検査を通った開始の要求。 -/
structure StartAccepted (requestID cmd : String) (payload : Payload) : Prop where
  request : validateRequestID requestID = none
  supported : cmd ∈ validCmds
  layout : chosenLayout payload ∈ validLayouts
  canvas : validateCanvasURL (canvasURL payload) = none
  userCount : validateUserCount (usersField payload) = none
  hasChannel : requireField payload "channel" = none
  hasToken : requireField payload "access_token" = none
  hasWorkerUid : requireWorkerUid payload = none
  stream : checkStreamOutput cmd (chosenLayout payload) payload = none
  native : chosenLayout payload ≠ "freestyle" → checkNativeLayout (chosenLayout payload) payload = none
  channel : validateChannel (payload.lookup "channel") = none
  token : validateToken (payload.lookup "access_token") = none
  workerUid : validateWorkerUid (payload.lookup "workerUid") = none
  interval : validateInterval (payload.lookup "interval_in_ms") = none
  users : validateUsers (usersField payload) = none

theorem validateTaskRequest_eq_ok {r r' : TaskRequest} :
    validateTaskRequest r = .ok r' ↔ checkTaskRequest r (r.payload.getD []) = none ∧
      r' = { r with payload := some (withLayout (r.payload.getD [])) } := by
  cases hcheck : checkTaskRequest r (r.payload.getD []) with
  | none => simp [validateTaskRequest, hcheck, eq_comm]
  | some e => simp [validateTaskRequest, hcheck]

theorem validateStartTaskRequest_eq_ok {r r' : TaskRequest} :
    validateStartTaskRequest r = .ok r' ↔ checkTaskRequest r (r.payload.getD []) = none ∧
      checkStartPayload r.cmd r.action (chosenLayout (r.payload.getD [])) (r.payload.getD []) = none ∧
      r' = { r with payload := some (withLayout (r.payload.getD [])) } := by
  unfold validateStartTaskRequest
  rw [bind_eq_ok]
  constructor
  · rintro ⟨r₁, hr₁, h⟩
    obtain ⟨hcheck, rfl⟩ := validateTaskRequest_eq_ok.mp hr₁
    simp only [Option.getD_some, chosenLayout_withLayout, checkStartPayload_withLayout] at h
    split at h
    · cases h
    case h_2 hstart =>
      cases h
      exact ⟨hcheck, hstart, rfl⟩
  · intro ⟨hcheck, hstart, hr'⟩
    refine ⟨_, validateTaskRequest_eq_ok.mpr ⟨hcheck, rfl⟩, ?_⟩
    simp only [Option.getD_some, chosenLayout_withLayout, checkStartPayload_withLayout, hstart, hr']
    rfl

theorem startAccepted_iff {r : TaskRequest} {payload : Payload} (ha : r.action = "start") :
    checkTaskRequest r payload = none ∧ checkStartPayload r.cmd r.action (chosenLayout payload) payload = none ↔
      StartAccepted r.requestID r.cmd payload := by
  have hvalid : "start" ∈ validActions := by decide
  simp only [checkTaskRequest, checkStartPayload, requireFields, ha, hvalid, Option.or_eq_none_iff, ite_some_eq_none,
    not_not, not_true_eq_false, not_false_eq_true, true_and, if_true]
  constructor
  · rintro ⟨⟨hid, hcmd, hlayout, ⟨hcanvas, hcount⟩, ⟨hhasChannel, hhasToken⟩, hhasWorker⟩, ⟨hstream, hnative⟩,
      ⟨hchannel, htoken⟩, ⟨hworker, hinterval⟩, husers⟩
    exact ⟨hid, hcmd, hlayout, hcanvas, hcount, hhasChannel, hhasToken, hhasWorker, hstream,
      fun hl => by simpa [hl] using hnative, hchannel, htoken, hworker, hinterval, husers⟩
  · intro h
    refine ⟨⟨h.request, h.supported, h.layout, ⟨h.canvas, h.userCount⟩, ⟨h.hasChannel, h.hasToken⟩, h.hasWorkerUid⟩,
      ⟨h.stream, ?_⟩, ⟨h.channel, h.token⟩, ⟨h.workerUid, h.interval⟩, h.users⟩
    split_ifs with hl
    · exact h.native hl
    · rfl

theorem validateStartTaskRequest_start {r r' : TaskRequest} (ha : r.action = "start") :
    validateStartTaskRequest r = .ok r' ↔ StartAccepted r.requestID r.cmd (r.payload.getD []) ∧
      r' = { r with payload := some (withLayout (r.payload.getD [])) } := by
  rw [validateStartTaskRequest_eq_ok, ← and_assoc, startAccepted_iff ha]

/-- 取り出した開始の記録の検査。 -/
theorem validateRedisTask_start {task task' : Task} {payload : Payload} (ha : task.action = "start")
    (hp : task.payload = some payload) :
    validateRedisTask task = .ok task' ↔ validateTaskFields task = none ∧
      StartAccepted task.requestID task.cmd payload ∧ task' = { task with payload := some (withLayout payload) } := by
  have hsome : task.action = "start" ∧ task.payload.isSome := ⟨ha, by simp [hp]⟩
  simp only [validateRedisTask, if_pos hsome]
  constructor
  · intro h
    split at h
    · cases h
    case h_2 hfields =>
      split at h
      · cases h
      case h_2 r hr =>
        obtain ⟨haccepted, rfl⟩ := (validateStartTaskRequest_start ha).mp hr
        simp only [requestOf, hp, Option.getD_some, Except.ok.injEq] at haccepted h
        exact ⟨hfields, haccepted, h.symm⟩
  · intro ⟨hfields, haccepted, htask⟩
    have haccepted' : StartAccepted (requestOf task).requestID (requestOf task).cmd ((requestOf task).payload.getD []) := by
      simpa [requestOf, hp] using haccepted
    simp only [hfields, (validateStartTaskRequest_start ha).mpr ⟨haccepted', rfl⟩, htask]
    simp [requestOf, hp]

/-! ## 数の欄 -/

section
variable {payload : Payload} {requestID cmd : String}

theorem startAccepted_withLayout :
    StartAccepted requestID cmd (withLayout payload) ↔ StartAccepted requestID cmd payload := by
  have hiff : ∀ p, _ ↔ StartAccepted requestID cmd p :=
    fun p => startAccepted_iff (r := ⟨requestID, cmd, "start", "", none⟩) rfl
  rw [← hiff, ← hiff, checkTaskRequest_withLayout, checkStartPayload_withLayout, chosenLayout_withLayout]

theorem StartAccepted.workerUid_num (h : StartAccepted requestID cmd payload) :
    ∃ q, payload.lookup "workerUid" = some (.num q) ∧ 1 ≤ truncate q ∧ truncate q ≤ 999999999 := by
  have hhas := h.hasWorkerUid
  have hrange := h.workerUid
  unfold requireWorkerUid value? at hhas
  cases hv : payload.lookup "workerUid" with
  | none => simp [hv] at hhas
  | some v =>
      cases v with
      | num q =>
          simp only [hv, validateWorkerUid, ite_some_eq_none] at hrange
          simp only [intOf] at hrange
          exact ⟨q, rfl, by omega⟩
      | _ => simp [hv] at hhas

theorem StartAccepted.interval_num (h : StartAccepted requestID cmd payload) {v : Json}
    (hv : payload.lookup "interval_in_ms" = some v) :
    ∃ q, v = .num q ∧ 1000 ≤ truncate q ∧ truncate q ≤ 300000 := by
  have hrange := h.interval
  cases v with
  | num q =>
      simp only [hv, validateInterval, ite_some_eq_none] at hrange
      simp only [intOf] at hrange
      exact ⟨q, rfl, by omega⟩
  | _ => simp [hv, validateInterval, intOf] at hrange

/-! ## 検査した設定 -/

theorem checkStreamOutput_eq_none {layout : String} :
    checkStreamOutput cmd layout payload = none ↔
      ∃ s, readStreamOutput payload = .ok s ∧ validateStreamOutput cmd layout s = none := by
  unfold checkStreamOutput
  cases readStreamOutput payload <;> simp

theorem checkNativeLayout_eq_none {layout : String} :
    checkNativeLayout layout payload = none ↔
      ∃ n, readNativeLayout payload = .ok n ∧ validateNativeLayout layout n = none := by
  unfold checkNativeLayout
  cases readNativeLayout payload <;> simp

theorem StartAccepted.buildUid_length (h : StartAccepted requestID cmd payload) : (buildUid payload).length ≤ 32 := by
  have hcount := h.userCount
  unfold usersField at hcount
  unfold buildUid
  cases hu : value? payload "users" with
  | none => simp
  | some v =>
      cases v with
      | arr xs =>
          simp only [hu, Option.some_or, validateUserCount, ite_some_eq_none] at hcount
          have hle : (uidOf (.arr xs)).length ≤ xs.length := List.length_filterMap_le _ _
          simp only [Option.map_some, Option.getD_some]
          omega
      | str s => by_cases he : s = "" <;> simp [uidOf, he]
      | _ => simp [uidOf]

theorem StartAccepted.buildInterval_eq (h : StartAccepted requestID cmd payload) :
    ∃ n, buildInterval "start" payload = .ok n ∧ 1000 ≤ n ∧ n ≤ 300000 := by
  unfold buildInterval readNumber
  cases hv : payload.lookup "interval_in_ms" with
  | none => exact ⟨20000, rfl, by omega, by omega⟩
  | some v =>
      obtain ⟨q, rfl, hlo, hhi⟩ := h.interval_num hv
      refine ⟨truncate q, ?_, hlo, hhi⟩
      have hne : truncate q ≠ 0 := by omega
      simp [bind, Except.bind, hne]

theorem StartAccepted.buildWorkerUid_eq (h : StartAccepted requestID cmd payload) :
    ∃ n, buildWorkerUid "start" payload = .ok n ∧ 1 ≤ n ∧ n ≤ 999999999 := by
  obtain ⟨q, hv, hlo, hhi⟩ := h.workerUid_num
  exact ⟨truncate q, by simp [buildWorkerUid, readNumber, hv, bind, Except.bind], hlo, hhi⟩

end

/-! ## 組み立てた伝言 -/

/-- 伝言の各欄を、記録と写像から読んだ。 -/
structure Assembled (task : Task) (payload : Payload) (m : UDSMessage) : Prop where
  taskID : m.taskID = buildTaskID task payload
  cmd : m.cmd = task.cmd
  action : m.action = task.action
  layout : m.layout = chosenLayout payload
  canvas : m.freestyleCanvasUrl = canvasURL payload
  uid : m.uid = buildUid payload
  channel : buildChannel task payload = .ok m.channel
  token : buildAccessToken task.action payload = .ok m.accessToken
  workerUid : buildWorkerUid task.action payload = .ok m.workerUid
  interval : buildInterval task.action payload = .ok m.intervalInMs
  decodeMode : m.videoDecodeMode = buildVideoDecodeMode payload
  native : readNativeLayout payload = .ok m.nativeLayout
  stream : readStreamOutput payload = .ok m.streamOutput

section
variable {task : Task} {payload : Payload} {m : UDSMessage}

theorem assembleUDSMessage_eq_ok : assembleUDSMessage task payload = .ok m ↔ Assembled task payload m := by
  simp only [assembleUDSMessage, bind_eq_ok]
  constructor
  · rintro ⟨channel, hchannel, token, htoken, workerUid, hworker, interval, hinterval, native, hnative, stream, hstream, h⟩
    cases h
    exact ⟨rfl, rfl, rfl, rfl, rfl, rfl, hchannel, htoken, hworker, hinterval, rfl, hnative, hstream⟩
  · intro h
    refine ⟨_, h.channel, _, h.token, _, h.workerUid, _, h.interval, _, h.native, _, h.stream, ?_⟩
    obtain ⟨hid, hcmd, haction, hlayout, hcanvas, huid, _, _, _, _, hmode, _, _⟩ := h
    cases m
    simp_all [UDSMessage.nativeLayout, UDSMessage.streamOutput, pure, Except.pure]

theorem buildUDSMessageFromQueueTask_eq_ok :
    buildUDSMessageFromQueueTask task = .ok m ↔
      Assembled task (task.payload.getD []) m ∧ validateUDSMessage m = none := by
  simp only [buildUDSMessageFromQueueTask, bind_eq_ok, assembleUDSMessage_eq_ok]
  constructor
  · rintro ⟨m', hm', h⟩
    split at h
    · cases h
    case h_2 hvalid =>
      cases h
      exact ⟨hm', hvalid⟩
  · rintro ⟨hm, hvalid⟩
    exact ⟨m, hm, by simp [hvalid, pure, Except.pure]⟩

/-- 検査が写像を書き換えても、同じ伝言を組み立てる。 -/
theorem assembled_withLayout : Assembled task (withLayout payload) m ↔ Assembled task payload m := by
  rw [← assembleUDSMessage_eq_ok, ← assembleUDSMessage_eq_ok, assembleUDSMessage_withLayout]

/-- 検査を通った開始の伝言。 -/
structure StartMessage (m : UDSMessage) : Prop where
  supported : m.cmd ∈ validCmds
  layout : m.layout ∈ validLayouts
  canvas : validateCanvasURL m.freestyleCanvasUrl = none
  userCount : m.uid.length ≤ 32
  stream : validateStreamOutput m.cmd m.layout m.streamOutput = none
  native : validateNativeLayout m.layout m.nativeLayout = none
  channel : m.channel ≠ ""
  token : m.accessToken ≠ ""
  workerUid : m.workerUid ≠ 0
  decodeMode : -1 ≤ m.videoDecodeMode ∧ m.videoDecodeMode ≤ 2

theorem validateUDSMessage_start (ha : m.action = "start") : validateUDSMessage m = none ↔ StartMessage m := by
  have hvalid : "start" ∈ validActions := by decide
  simp only [validateUDSMessage, validateStartMessage, ha, hvalid, ite_some_eq_none, Option.or_eq_none_iff, not_not,
    not_true_eq_false, not_false_eq_true, true_and, if_true, and_true]
  constructor
  · rintro ⟨hcmd, hlayout, hcanvas, hcount, ⟨⟨hstream, hnative⟩, hchannel, htoken, hworker⟩, hmode⟩
    exact ⟨hcmd, hlayout, hcanvas, by omega, hstream, hnative, hchannel, htoken, hworker, by omega⟩
  · intro h
    exact ⟨h.supported, h.layout, h.canvas, by have := h.userCount; omega,
      ⟨⟨h.stream, h.native⟩, h.channel, h.token, h.workerUid⟩, by have := h.decodeMode; omega⟩

/-- 検査を通った記録から、組み立てた伝言。 -/
structure Built (task : Task) (m : UDSMessage) : Prop where
  fields : validateTaskFields task = none
  assembled : Assembled task (task.payload.getD []) m
  valid : validateUDSMessage m = none
  start : task.action = "start" → StartAccepted task.requestID task.cmd (task.payload.getD [])

theorem built_of_accepted {task' : Task} (ht : validateRedisTask task = .ok task')
    (hm : buildUDSMessageFromQueueTask task' = .ok m) : Built task m := by
  obtain ⟨hassembled, hvalid⟩ := buildUDSMessageFromQueueTask_eq_ok.mp hm
  by_cases hp : task.action = "start" ∧ task.payload.isSome
  · obtain ⟨ha, hp⟩ := hp
    obtain ⟨payload, hp⟩ := Option.isSome_iff_exists.mp hp
    obtain ⟨hfields, haccepted, rfl⟩ := (validateRedisTask_start ha hp).mp ht
    have h : Assembled { task with payload := some (withLayout payload) } payload m := assembled_withLayout.mp hassembled
    have hpayload : task.payload.getD [] = payload := by simp [hp]
    exact ⟨hfields, hpayload ▸ ⟨h.taskID, h.cmd, h.action, h.layout, h.canvas, h.uid, h.channel, h.token, h.workerUid,
      h.interval, h.decodeMode, h.native, h.stream⟩, hvalid, fun _ => hpayload ▸ haccepted⟩
  · unfold validateRedisTask at ht
    split at ht
    · cases ht
    case h_2 hfields =>
      rw [if_neg hp] at ht
      cases ht
      refine ⟨hfields, hassembled, hvalid, fun ha => ?_⟩
      -- 中身のない開始の記録には、トークンがない
      have htoken := hassembled.token
      have hnone : task.payload = none := by simpa [ha] using hp
      simp [hnone, ha, buildAccessToken] at htoken

/-- 検査を通った開始の記録から組み立てた伝言。 -/
theorem exists_accepted_of_built {task' : Task} (ha : task.action = "start") (ht : validateRedisTask task = .ok task')
    (hm : buildUDSMessageFromQueueTask task' = .ok m) :
    ∃ payload, StartAccepted task.requestID task.cmd payload ∧ Assembled task payload m ∧ StartMessage m := by
  have h := built_of_accepted ht hm
  exact ⟨_, h.start ha, h.assembled, (validateUDSMessage_start (h.assembled.action.trans ha)).mp h.valid⟩

/-- 開始の伝言の数は、検査した範囲にある。 -/
theorem Assembled.ranges {requestID cmd : String} (h : Assembled task payload m) (ha : task.action = "start")
    (haccepted : StartAccepted requestID cmd payload) :
    (1 ≤ m.workerUid ∧ m.workerUid ≤ 999999999) ∧ 1000 ≤ m.intervalInMs ∧ m.intervalInMs ≤ 300000 := by
  obtain ⟨workerUid, hworker, hworkerRange⟩ := haccepted.buildWorkerUid_eq
  obtain ⟨interval, hinterval, hintervalRange⟩ := haccepted.buildInterval_eq
  have hworker' := h.workerUid
  have hinterval' := h.interval
  rw [ha, hworker] at hworker'
  rw [ha, hinterval] at hinterval'
  cases hworker'
  cases hinterval'
  exact ⟨hworkerRange, hintervalRange⟩

end

end RtcEgress.Message
