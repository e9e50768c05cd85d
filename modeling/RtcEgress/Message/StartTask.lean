import RtcEgress.Lib.Utf8
import RtcEgress.Message.Lemmas.Accepted

/-!
# API サーバーの `startTask` とポッド

受け付けた要求から公開された記録を、ポッドが検査し、伝言に組み立てる。記録は JSON として保存され、読み直した値は
変わらない。トークンの型とデコードの方式は、受け付けるときには検査されない。
-/

namespace RtcEgress.Message

open RtcEgress.Lib RtcEgress.Queue

/-! ## 受け付け -/

/-- `startTask` のうち、`PublishTaskToRegion` に渡す要求とチャンネルを決めるまで。エラーは応答の文である。 -/
def startTask (appID : String) (r : TaskRequest) : Except String (TaskRequest × String) :=
  if appID = "" then .error "app_id is required"
  else match r.payload with
    | none => .error "payload is required"
    | some payload =>
        let payload := setKey payload "app_id" (.str appID)
        if chosenLayout payload ∉ validLayouts then .error ("invalid layout: " ++ chosenLayout payload)
        else if chosenLayout payload = "freestyle" ∧ (value? payload "web_recorder").isNone then
          .error "freestyle layout requires web_recorder configuration in payload"
        else match validateStartTaskRequest { r with action := "start", payload := some payload } with
          | .error e => .error ("validation failed: " ++ e)
          | .ok r =>
              let channel := ((r.payload.getD []).str? "channel").getD ""
              if channel = "" then .error "channel is required in payload" else .ok (r, channel)

/-- `generateTaskID`。SHA-256 の始めの 8 バイトを十六進で書く。 -/
def taskIDOf (hash : Vector UInt8 32) : String :=
  String.ofList ((hash.toList.take 8).flatMap fun b => [Nat.digitChar (b.toNat / 16), Nat.digitChar (b.toNat % 16)])

/-- 記録を、ポッドが検査し、伝言に組み立てる。 -/
def Runs (task : Task) : Prop :=
  ∃ task' m, validateRedisTask task = .ok task' ∧ buildUDSMessageFromQueueTask task' = .ok m

/-- トークンが文字列であり、デコードの方式が、数ならば範囲にある。 -/
def PodReads (payload : Payload) : Prop :=
  (∃ token, payload.lookup "access_token" = some (.str token)) ∧
    ∀ q, payload.lookup "videoDecodeMode" = some (.num q) → -1 ≤ truncate q ∧ truncate q ≤ 2

/-! ## タスクの名前 -/

theorem isTaskIDChar_digitChar {n : Nat} (h : n < 16) :
    isTaskIDChar (Nat.digitChar n) = true ∧ (Nat.digitChar n).utf8Size = 1 := by
  revert n
  decide

theorem validateTaskID_taskIDOf (hash : Vector UInt8 32) : validateTaskID (taskIDOf hash) = none := by
  have hchars : ∀ c ∈ (taskIDOf hash).toList, isTaskIDChar c = true ∧ c.utf8Size = 1 := by
    intro c hc
    simp only [taskIDOf, String.toList_ofList, List.mem_flatMap, List.mem_cons, List.not_mem_nil, or_false] at hc
    obtain ⟨b, -, rfl | rfl⟩ := hc
    · exact isTaskIDChar_digitChar (by have := b.toNat_lt; omega)
    · exact isTaskIDChar_digitChar (by omega)
  have hlength : (taskIDOf hash).toList.length = 16 := by
    simp [taskIDOf]
  have hsize : (taskIDOf hash).utf8ByteSize = 16 := by
    rw [utf8ByteSize_eq_sum, List.map_congr_left fun c hc => (hchars c hc).2]
    simpa using hlength
  have hne : taskIDOf hash ≠ "" := by
    intro h
    simp [h] at hlength
  simp only [validateTaskID, if_neg hne, hsize]
  simp only [show ¬64 < 16 by decide, if_false]
  rw [if_pos (List.all_eq_true.mpr fun c hc => (hchars c hc).1)]

/-! ## 受け付けた要求 -/

section
variable {appID channel : String} {r r' : TaskRequest}

/-- 受け付けた要求。中身に `app_id` が加わる。 -/
theorem startTask_eq_ok (h : startTask appID r = .ok (r', channel)) : ∃ payload, r.payload = some payload ∧
    StartAccepted r.requestID r.cmd (setKey payload "app_id" (.str appID)) ∧
    r' = { r with action := "start", payload := some (withLayout (setKey payload "app_id" (.str appID))) } ∧
    (setKey payload "app_id" (.str appID)).lookup "channel" = some (.str channel) ∧ channel ≠ "" := by
  unfold startTask at h
  split_ifs at h
  cases hp : r.payload with
  | none => simp [hp] at h
  | some payload =>
      simp only [hp] at h
      split_ifs at h with hl hw
      split at h
      · cases h
      case h_2 r₁ hr₁ =>
        obtain ⟨haccepted, rfl⟩ := (validateStartTaskRequest_start rfl).mp hr₁
        simp only [Option.getD_some, str?_withLayout (show "channel" ≠ "layout" by decide)] at h haccepted
        split_ifs at h with hc
        simp only [Except.ok.injEq, Prod.mk.injEq] at h
        obtain ⟨rfl, rfl⟩ := h
        refine ⟨payload, rfl, haccepted, rfl, ?_, hc⟩
        unfold Payload.str? at hc ⊢
        split at hc <;> simp_all

theorem chosenLayout_setKey (payload : Payload) {key : String} (value : Json) (h : "layout" ≠ key) :
    chosenLayout (setKey payload key value) = chosenLayout payload := by
  simp only [chosenLayout, Payload.str?, lookup_setKey_ne h]

theorem podReads_setKey (payload : Payload) (value : Json) :
    PodReads (setKey payload "app_id" value) ↔ PodReads payload := by
  simp (disch := decide) only [PodReads, lookup_setKey_ne]

theorem buildVideoDecodeMode_range {payload : Payload} :
    (-1 ≤ buildVideoDecodeMode payload ∧ buildVideoDecodeMode payload ≤ 2) ↔
      ∀ q, payload.lookup "videoDecodeMode" = some (.num q) → -1 ≤ truncate q ∧ truncate q ≤ 2 := by
  unfold buildVideoDecodeMode
  cases payload.lookup "videoDecodeMode" with
  | none => simp
  | some v => cases v <;> simp

end

/-! ## 公開した記録 -/

/-- `PublishTaskToRegion` が公開する記録。 -/
def publishedStart (hash : Vector UInt8 32) (r : TaskRequest) (channel : String) (now : Nat) : Task :=
  .published (taskIDOf hash) r.cmd "start" channel r.requestID r.payload now

section
variable {payload : Payload} {requestID cmd channel : String}

/-- 受け付けた要求の記録は、中身を除いて検査に通る。 -/
theorem validateTaskFields_published (hash : Vector UInt8 32) (now : Nat) (h : StartAccepted requestID cmd payload)
    (hc : payload.lookup "channel" = some (.str channel)) (p : Option Payload) :
    validateTaskFields (.published (taskIDOf hash) cmd "start" channel requestID p now) = none := by
  have hchannel := h.channel
  have haction : "start" ∈ validActions := by decide
  have hrequest : requestID ≠ "" := by
    rintro rfl
    exact absurd h.request (by decide)
  simp only [hc, validateChannel, ite_some_eq_none] at hchannel
  obtain ⟨-, hlen, hchars⟩ := hchannel
  have hall : channel.toList.all isChannelChar = true := by
    by_contra hnot
    simp [hnot] at hchars
  simp [validateTaskFields, Task.published, validateTaskID_taskIDOf, h.supported, haction, hlen, hall, hrequest, h.request]

theorem StartAccepted.settings (h : StartAccepted requestID cmd payload) (hl : chosenLayout payload ≠ "freestyle") :
    ∃ n s, readNativeLayout payload = .ok n ∧ validateNativeLayout (chosenLayout payload) n = none ∧
      readStreamOutput payload = .ok s ∧ validateStreamOutput cmd (chosenLayout payload) s = none := by
  obtain ⟨n, hn, hnative⟩ := checkNativeLayout_eq_none.mp (h.native hl)
  obtain ⟨s, hs, hstream⟩ := checkStreamOutput_eq_none.mp h.stream
  exact ⟨n, s, hn, hnative, hs, hstream⟩

/-- 受け付けた要求の記録から、伝言を組み立てられる条件。 -/
theorem exists_message_iff {task : Task} (h : StartAccepted requestID cmd payload)
    (hl : chosenLayout payload ≠ "freestyle") (ha : task.action = "start") (hcmd : task.cmd = cmd)
    (hc : payload.lookup "channel" = some (.str channel)) (hne : channel ≠ "") :
    (∃ m, Assembled task payload m ∧ validateUDSMessage m = none) ↔ PodReads payload := by
  subst hcmd
  constructor
  · rintro ⟨m, hm, hvalid⟩
    have hstart := (validateUDSMessage_start (hm.action.trans ha)).mp hvalid
    refine ⟨?_, buildVideoDecodeMode_range.mp (hm.decodeMode ▸ hstart.decodeMode)⟩
    have htoken := hm.token
    simp only [buildAccessToken, ha, if_true] at htoken
    split at htoken
    case h_1 token hlookup => exact ⟨token, hlookup⟩
    all_goals cases htoken
  · rintro ⟨⟨token, htoken⟩, hmode⟩
    obtain ⟨n, s, hn, hnative, hs, hstream⟩ := h.settings hl
    obtain ⟨workerUid, hworker, hlo, -⟩ := h.buildWorkerUid_eq
    obtain ⟨interval, hinterval, -⟩ := h.buildInterval_eq
    have htokenNe : token ≠ "" := by
      rintro rfl
      have := h.hasToken
      simp [requireField, value?, htoken] at this
    let m : UDSMessage := {
      taskID := buildTaskID task payload, cmd := task.cmd, action := task.action, layout := chosenLayout payload
      freestyleCanvasUrl := canvasURL payload, uid := buildUid payload, channel, accessToken := token, workerUid
      intervalInMs := interval, videoDecodeMode := buildVideoDecodeMode payload
      regions := n.regions, width := n.width, height := n.height
      outputURL := s.destination, outputToken := s.token, outputTimeoutMs := s.timeout
      outputReconnectAttempts := s.attempts, outputReconnectDelayMs := s.delay }
    have hm : Assembled task payload m := {
      taskID := rfl, cmd := rfl, action := rfl, layout := rfl, canvas := rfl, uid := rfl, decodeMode := rfl
      channel := by simp [buildChannel, hc, hne, m, bind, Except.bind]
      token := by simp [buildAccessToken, htoken, m]
      workerUid := by simp [ha, hworker, m]
      interval := by simp [ha, hinterval, m]
      native := hn
      stream := hs }
    refine ⟨m, hm, (validateUDSMessage_start ha).mpr ?_⟩
    exact ⟨h.supported, h.layout, h.canvas, h.buildUid_length, hstream, hnative, hne, htokenNe,
      by simp only [m]; omega, buildVideoDecodeMode_range.mpr hmode⟩

end

/-- 受け付けた要求の記録をポッドが処理できるのは、トークンが文字列で、デコードの方式が範囲にあるときである。 -/
theorem published_runs_iff {appID channel : String} {r r' : TaskRequest} (h : startTask appID r = .ok (r', channel))
    (hl : chosenLayout (r.payload.getD []) ≠ "freestyle") (hash : Vector UInt8 32) (now : Nat) :
    Runs (publishedStart hash r' channel now) ↔ PodReads (r.payload.getD []) := by
  obtain ⟨payload, hp, haccepted, rfl, hc, hne⟩ := startTask_eq_ok h
  simp only [hp, Option.getD_some] at hl ⊢
  rw [← podReads_setKey payload (.str appID)]
  rw [← chosenLayout_setKey payload (.str appID) (show "layout" ≠ "app_id" by decide)] at hl
  generalize setKey payload "app_id" (.str appID) = payload at haccepted hc hl ⊢
  set task := publishedStart hash { r with action := "start", payload := some (withLayout payload) } channel now
  have hvalid : validateRedisTask task = .ok { task with payload := some (withLayout (withLayout payload)) } :=
    (validateRedisTask_start rfl rfl).mpr
      ⟨validateTaskFields_published hash now haccepted hc _, startAccepted_withLayout.mpr haccepted, rfl⟩
  have hmessage : (∃ m, Assembled { task with payload := some (withLayout (withLayout payload)) } payload m ∧
      validateUDSMessage m = none) ↔ PodReads payload := exists_message_iff haccepted hl rfl rfl hc hne
  rw [← hmessage]
  constructor
  · rintro ⟨task', m, htask, hm⟩
    cases hvalid.symm.trans htask
    obtain ⟨hassembled, hmessage⟩ := buildUDSMessageFromQueueTask_eq_ok.mp hm
    exact ⟨m, assembled_withLayout.mp (assembled_withLayout.mp hassembled), hmessage⟩
  · rintro ⟨m, hassembled, hmessage⟩
    exact ⟨_, m, hvalid, buildUDSMessageFromQueueTask_eq_ok.mpr
      ⟨assembled_withLayout.mpr (assembled_withLayout.mpr hassembled), hmessage⟩⟩

/-! ## 例 -/

/-- トークンのほかは同じ要求。 -/
def requestWithToken (token : Json) : TaskRequest where
  requestID := "r1"
  cmd := "record"
  action := ""
  payload := some [("channel", .str "c1"), ("access_token", token), ("workerUid", .num 42)]

def someHash : Vector UInt8 32 := .replicate 32 0xAB

theorem stringToken_runs : ∃ r', startTask "app" (requestWithToken (.str "0123456789")) = .ok (r', "c1") ∧
    (Runs (publishedStart someHash r' "c1" 0) ↔ PodReads [("channel", .str "c1"), ("access_token", .str "0123456789"),
      ("workerUid", .num 42)]) := by
  obtain ⟨r', hr⟩ : ∃ r', startTask "app" (requestWithToken (.str "0123456789")) = .ok (r', "c1") := ⟨_, rfl⟩
  exact ⟨r', hr, published_runs_iff hr (by decide) someHash 0⟩

/-- 数のトークンは受け付けられるが、ポッドは伝言を組み立てられない。 -/
theorem not_published_runs : ∃ r', startTask "app" (requestWithToken (.num 1234567890)) = .ok (r', "c1") ∧
    ¬Runs (publishedStart someHash r' "c1" 0) := by
  refine ⟨_, rfl, ?_⟩
  rintro ⟨task', m, htask, hm⟩
  have hfails : ((validateRedisTask (publishedStart someHash _ "c1" 0)) >>= buildUDSMessageFromQueueTask) = .ok m :=
    bind_eq_ok.mpr ⟨task', htask, hm⟩
  cases hfails

end RtcEgress.Message
