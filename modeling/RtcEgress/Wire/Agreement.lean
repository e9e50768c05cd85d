import RtcEgress.Wire.UDSMessage

/-!
# 二つの言語の伝言の一致

検査を通った開始の伝言では、ワーカーが読む欄の値が、Go の値と等しい。ワーカーの整数は 32 ビットで、既定の値も Go と
違うので、等しいのは検査が範囲を決めているからである。
-/

namespace RtcEgress.Wire

open RtcEgress.Lib RtcEgress.Message
open RtcEgress.Queue (Task)

/-- 32 ビットの整数に収まる。 -/
def Fits32 (n : Int) : Prop := -2147483648 ≤ n ∧ n ≤ 2147483647

instance (n : Int) : Decidable (Fits32 n) := inferInstanceAs (Decidable (_ ∧ _))

theorem receivedInt_eq {n : Int} (h : Fits32 n) : receivedInt n = n := by
  obtain ⟨hlo, hhi⟩ := h
  have h64 : inInt64 n = true := by
    simp only [inInt64, Bool.and_eq_true, decide_eq_true_eq]
    omega
  have htruncate : truncate (n : Rat) = n := by simp [truncate, h64]
  rw [receivedInt, htruncate]
  exact Int.bmod_eq_of_le (by omega) (by omega)

/-- 領域を、そのままワーカーの形に移した値。 -/
def sameRegion (r : Message.LayoutRegion) : Worker.LayoutRegion := ⟨r.uid, r.x, r.y, r.width, r.height, r.z⟩

/-- ワーカーが使う欄の値が等しい。 -/
structure Agrees (m : Message.UDSMessage) (w : UDSMessage) : Prop where
  cmd : w.cmd = m.cmd
  action : w.action = m.action
  layout : w.layout = m.layout
  uid : w.uid = m.uid
  channel : w.channel = m.channel
  accessToken : w.accessToken = m.accessToken
  workerUid : w.workerUid = m.workerUid
  intervalInMs : w.intervalInMs = m.intervalInMs
  videoDecodeMode : w.videoDecodeMode = m.videoDecodeMode
  regions : w.regions = m.regions.map sameRegion
  width : w.width = m.width
  height : w.height = m.height
  stream : isStreamCmd m.cmd = true → w.outputUrl = m.outputURL ∧ w.outputToken = m.outputToken ∧
    w.outputTimeoutMs = m.outputTimeoutMs ∧ w.outputReconnectAttempts = m.outputReconnectAttempts ∧
    w.outputReconnectDelayMs = m.outputReconnectDelayMs

/-! ## 検査した範囲 -/

theorem fits32_of_sized {n : Int} (h : Sized n) : Fits32 n := by
  unfold Sized at h
  unfold Fits32
  omega

theorem receivedRegion_eq {width height : Int} {r : Message.LayoutRegion} (h : r.Fits width height)
    (hw : width ≤ 8192) (hh : height ≤ 8192) : receivedRegion r = sameRegion r := by
  obtain ⟨-, ⟨hx, hy⟩, ⟨hwidth, hheight⟩, hright, hbottom, -, hz⟩ := h
  have hx' : receivedInt r.x = r.x := receivedInt_eq ⟨by omega, by omega⟩
  have hy' : receivedInt r.y = r.y := receivedInt_eq ⟨by omega, by omega⟩
  have hwidth' : receivedInt r.width = r.width := receivedInt_eq ⟨by omega, by omega⟩
  have hheight' : receivedInt r.height = r.height := receivedInt_eq ⟨by omega, by omega⟩
  simp only [receivedRegion, sameRegion, hx', hy', hwidth', hheight', receivedInt_eq hz]

/-- 範囲にある伝言を、ワーカーはそのまま読む。 -/
theorem receivedMessage_agrees {m : Message.UDSMessage} (hm : StartMessage m) (hl : m.layout ≠ "freestyle")
    (hworker : 1 ≤ m.workerUid ∧ m.workerUid ≤ 999999999) (hinterval : 1000 ≤ m.intervalInMs ∧ m.intervalInMs ≤ 300000) :
    Agrees m (receivedMessage m) := by
  have hnative := (validateNativeLayout_eq_none hl).mp hm.native
  obtain ⟨hlo, hhi⟩ := hm.decodeMode
  refine {
    cmd := rfl, action := rfl, layout := rfl, uid := rfl, channel := rfl, accessToken := rfl
    workerUid := receivedInt_eq ⟨by omega, by omega⟩
    intervalInMs := receivedInt_eq ⟨by omega, by omega⟩
    videoDecodeMode := receivedInt_eq ⟨by omega, by omega⟩
    regions := List.map_congr_left fun r hr =>
      receivedRegion_eq (hnative.regions r hr) (canvasSize_le hnative.width) (canvasSize_le hnative.height)
    width := receivedInt_eq (fits32_of_sized hnative.width)
    height := receivedInt_eq (fits32_of_sized hnative.height)
    stream := fun hs => ?_ }
  have hstream := (validateStreamOutput_eq_none hs).mp hm.stream
  obtain ⟨htimeoutLo, htimeoutHi⟩ : 1000 ≤ m.outputTimeoutMs ∧ m.outputTimeoutMs ≤ 30000 := hstream.timeout
  obtain ⟨hattemptsLo, hattemptsHi⟩ : 0 ≤ m.outputReconnectAttempts ∧ m.outputReconnectAttempts ≤ 20 := hstream.attempts
  obtain ⟨hdelayLo, hdelayHi⟩ : 100 ≤ m.outputReconnectDelayMs ∧ m.outputReconnectDelayMs ≤ 10000 := hstream.delay
  refine ⟨rfl, rfl, ?_, receivedInt_eq ⟨by omega, by omega⟩, receivedInt_eq ⟨by omega, by omega⟩⟩
  -- 零でないので、省かれずに届く
  simp only [receivedMessage]
  rw [if_neg (by omega)]
  exact receivedInt_eq ⟨by omega, by omega⟩

/-- 検査を通った開始の記録の伝言を、ワーカーは同じ値に読む。 -/
theorem fromJson_agrees {task task' : Task} {m : Message.UDSMessage} (ha : task.action = "start")
    (ht : validateRedisTask task = .ok task') (hm : buildUDSMessageFromQueueTask task' = .ok m)
    (hl : m.layout ≠ "freestyle") (taskID : String) :
    ∃ w, fromJson (sendUDSMessageToWorker taskID m) = some w ∧ Agrees m w := by
  obtain ⟨payload, haccepted, hassembled, hstart⟩ := exists_accepted_of_built ha ht hm
  obtain ⟨hworker, hinterval⟩ := hassembled.ranges ha haccepted
  have h := receivedMessage_agrees hstart hl hworker hinterval
  exact ⟨_, fromJson_marshal _, ⟨h.cmd, h.action, h.layout, h.uid, h.channel, h.accessToken, h.workerUid,
    h.intervalInMs, h.videoDecodeMode, h.regions, h.width, h.height, h.stream⟩⟩

/-- 一つの領域を配信する記録。 -/
def streamTask : Task := .published "a1" "rtmp" "start" "c1" "r1" (some [("channel", .str "c1"),
  ("access_token", .str "0123456789"), ("workerUid", .num 42), ("layout", .str "customized"), ("width", .num 640),
  ("regions", .arr [.obj [("uid", .str "alice"), ("width", .num 640), ("height", .num 360), ("z", .num (-1))]]),
  ("output_url", .str "rtmp://127.0.0.1/live")]) 0

theorem streamTask_agrees : ∃ task' m, validateRedisTask streamTask = .ok task' ∧
    buildUDSMessageFromQueueTask task' = .ok m ∧
    ∃ w, fromJson (sendUDSMessageToWorker "a1" m) = some w ∧ Agrees m w := by
  obtain ⟨task', ht⟩ : ∃ task', validateRedisTask streamTask = .ok task' := ⟨_, rfl⟩
  obtain ⟨m, hm, hl⟩ : ∃ m, buildUDSMessageFromQueueTask task' = .ok m ∧ m.layout ≠ "freestyle" := by
    cases ht
    exact ⟨_, rfl, by decide⟩
  exact ⟨task', m, ht, hm, fromJson_agrees rfl ht hm hl "a1"⟩

end RtcEgress.Wire
