import RtcEgress.Lib.System
import RtcEgress.Passthrough.Bitstream

/-!
# `src/recording_sink.cpp` の符号化済みの映像の記録

`onEncodedVideoFrame` は、最初のキーフレームのパラメータセットから復号器の設定を作り、ファイルを開いてヘッダを書き、それからの
フレームを書く。一人の利用者の文脈を写し、音声は含まない。外の関数の結果は呼び出しごとに与え、出力への呼び出しを順に残す。
-/

namespace RtcEgress.Passthrough

open Lib

inductive VideoCodec where
  | h264 | h265 | other
  deriving DecidableEq

/-- フレームに添えられた情報。 -/
structure EncodedVideoFrameInfo where
  codecType : VideoCodec
  /-- `frameType` がキーフレームである。 -/
  keyFrame : Bool
  width : Nat
  height : Nat

/-- 出力の形式と設定。 -/
structure Output where
  /-- `AVFMT_NOFILE`。 -/
  noFile : Bool
  videoWidth : Nat
  videoHeight : Nat
  /-- ミリ秒を `videoStream->time_base` に直す。 -/
  rescale : Int → Int
  /-- 一フレームの長さ。 -/
  duration : Int

/-- 一回の呼び出しの間の、外の関数の結果。 -/
structure Outcomes where
  isRecording : Bool
  shouldRecordUser : Bool
  /-- ロックを取った後の `isRecording`。 -/
  stillRecording : Bool
  allocOutputContext : Bool
  newStream : Bool
  timestampMs : Nat
  avioOpen : Bool
  writeHeader : Bool
  packetAlloc : Bool
  malloc : Bool
  packetFromData : Bool
  writeFrame : Bool

structure PassthroughContext where
  isHevc : Bool
  width : Nat
  height : Nat
  extradata : List UInt8 := []
  headerWritten : Bool := false
  extraDataSet : Bool := false
  videoFrameCount : Nat := 0
  rtcTimeOrigin : Nat := 0
  hasTimeOrigin : Bool := false
  lastVideoPts : Int := -1

structure Packet where
  data : List UInt8
  pts : Int
  dts : Int
  duration : Int
  /-- `AV_PKT_FLAG_KEY`。 -/
  key : Bool

/-- 出力への呼び出しと、その成否。 -/
inductive Call where
  | avioOpen (ok : Bool)
  | writeHeader (extradata : List UInt8) (ok : Bool)
  /-- `frame` から作ったパケットの `av_interleaved_write_frame`。 -/
  | writeFrame (frame : Frame) (packet : Packet) (ok : Bool)

/-! ## パラメータセット -/

/-- 種類ごとに、空でない最初の単位を取る。 -/
def firstOfType (type : Nat) (nalus : List (Nat × List UInt8)) : List UInt8 :=
  nalus.foldl (fun found nalu => if nalu.1 == type && found.isEmpty then nalu.2 else found) []

/-- 大きさの二バイト。 -/
def sizeBytes (size : Nat) : List UInt8 := [UInt8.ofNat (size >>> 8), UInt8.ofNat size]

def appendHevcNaluArray (naluType : UInt8) (nalu : List UInt8) : List UInt8 :=
  [0x80 ||| naluType, 0, 1] ++ sizeBytes nalu.length ++ nalu

structure ProfileTierLevel where
  generalProfileSpace : UInt8 := 0
  generalTierFlag : UInt8 := 0
  generalProfileIdc : UInt8 := 0
  generalProfileCompatFlags : UInt32 := 0
  generalConstraintFlags : List UInt8 := List.replicate 6 0
  generalLevelIdc : UInt8 := 0

def readProfileTierLevel (sps : List UInt8) : Except Fault ProfileTierLevel :=
  if 15 < sps.length then do
    let profile ← read sps 2
    let c3 ← read sps 3
    let c4 ← read sps 4
    let c5 ← read sps 5
    let c6 ← read sps 6
    let constraint ← (List.range 6).mapM fun k => read sps (7 + k)
    let level ← read sps 13
    return {
      generalProfileSpace := (profile >>> 6) &&& 0x03
      generalTierFlag := (profile >>> 5) &&& 0x01
      generalProfileIdc := profile &&& 0x1F
      generalProfileCompatFlags := (c3.toUInt32 <<< 24) ||| (c4.toUInt32 <<< 16) ||| (c5.toUInt32 <<< 8) ||| c6.toUInt32
      generalConstraintFlags := constraint
      generalLevelIdc := level }
  else .ok {}

/-- 記録の先頭の二十三バイト。 -/
def hevcHeader (p : ProfileTierLevel) (numArrays : UInt8) : List UInt8 :=
  [(1 : UInt8), (p.generalProfileSpace <<< 6) ||| (p.generalTierFlag <<< 5) ||| p.generalProfileIdc,
    (p.generalProfileCompatFlags >>> 24).toUInt8, (p.generalProfileCompatFlags >>> 16).toUInt8,
    (p.generalProfileCompatFlags >>> 8).toUInt8, p.generalProfileCompatFlags.toUInt8] ++ p.generalConstraintFlags ++
  [p.generalLevelIdc, 0xF0, 0x00, 0xFC, 0xFD, 0xFA, 0xFA, 0x00, 0x00, 0x03, numArrays]

def hevcRecord (vps sps pps : List UInt8) : Except Fault (List UInt8) := do
  let p ← readProfileTierLevel sps
  return hevcHeader p (if vps.isEmpty then 2 else 3) ++ (if vps.isEmpty then [] else appendHevcNaluArray 32 vps) ++
    appendHevcNaluArray 33 sps ++ appendHevcNaluArray 34 pps

def avcRecord (sps pps : List UInt8) : Except Fault (List UInt8) := do
  let profile ← read sps 1
  let compat ← read sps 2
  let level ← read sps 3
  return [1, profile, compat, level, 0xFF, 0xE1] ++ sizeBytes sps.length ++ sps ++ [1] ++ sizeBytes pps.length ++ pps

/-- SPS か PPS が見つからなければ、設定はない。 -/
def decoderConfig (isHevc : Bool) (nalus : List (Nat × List UInt8)) : Except Fault (Option (List UInt8)) :=
  let sps := firstOfType (if isHevc then 33 else 7) nalus
  let pps := firstOfType (if isHevc then 34 else 8) nalus
  if sps.isEmpty || pps.isEmpty then .ok none
  else if isHevc then (hevcRecord (firstOfType 32 nalus) sps pps).map some
  else (avcRecord sps pps).map some

/-! ## フレームの処理 -/

def setupPassthroughExtradata (out : Output) (o : Outcomes) (ctx : PassthroughContext) (data : List UInt8) :
    Except Fault (Bool × PassthroughContext × List Call) := do
  let nalus ← parseAnnexBNalUnits data ctx.isHevc
  match ← decoderConfig ctx.isHevc nalus with
  | none => return (false, ctx, [])
  | some extradata =>
      let ctx := { ctx with extradata := extradata, extraDataSet := true }
      let opened := if out.noFile then [] else [.avioOpen o.avioOpen]
      if !out.noFile && !o.avioOpen then return (false, ctx, opened)
      else if !o.writeHeader then return (false, ctx, opened ++ [.writeHeader extradata false])
      else return (true, { ctx with headerWritten := true }, opened ++ [.writeHeader extradata true])

/-- 時刻を、前のフレームより後の `pts` に直す。 -/
def PassthroughContext.stamp (out : Output) (timestampMs : Nat) (ctx : PassthroughContext) : PassthroughContext :=
  let ctx := if ctx.hasTimeOrigin then ctx else { ctx with rtcTimeOrigin := timestampMs, hasTimeOrigin := true }
  let relativeMs := ((timestampMs : Int) - ctx.rtcTimeOrigin).bmod (2 ^ 64)
  let pts := out.rescale relativeMs
  { ctx with lastVideoPts := if pts ≤ ctx.lastVideoPts then ctx.lastVideoPts + 1 else pts }

/-- `static_cast<int>`。 -/
def toInt (n : Nat) : Int := (n : Int).bmod (2 ^ 32)

def writePassthroughVideoPacket (out : Output) (o : Outcomes) (ctx : PassthroughContext) (frame : Frame) (isKeyframe : Bool) :
    Except Fault (Bool × PassthroughContext × List Call) := do
  let ctx := ctx.stamp out o.timestampMs
  let avccData ← annexBToAvcc frame.data ctx.isHevc
  if avccData.isEmpty then return (false, ctx, [])
  else if !o.packetAlloc || !o.malloc then return (false, ctx, [])
  else
    let pktSize := toInt avccData.length
    -- 負の大きさを、`memcpy` は `size_t` として読む。
    if pktSize < 0 then .error .badCopy
    else if !o.packetFromData then return (false, ctx, [])
    else
      let packet := {
        data := avccData.take pktSize.toNat
        pts := ctx.lastVideoPts
        dts := ctx.lastVideoPts
        duration := out.duration
        key := isKeyframe }
      let ctx := if o.writeFrame then { ctx with videoFrameCount := ctx.videoFrameCount + 1 } else ctx
      return (o.writeFrame, ctx, [.writeFrame frame packet o.writeFrame])

def initializePassthroughContext (out : Output) (o : Outcomes) (width height : Nat) (isHevc : Bool) :
    Option PassthroughContext :=
  if !o.allocOutputContext || !o.newStream then none
  else some {
    isHevc := isHevc
    width := if 0 < width then width else out.videoWidth
    height := if 0 < height then height else out.videoHeight }

structure Session where
  context : Option PassthroughContext := none
  calls : List Call := []

/-- 文脈があるときの、残りの処理。 -/
def recordFrame (out : Output) (o : Outcomes) (frame : Frame) (isKeyframe : Bool) (ctx : PassthroughContext) :
    Except Fault (PassthroughContext × List Call) := do
  let (ready, ctx, opening) ←
    if !ctx.extraDataSet && isKeyframe then setupPassthroughExtradata out o ctx frame.data else .ok (true, ctx, [])
  if !ready then return (ctx, opening)
  else if !ctx.headerWritten then return (ctx, opening)
  else
    let (_, ctx, writing) ← writePassthroughVideoPacket out o ctx frame isKeyframe
    return (ctx, opening ++ writing)

/-- 利用者の文脈。なければ作る。 -/
def Session.contextFor (out : Output) (o : Outcomes) (info : EncodedVideoFrameInfo) (s : Session) : Option PassthroughContext :=
  match s.context with
  | some ctx => some ctx
  | none => initializePassthroughContext out o info.width info.height (info.codecType == .h265)

/-- フレームが文脈まで届く。 -/
def Outcomes.admits (o : Outcomes) (frame : Frame) (info : EncodedVideoFrameInfo) : Bool :=
  o.isRecording && !frame.data.isEmpty && o.shouldRecordUser && info.codecType != .other && o.stillRecording

def onEncodedVideoFrame (out : Output) (o : Outcomes) (frame : Frame) (info : EncodedVideoFrameInfo) (s : Session) :
    Except Fault Session := do
  if !o.admits frame info then return s
  else
    match s.contextFor out o info with
    | none => return s
    | some ctx =>
        let (ctx, calls) ← recordFrame out o frame info.keyFrame ctx
        return { context := some ctx, calls := s.calls ++ calls }

/-- 一つのフレームと、その呼び出しの間の結果。 -/
structure Delivery where
  frame : Frame
  info : EncodedVideoFrameInfo
  outcomes : Outcomes

/-- 一人の利用者のフレームを順に渡す。読み取りが範囲を外れた後は進まない。 -/
abbrev recording (out : Output) : System Delivery where
  State := Except Fault Session
  step d s := s.bind (onEncodedVideoFrame out d.outcomes d.frame d.info)

/-! ## 一つのフレームで起こること -/

theorem of_bind {α β : Type} {x : Except Fault α} {f : α → Except Fault β} {b : β} (h : x >>= f = .ok b) :
    ∃ a, x = .ok a ∧ f a = .ok b := by
  cases x with
  | error e => cases h
  | ok a => exact ⟨a, rfl, h⟩

/-- フレームから作る設定。 -/
def findConfig (isHevc : Bool) (data : List UInt8) : Except Fault (Option (List UInt8)) := do
  decoderConfig isHevc (← parseAnnexBNalUnits data isHevc)

/-- ファイルを開き、ヘッダを書ける。 -/
def opens (out : Output) (o : Outcomes) : Bool := (out.noFile || o.avioOpen) && o.writeHeader

/-- 設定が見つかった後の呼び出し。 -/
def opening (out : Output) (o : Outcomes) (extradata : List UInt8) : List Call :=
  (if out.noFile then [] else [.avioOpen o.avioOpen]) ++
    if out.noFile || o.avioOpen then [.writeHeader extradata o.writeHeader] else []

variable {out : Output} {o : Outcomes} {frame : Frame} {key : Bool} {ctx ctx' : PassthroughContext} {calls : List Call}

theorem setup_none {data : List UInt8} (h : findConfig ctx.isHevc data = .ok none) :
    setupPassthroughExtradata out o ctx data = .ok (false, ctx, []) := by
  obtain ⟨nalus, hparse, hconfig⟩ := of_bind h
  unfold setupPassthroughExtradata
  rw [hparse, ok_bind, hconfig]
  rfl

theorem setup_some (out : Output) (o : Outcomes) {data extradata : List UInt8}
    (h : findConfig ctx.isHevc data = .ok (some extradata)) (hheader : ctx.headerWritten = false) :
    setupPassthroughExtradata out o ctx data =
      .ok (opens out o, { ctx with extradata, extraDataSet := true, headerWritten := opens out o },
        opening out o extradata) := by
  obtain ⟨nalus, hparse, hconfig⟩ := of_bind h
  unfold setupPassthroughExtradata opens opening
  rw [hparse, ok_bind, hconfig, ok_bind]
  cases out.noFile <;> cases o.avioOpen <;> cases o.writeHeader <;> simp [hheader] <;> rfl

theorem setup_extradata (out : Output) (o : Outcomes) {data extradata : List UInt8}
    (h : findConfig ctx.isHevc data = .ok (some extradata)) :
    ∃ ready ctx' calls, setupPassthroughExtradata out o ctx data = .ok (ready, ctx', calls) ∧ ctx'.extradata = extradata := by
  obtain ⟨nalus, hparse, hconfig⟩ := of_bind h
  unfold setupPassthroughExtradata
  rw [hparse, ok_bind, hconfig, ok_bind]
  cases out.noFile <;> cases o.avioOpen <;> cases o.writeHeader <;> exact ⟨_, _, _, rfl, rfl⟩

/-- 設定の試みの後の記録についての主張は、見つけた設定についての主張である。 -/
theorem setup_extradata_iff (out : Output) (o : Outcomes) (ctx : PassthroughContext) {data extradata : List UInt8}
    (h : findConfig ctx.isHevc data = .ok (some extradata)) (P : List UInt8 → Prop) :
    (∃ ready ctx' calls, setupPassthroughExtradata out o ctx data = .ok (ready, ctx', calls) ∧ P ctx'.extradata) ↔
      P extradata := by
  obtain ⟨ready, ctx', calls, hsetup, rfl⟩ := setup_extradata out o h
  constructor
  · intro ⟨ready₁, ctx₁, calls₁, hsetup₁, hp⟩
    rw [hsetup] at hsetup₁
    cases hsetup₁
    exact hp
  · exact fun hp => ⟨ready, ctx', calls, hsetup, hp⟩

theorem setup_error {data : List UInt8} {fault : Fault} (h : findConfig ctx.isHevc data = .error fault) :
    setupPassthroughExtradata out o ctx data = .error fault := by
  unfold setupPassthroughExtradata
  unfold findConfig at h
  cases hparse : parseAnnexBNalUnits data ctx.isHevc with
  | error e =>
      rw [hparse] at h
      cases h
      rfl
  | ok nalus =>
      rw [hparse, ok_bind] at h
      rw [ok_bind, h]
      rfl

/-- 旗と設定を変えない。 -/
structure Kept (ctx ctx' : PassthroughContext) : Prop where
  isHevc : ctx'.isHevc = ctx.isHevc
  extradata : ctx'.extradata = ctx.extradata
  headerWritten : ctx'.headerWritten = ctx.headerWritten
  extraDataSet : ctx'.extraDataSet = ctx.extraDataSet

/-- パケットを作って書く段階が、すべて成功する。 -/
def Outcomes.delivers (o : Outcomes) : Bool := o.packetAlloc && o.malloc && o.packetFromData && o.writeFrame

/-- 変換した列の初めの部分を書く。書かないのは、列が空であるか、途中の段階が失敗したときである。 -/
def Writing (o : Outcomes) (isHevc : Bool) (frame : Frame) (calls : List Call) : Prop :=
  ∃ avcc, annexBToAvcc frame.data isHevc = .ok avcc ∧ (calls = [] ∧ (avcc = [] ∨ o.delivers = false) ∨
    ∃ packet, packet.data = avcc.take (toInt avcc.length).toNat ∧ calls = [.writeFrame frame packet o.writeFrame] ∧
      avcc ≠ [] ∧ (o.writeFrame = true → o.delivers = true))

theorem kept_stamp (out : Output) (ctx : PassthroughContext) (t : Nat) : Kept ctx (ctx.stamp out t) := by
  unfold PassthroughContext.stamp
  cases ctx.hasTimeOrigin <;> exact ⟨rfl, rfl, rfl, rfl⟩

theorem write_cases {ok : Bool} (h : writePassthroughVideoPacket out o ctx frame key = .ok (ok, ctx', calls)) :
    Kept ctx ctx' ∧ Writing o ctx.isHevc frame calls := by
  have hstamp := kept_stamp out ctx o.timestampMs
  unfold writePassthroughVideoPacket at h
  rw [← hstamp.isHevc]
  generalize ctx.stamp out o.timestampMs = stamped at hstamp h
  obtain ⟨avcc, havcc, h⟩ := of_bind h
  by_cases hempty : avcc.isEmpty = true
  · rw [if_pos hempty] at h
    cases h
    exact ⟨hstamp, avcc, havcc, .inl ⟨rfl, .inl (List.isEmpty_iff.mp hempty)⟩⟩
  by_cases halloc : (!o.packetAlloc || !o.malloc) = true
  · rw [if_neg hempty, if_pos halloc] at h
    cases h
    have hfail : o.delivers = false := by
      rw [← Bool.not_and, Bool.not_eq_true'] at halloc
      rw [Outcomes.delivers, halloc, Bool.false_and, Bool.false_and]
    exact ⟨hstamp, avcc, havcc, .inl ⟨rfl, .inr hfail⟩⟩
  generalize hsize : toInt avcc.length = size at h
  by_cases hneg : size < 0
  · rw [if_neg hempty, if_neg halloc, if_pos hneg] at h
    cases h
  by_cases hdata : (!o.packetFromData) = true
  · rw [if_neg hempty, if_neg halloc, if_neg hneg, if_pos hdata] at h
    cases h
    have hfail : o.delivers = false := by
      rw [Bool.not_eq_true'] at hdata
      rw [Outcomes.delivers, hdata, Bool.and_false, Bool.false_and]
    exact ⟨hstamp, avcc, havcc, .inl ⟨rfl, .inr hfail⟩⟩
  rw [if_neg hempty, if_neg halloc, if_neg hneg, if_neg hdata] at h
  cases h
  have hdelivers (hwrite : o.writeFrame = true) : o.delivers = true := by
    rw [← Bool.not_and, Bool.not_eq_true', Bool.not_eq_false] at halloc
    rw [Bool.not_eq_true', Bool.not_eq_false] at hdata
    rw [Outcomes.delivers, halloc, hdata, hwrite]
    rfl
  refine ⟨?_, avcc, havcc, .inr ⟨_, by rw [hsize], rfl, fun hnil => hempty (List.isEmpty_iff.mpr hnil), hdelivers⟩⟩
  split
  · exact ⟨hstamp.isHevc, hstamp.extradata, hstamp.headerWritten, hstamp.extraDataSet⟩
  · exact hstamp

/-- 一つのフレームで起こること。ヘッダを書いた文脈には、設定がある。 -/
inductive Recorded (out : Output) (o : Outcomes) (frame : Frame) (key : Bool) (ctx : PassthroughContext) :
    PassthroughContext → List Call → Prop
  /-- ヘッダを書いておらず、設定も始めない。 -/
  | waiting (header : ctx.headerWritten = false)
      (idle : ctx.extraDataSet = true ∨ key = false ∨ findConfig ctx.isHevc frame.data = .ok none) :
      Recorded out o frame key ctx ctx []
  /-- 設定は見つかるが、ファイルかヘッダの段階で失敗する。 -/
  | failed (extradata : List UInt8) (unset : ctx.extraDataSet = false) (isKey : key = true)
      (found : findConfig ctx.isHevc frame.data = .ok (some extradata)) (closed : opens out o = false) :
      Recorded out o frame key ctx { ctx with extradata, extraDataSet := true, headerWritten := false } (opening out o extradata)
  /-- 設定に成功し、そのフレームを書く。 -/
  | started (extradata : List UInt8) (ctx' : PassthroughContext) (writing : List Call) (unset : ctx.extraDataSet = false)
      (isKey : key = true) (found : findConfig ctx.isHevc frame.data = .ok (some extradata)) (opened : opens out o = true)
      (kept : Kept { ctx with extradata, extraDataSet := true, headerWritten := true } ctx')
      (writes : Writing o ctx.isHevc frame writing) : Recorded out o frame key ctx ctx' (opening out o extradata ++ writing)
  /-- 設定を終えた文脈で、フレームを書く。 -/
  | continued (ctx' : PassthroughContext) (writing : List Call) (header : ctx.headerWritten = true)
      (kept : Kept ctx ctx') (writes : Writing o ctx.isHevc frame writing) : Recorded out o frame key ctx ctx' writing

theorem recorded (hctx : ctx.headerWritten = true → ctx.extraDataSet = true)
    (h : recordFrame out o frame key ctx = .ok (ctx', calls)) : Recorded out o frame key ctx ctx' calls := by
  unfold recordFrame at h
  cases hset : ctx.extraDataSet with
  | true =>
      rw [hset, Bool.not_true, Bool.false_and, if_neg (by decide), ok_bind] at h
      cases hheader : ctx.headerWritten with
      | false =>
          simp only [hheader, Bool.not_true, Bool.not_false, Bool.false_eq_true, if_false, if_true] at h
          cases h
          exact .waiting hheader (.inl hset)
      | true =>
          simp only [hheader, Bool.not_true, Bool.false_eq_true, if_false] at h
          obtain ⟨⟨ok, ctx₁, writing⟩, hwrite, h⟩ := of_bind h
          obtain ⟨hkept, hwriting⟩ := write_cases hwrite
          cases h
          exact .continued _ writing hheader hkept hwriting
  | false =>
      have hheader : ctx.headerWritten = false := by
        cases hw : ctx.headerWritten with
        | true => exact absurd (hctx hw) (by rw [hset]; decide)
        | false => rfl
      cases hkey : key with
      | false =>
          rw [hkey, Bool.and_false, if_neg (by decide), ok_bind] at h
          simp only [hheader, Bool.not_true, Bool.not_false, Bool.false_eq_true, if_false, if_true] at h
          cases h
          exact .waiting hheader (.inr (.inl rfl))
      | true =>
          rw [hset, hkey, Bool.not_false, Bool.and_true, if_pos rfl] at h
          cases hfound : findConfig ctx.isHevc frame.data with
          | error fault =>
              rw [setup_error hfound] at h
              cases h
          | ok config =>
              cases config with
              | none =>
                  rw [setup_none hfound] at h
                  cases h
                  exact .waiting hheader (.inr (.inr hfound))
              | some extradata =>
                  rw [setup_some out o hfound hheader, ok_bind] at h
                  cases hopens : opens out o with
                  | false =>
                      simp only [hopens, Bool.not_false, if_true] at h
                      cases h
                      exact .failed extradata hset rfl hfound hopens
                  | true =>
                      simp only [hopens, Bool.not_true, Bool.false_eq_true, if_false] at h
                      obtain ⟨⟨ok, ctx₁, writing⟩, hwrite, h⟩ := of_bind h
                      obtain ⟨hkept, hwriting⟩ := write_cases hwrite
                      cases h
                      exact .started extradata _ writing hset rfl hfound hopens hkept hwriting

/-- ヘッダを書いた文脈では、フレームを書くだけである。 -/
theorem recorded_continued (hset : ctx.extraDataSet = true) (hheader : ctx.headerWritten = true)
    (h : recordFrame out o frame key ctx = .ok (ctx', calls)) : Kept ctx ctx' ∧ Writing o ctx.isHevc frame calls := by
  cases recorded (fun _ => hset) h with
  | waiting header =>
      rw [hheader] at header
      cases header
  | failed _ unset =>
      rw [hset] at unset
      cases unset
  | started _ _ _ unset =>
      rw [hset] at unset
      cases unset
  | continued _ _ _ kept writes => exact ⟨kept, writes⟩

/-! ## 呼び出しの前後 -/

variable {info : EncodedVideoFrameInfo} {s s' : Session}

/-- 文脈は、前からあるか、新しく作ったものである。 -/
theorem contextFor_cases (h : s.contextFor out o info = some ctx) :
    s.context = some ctx ∨ s.context = none ∧ ctx.isHevc = (info.codecType == .h265) ∧ ctx.headerWritten = false ∧
      ctx.extraDataSet = false := by
  unfold Session.contextFor at h
  cases hs : s.context with
  | some ctx₀ =>
      rw [hs] at h
      exact .inl h
  | none =>
      simp only [hs, initializePassthroughContext] at h
      split at h
      · cases h
      · cases h
        exact .inr ⟨rfl, rfl, rfl, rfl⟩

theorem onEncoded_dropped (h : o.admits frame info = false ∨ s.contextFor out o info = none) :
    onEncodedVideoFrame out o frame info s = .ok s := by
  unfold onEncodedVideoFrame
  cases hadmits : o.admits frame info with
  | false => rfl
  | true =>
      cases h with
      | inl hdrop => rw [hadmits] at hdrop; cases hdrop
      | inr hnone =>
          rw [hnone]
          rfl

theorem onEncoded_admitted (h : o.admits frame info = true) (hctx : s.contextFor out o info = some ctx) :
    onEncodedVideoFrame out o frame info s =
      (recordFrame out o frame info.keyFrame ctx >>= fun r => .ok ⟨some r.1, s.calls ++ r.2⟩) := by
  unfold onEncodedVideoFrame
  rw [h, hctx]
  rfl

theorem onEncoded_cases (h : onEncodedVideoFrame out o frame info s = .ok s') :
    s' = s ∨ ∃ ctx ctx' calls, o.admits frame info = true ∧ s.contextFor out o info = some ctx ∧
      recordFrame out o frame info.keyFrame ctx = .ok (ctx', calls) ∧ s' = ⟨some ctx', s.calls ++ calls⟩ := by
  cases hadmits : o.admits frame info with
  | false =>
      rw [onEncoded_dropped (.inl hadmits)] at h
      cases h
      exact .inl rfl
  | true =>
      cases hctx : s.contextFor out o info with
      | none =>
          rw [onEncoded_dropped (.inr hctx)] at h
          cases h
          exact .inl rfl
      | some ctx =>
          rw [onEncoded_admitted hadmits hctx] at h
          obtain ⟨⟨ctx', calls⟩, hrecord, h⟩ := of_bind h
          cases h
          exact .inr ⟨ctx, ctx', calls, rfl, rfl, hrecord, rfl⟩

end RtcEgress.Passthrough
