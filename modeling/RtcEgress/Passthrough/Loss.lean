import Mathlib.Algebra.GroupWithZero.Nat
import RtcEgress.Passthrough.Retry

/-!
# 書いたフレームの単位

パケットからはパラメータセットを除く。設定の記録には、最初のキーフレームの、種類ごとに最初の一つだけが入る。その後に変わったものや、
同じ種類の二つ目は、ファイルのどこにも残らない。
-/

namespace RtcEgress.Passthrough

open Lib Lib.AnnexB Lib.Framing

/-- フレームの単位。末尾の零は単位に含まない。 -/
def nalUnits (data : List UInt8) : List (List UInt8) := (unitsBy body data).map strip

/-- ファイルのヘッダに書いた設定。 -/
def headerConfig (calls : List Call) : Option (List UInt8) :=
  calls.findSome? fun
    | .writeHeader extradata true => some extradata
    | _ => none

/-- 書いたフレームの単位は、そのパケットか設定に、そのまま入っている。 -/
def Lossless (calls : List Call) : Prop :=
  ∀ frame packet, .writeFrame frame packet true ∈ calls → ∀ u ∈ nalUnits frame.data,
    u <:+: packet.data ∨ ∃ extradata, headerConfig calls = some extradata ∧ u <:+: extradata

/-- 最初のフレームは、設定に成功するキーフレームである。 -/
def Starts (out : Output) (first : Delivery) : Prop :=
  first.outcomes.admits first.frame first.info = true ∧ first.info.keyFrame = true ∧
    ∃ ctx ctx' calls, ({} : Session).contextFor out first.outcomes first.info = some ctx ∧
      setupPassthroughExtradata out first.outcomes ctx first.frame.data = .ok (true, ctx', calls)

/-- 変換した列の大きさ。 -/
def avccSize (isHevc : Bool) (data : List UInt8) : Nat :=
  (((unitsBy body data).filter fun u => ¬ParameterSet isHevc u).map fun u => 4 + u.length).sum

/-- フレームのパラメータセットは、最初のキーフレームの同じ種類の最初のものと等しく、変換した列の大きさは `int` に収まる。 -/
structure Repeats (isHevc : Bool) (first frame : Frame) : Prop where
  sets : ∀ u ∈ nalUnits frame.data, ParameterSet isHevc u → u = firstUnit isHevc (typeOf isHevc u) first.data
  size : avccSize isHevc frame.data < 2 ^ 31

/-- 書かれるフレームに求める条件。変換した列が空のフレームは書かれない。 -/
def repeatsWhenWritten (out : Output) (first : Delivery) : (recording out).Condition := fun d _ =>
  d.outcomes.admits d.frame d.info = true → d.outcomes.delivers = true →
    0 < avccSize (first.info.codecType == .h265) d.frame.data → Repeats (first.info.codecType == .h265) first.frame d.frame

/-! ## 設定に入るもの -/

variable {isHevc : Bool} {data extradata : List UInt8}

theorem hevcRecord_holds {vps sps pps r : List UInt8} (h : hevcRecord vps sps pps = .ok r) :
    vps <:+: r ∧ sps <:+: r ∧ pps <:+: r := by
  obtain ⟨p, _, h⟩ := of_bind h
  have harray (type : UInt8) (u : List UInt8) : u <:+: appendHevcNaluArray type u := (List.suffix_append _ u).isInfix
  cases h
  constructor
  · cases hvps : vps with
    | nil => exact List.nil_infix
    | cons b l =>
      exact (harray 32 (b :: l)).trans
        ⟨hevcHeader p 3, appendHevcNaluArray 33 sps ++ appendHevcNaluArray 34 pps, by simp⟩
  constructor
  · exact (harray 33 sps).trans (List.infix_append _ _ _)
  · exact (harray 34 pps).trans (List.suffix_append _ _).isInfix

theorem avcRecord_holds {sps pps r : List UInt8} (h : avcRecord sps pps = .ok r) : sps <:+: r ∧ pps <:+: r := by
  obtain ⟨profile, _, h⟩ := of_bind h
  obtain ⟨compat, _, h⟩ := of_bind h
  obtain ⟨level, _, h⟩ := of_bind h
  cases h
  constructor
  · exact ⟨[1, profile, compat, level, 0xFF, 0xE1] ++ sizeBytes sps.length, [1] ++ sizeBytes pps.length ++ pps, by simp⟩
  · exact (List.suffix_append _ _).isInfix

/-- 設定は、パラメータセットの種類ごとに最初の単位を含む。 -/
theorem firstUnit_in_config (hfits : data.length < 2 ^ 63) (h : findConfig isHevc data = .ok (some extradata))
    {u : List UInt8} (hset : ParameterSet isHevc u) : firstUnit isHevc (typeOf isHevc u) data <:+: extradata := by
  have hrecord := record_of_found hfits h
  cases isHevc with
  | true =>
      obtain ⟨hvps, hsps, hpps⟩ := hevcRecord_holds hrecord
      rcases hset with htype | htype | htype
      · rwa [htype]
      · rwa [htype]
      · rwa [htype]
  | false =>
      obtain ⟨hsps, hpps⟩ := avcRecord_holds hrecord
      cases hset with
      | inl htype => rwa [htype]
      | inr htype => rwa [htype]

/-! ## パケットに入るもの -/

theorem nalUnits_in_packet {u : List UInt8} (hu : u ∈ nalUnits data) (hset : ¬ParameterSet isHevc u) :
    u <:+: ((unitsBy body data).filter (kept isHevc)).flatMap (prefixed 4) := by
  obtain ⟨v, hv, rfl⟩ := List.mem_map.mp hu
  have htype : typeOf isHevc (strip v) = typeOf isHevc v := by rw [typeOf, typeOf, headD_strip]
  have hkept : v ∈ (unitsBy body data).filter (kept isHevc) := by
    rw [kept_eq]
    unfold ParameterSet at hset ⊢
    rw [htype] at hset
    exact List.mem_filter.mpr ⟨hv, decide_eq_true hset⟩
  have hunit : v <:+: prefixed 4 v := (List.suffix_append _ v).isInfix
  have hpacket := List.infix_of_mem_flatten (List.mem_map_of_mem (f := prefixed 4) hkept)
  rw [← List.flatMap_def] at hpacket
  exact (prefix_strip v).isInfix.trans (hunit.trans hpacket)

theorem length_avcc : (((unitsBy body data).filter (kept isHevc)).flatMap (prefixed 4)).length = avccSize isHevc data := by
  have hlen : (fun u : List UInt8 => (prefixed 4 u).length) = fun u => 4 + u.length := by
    funext u
    rw [prefixed, List.length_append, length_bigEndian]
  rw [List.length_flatMap, hlen, kept_eq, avccSize]

theorem toInt_of_lt {n : Nat} (h : n < 2 ^ 31) : toInt n = n := by
  unfold toInt
  rw [Int.bmod_eq_of_le (by omega) (by omega)]

/-- 書いたフレームの単位は、パケットか設定に入っている。 -/
theorem writing_lossless {o : Outcomes} {first frame frame' : Frame} {packet : Packet} {writing : List Call}
    (h : Writing o isHevc frame writing) (hmem : .writeFrame frame' packet true ∈ writing)
    (hfound : findConfig isHevc first.data = .ok (some extradata))
    (hrepeats : o.delivers = true → 0 < avccSize isHevc frame.data → Repeats isHevc first frame) :
    ∀ u ∈ nalUnits frame'.data, u <:+: packet.data ∨ u <:+: extradata := by
  obtain ⟨avcc, havcc, hcalls⟩ := h
  cases hcalls with
  | inl hnone =>
      rw [hnone.1] at hmem
      cases hmem
  | inr hpacket =>
      obtain ⟨packet', hdata, rfl, hne, hdelivers⟩ := hpacket
      rw [List.mem_singleton] at hmem
      injection hmem with hframe hpacket hwrite
      subst hframe hpacket
      rw [annexBToAvcc_eq isHevc frame'.fits] at havcc
      cases havcc
      have hrepeats := hrepeats (hdelivers hwrite.symm) (length_avcc ▸ List.length_pos_iff.mpr hne)
      rw [length_avcc, toInt_of_lt hrepeats.size, Int.toNat_natCast, ← length_avcc, List.take_length] at hdata
      intro u hu
      by_cases hset : ParameterSet isHevc u
      · have hfirst := firstUnit_in_config first.fits hfound hset
        rw [← hrepeats.sets u hu hset] at hfirst
        exact .inr hfirst
      · rw [hdata]
        exact .inl (nalUnits_in_packet hu hset)

/-! ## 実行 -/

variable {out : Output} {first d : Delivery} {s s' : Session}

/-- 設定に成功した後の状態。 -/
structure Running (isHevc : Bool) (first : Frame) (s : Session) : Prop where
  context : ∃ ctx, s.context = some ctx ∧ ctx.isHevc = isHevc ∧ ctx.headerWritten = true ∧ ctx.extraDataSet = true
  header : ∃ extradata, findConfig isHevc first.data = .ok (some extradata) ∧ headerConfig s.calls = some extradata
  lossless : Lossless s.calls

theorem headerConfig_append {calls : List Call} (h : headerConfig calls = some extradata) (rest : List Call) :
    headerConfig (calls ++ rest) = some extradata := by
  unfold headerConfig at h ⊢
  rw [List.findSome?_append, h, Option.some_or]

theorem headerConfig_opening {o : Outcomes} (h : opens out o = true) :
    headerConfig (opening out o extradata) = some extradata := by
  rw [opens, Bool.and_eq_true] at h
  unfold headerConfig opening
  rw [h.1, h.2]
  cases out.noFile <;> rfl

theorem lossless_append {isHevc : Bool} {o : Outcomes} {first frame : Frame} {calls writing : List Call}
    (hcalls : Lossless calls) (hheader : headerConfig calls = some extradata)
    (hfound : findConfig isHevc first.data = .ok (some extradata)) (hwriting : Writing o isHevc frame writing)
    (hrepeats : o.delivers = true → 0 < avccSize isHevc frame.data → Repeats isHevc first frame) :
    Lossless (calls ++ writing) := by
  intro frame' packet hmem u hu
  rw [headerConfig_append hheader]
  cases List.mem_append.mp hmem with
  | inl hold =>
      have hkept := hcalls frame' packet hold u hu
      rwa [hheader] at hkept
  | inr hnew =>
      cases writing_lossless hwriting hnew hfound hrepeats u hu with
      | inl hpacket => exact .inl hpacket
      | inr hrecord => exact .inr ⟨extradata, rfl, hrecord⟩

theorem lossless_opening (o : Outcomes) : Lossless (opening out o extradata) := by
  intro frame packet hmem
  unfold opening at hmem
  cases out.noFile <;> cases o.avioOpen <;> simp at hmem

theorem running_first (hstarts : Starts out first) (hrepeats : repeatsWhenWritten out first first (.ok {}))
    (h : onEncodedVideoFrame out first.outcomes first.frame first.info {} = .ok s) :
    Running (first.info.codecType == .h265) first.frame s := by
  obtain ⟨hadmits, hkey, ctx, ctx₁, calls, hctx, hsetup⟩ := hstarts
  cases contextFor_cases hctx with
  | inl hold => cases hold
  | inr hfresh =>
      obtain ⟨_, hhevc, hheader, hunset⟩ := hfresh
      rw [onEncoded_admitted hadmits hctx, hkey] at h
      obtain ⟨⟨ctx', calls'⟩, hrecord, h⟩ := of_bind h
      cases h
      cases recorded (HeaderNeedsConfig.of_unwritten hheader) hrecord with
      | waiting _ idle =>
          rcases idle with hset | hkey | hnone
          · rw [hunset] at hset
            cases hset
          · cases hkey
          · rw [setup_none hnone] at hsetup
            cases hsetup
      | failed extradata _ _ found closed =>
          rw [setup_some _ _ found hheader, closed] at hsetup
          cases hsetup
      | started extradata _ writing _ _ found opened kept writes =>
          rw [hhevc] at found writes
          have hconfig : headerConfig (opening out first.outcomes extradata) = some extradata := headerConfig_opening opened
          refine ⟨⟨ctx', rfl, ?_, ?_, ?_⟩, ⟨extradata, found, headerConfig_append hconfig _⟩, ?_⟩
          · rw [kept.isHevc, hhevc]
          · rw [kept.headerWritten]
          · rw [kept.extraDataSet]
          · change Lossless (opening out first.outcomes extradata ++ writing)
            exact lossless_append (lossless_opening _) hconfig found writes (hrepeats hadmits)
      | continued _ _ header =>
          rw [hheader] at header
          cases header

theorem running_step (hrunning : Running (first.info.codecType == .h265) first.frame s)
    (hrepeats : repeatsWhenWritten out first d (.ok s))
    (h : onEncodedVideoFrame out d.outcomes d.frame d.info s = .ok s') :
    Running (first.info.codecType == .h265) first.frame s' := by
  obtain ⟨⟨ctx, hctx, hhevc, hheader, hset⟩, ⟨extradata, hfound, hconfig⟩, hlossless⟩ := hrunning
  cases onEncoded_cases h with
  | inl hsame => exact hsame ▸ ⟨⟨ctx, hctx, hhevc, hheader, hset⟩, ⟨extradata, hfound, hconfig⟩, hlossless⟩
  | inr hstep =>
      obtain ⟨ctx₀, ctx', calls, hadmits, hfor, hrecord, rfl⟩ := hstep
      rw [Session.contextFor, hctx] at hfor
      cases hfor
      obtain ⟨kept, writes⟩ := recorded_continued hset hheader hrecord
      rw [hhevc] at writes
      refine ⟨⟨ctx', rfl, ?_, ?_, ?_⟩, ⟨extradata, hfound, headerConfig_append hconfig _⟩, ?_⟩
      · rw [kept.isHevc, hhevc]
      · rw [kept.headerWritten, hheader]
      · rw [kept.extraDataSet, hset]
      · exact lossless_append hlossless hconfig hfound writes (hrepeats hadmits)

/-- 範囲を外れずに進んだ状態で成り立つ。 -/
def EverySession (P : Session → Prop) : Except Fault Session → Prop
  | .error _ => True
  | .ok s => P s

theorem running_step_state (d : Delivery) (st : (recording out).State)
    (h : EverySession (Running (first.info.codecType == .h265) first.frame) st) (hrepeats : repeatsWhenWritten out first d st) :
    EverySession (Running (first.info.codecType == .h265) first.frame) ((recording out).step d st) := by
  cases st with
  | error e => trivial
  | ok s =>
      change EverySession _ (onEncodedVideoFrame out d.outcomes d.frame d.info s)
      cases hstep : onEncodedVideoFrame out d.outcomes d.frame d.info s with
      | error e => trivial
      | ok s' => exact running_step h hrepeats hstep

/-- 書かれるフレームのパラメータセットが最初のキーフレームのものと等しい実行では、どの単位も失われない。 -/
theorem lossless_of_repeats {ds : List Delivery} (hstarts : Starts out first)
    (hall : (recording out).AllMeet (repeatsWhenWritten out first) (first :: ds) (.ok {}))
    (hrun : (recording out).run (first :: ds) (.ok {}) = .ok s) : Lossless s.calls := by
  have hfirst : EverySession (Running (first.info.codecType == .h265) first.frame)
      ((recording out).step first (.ok {})) := by
    change EverySession _ (onEncodedVideoFrame out first.outcomes first.frame first.info {})
    cases hstep : onEncodedVideoFrame out first.outcomes first.frame first.info {} with
    | error e => trivial
    | ok s₁ => exact running_first hstarts hall.1 hstep
  have hlast := (System.reach_run hall.2).invariant hfirst running_step_state
  change EverySession _ ((recording out).run (first :: ds) (.ok {})) at hlast
  rw [hrun] at hlast
  exact hlast.lossless

/-! ## 単位を並べたフレーム -/

variable {units setUnits : List (Bool × List UInt8)}

theorem nalUnits_encode (h : ∀ e ∈ units, WellFormed e.2) : nalUnits (encode units) = units.map Prod.snd := by
  rw [nalUnits, unitsBy_encode (fun _ _ => body_wellFormed) units h, List.map_map]
  exact List.map_congr_left fun e he => strip_of_last (h e he).last

theorem avccSize_encode (h : ∀ e ∈ units, WellFormed e.2) :
    avccSize isHevc (encode units) =
      (((units.map Prod.snd).filter fun u => ¬ParameterSet isHevc u).map fun u => 4 + u.length).sum := by
  rw [avccSize, unitsBy_encode (fun _ _ => body_wellFormed) units h]

/-- 単位の列についての条件。 -/
theorem repeats_encode {first frame : Frame} (hfirst : first.data = encode setUnits) (hframe : frame.data = encode units)
    (hwell' : ∀ e ∈ setUnits, WellFormed e.2) (hwell : ∀ e ∈ units, WellFormed e.2)
    (hsets : ∀ u ∈ units.map Prod.snd, ParameterSet isHevc u →
      u = ((setUnits.map Prod.snd).find? fun v => typeOf isHevc v == typeOf isHevc u).getD [])
    (hsize : (((units.map Prod.snd).filter fun u => ¬ParameterSet isHevc u).map fun u => 4 + u.length).sum < 2 ^ 31) :
    Repeats isHevc first frame where
  sets u hu hset := by
    rw [hframe, nalUnits_encode hwell] at hu
    rw [hfirst, firstUnit_encode _ hwell']
    exact hsets u hu hset
  size := by rwa [hframe, avccSize_encode hwell]

/-! ## 変わったパラメータセット -/

def firstRecord : List UInt8 := [1, 0x42, 0xE0, 0x1F, 0xFF, 0xE1, 0, 4, 0x67, 0x42, 0xE0, 0x1F, 1, 0, 2, 0x68, 0xCE]

def firstDelivery : Delivery := ⟨firstKeyFrame, keyFrameInfo .h264, succeeding 0⟩

theorem starts_firstDelivery : Starts mp4 firstDelivery := by
  have hfound : findConfig false firstKeyFrame.data = .ok (some firstRecord) := by decide
  exact ⟨rfl, rfl, freshContext, _, _, rfl, setup_some _ _ hfound rfl⟩

/-- 最初のキーフレームと同じ SPS を持つフレーム。 -/
def nextFrame : Frame := ⟨encode [(true, [0x67, 0x42, 0xE0, 0x1F]), (false, [0x41, 0x9A])], by decide⟩

def nextDelivery : Delivery := ⟨nextFrame, ⟨.h264, false, 640, 480⟩, succeeding 40⟩

theorem lossless_repeated :
    ∃ s, (recording mp4).run [firstDelivery, nextDelivery] (.ok {}) = .ok s ∧ Lossless s.calls := by
  have hfirst : Repeats false firstKeyFrame firstKeyFrame :=
    repeats_encode rfl rfl (by decide) (by decide) (by decide) (by decide)
  have hnext : Repeats false firstKeyFrame nextFrame := repeats_encode rfl rfl (by decide) (by decide) (by decide) (by decide)
  have hall : (recording mp4).AllMeet (repeatsWhenWritten mp4 firstDelivery) [firstDelivery, nextDelivery] (.ok {}) :=
    ⟨fun _ _ _ => hfirst, fun _ _ _ => hnext, trivial⟩
  exact ⟨_, rfl, lossless_of_repeats starts_firstDelivery hall rfl⟩

def LosesNothing : Prop :=
  ∀ out first ds s, Starts out first → (recording out).run (first :: ds) (.ok {}) = .ok s → Lossless s.calls

/-- 解像度が変わり、SPS と PPS も変わったキーフレーム。 -/
def changedKeyFrame : Frame := ⟨encode [(true, [0x67, 0x64, 0x00, 0x28]), (true, [0x68, 0xEE]), (false, [0x65, 0x99])], by decide⟩

theorem not_losesNothing : ¬LosesNothing := by
  intro h
  have hlossless := h mp4 firstDelivery [⟨changedKeyFrame, keyFrameInfo .h264, succeeding 40⟩] _ starts_firstDelivery rfl
  have hmem : [0x67, 0x64, 0x00, 0x28] ∈ nalUnits changedKeyFrame.data := by
    rw [changedKeyFrame, nalUnits_encode (by decide)]
    decide
  have hkept := hlossless changedKeyFrame ⟨[0, 0, 0, 2, 0x65, 0x99], 3600, 3600, 3000, true⟩
    (List.mem_of_getElem? (i := 3) rfl) _ hmem
  cases hkept with
  | inl hpacket => exact absurd hpacket (by decide)
  | inr hrecord =>
      obtain ⟨extradata, hconfig, hrecord⟩ := hrecord
      cases hconfig
      exact absurd hrecord (by decide)

end RtcEgress.Passthrough
