import Mathlib.Tactic.IntervalCases
import RtcEgress.Lib.Emulation
import RtcEgress.Passthrough.Record

/-!
# HEVC の記録のプロファイルと階層と水準

`setupPassthroughExtradata` は、SPS の三番目のバイトから `profile_tier_level` を読む。三番目は `sps_video_parameter_set_id` などのバイトで
あり、`profile_tier_level` はその次から、エミュレーション防止バイトを除いた列に並ぶ。
-/

namespace RtcEgress.Passthrough

open Lib Lib.AnnexB Lib.Emulation

/-- SPS の `profile_tier_level`。単位のヘッダの二バイトと、その次の一バイトの後にある。 -/
def profileTierLevel (sps : List UInt8) : Option DecoderConfig.ProfileTierLevel :=
  (DecoderConfig.readProfileTierLevel ((rbsp (sps.drop 2)).drop 1)).map Prod.fst

/-- 記録の、版の次にある欄。 -/
def recordProfile (record : List UInt8) : Option DecoderConfig.ProfileTierLevel :=
  (DecoderConfig.readProfileTierLevel (record.drop 1)).map Prod.fst

/-- 記録の欄は、SPS の値に等しい。 -/
def CarriesProfile (sps record : List UInt8) : Prop := ∃ p, profileTierLevel sps = some p ∧ recordProfile record = some p

/-- 十五バイトより長い SPS と、PPS のある HEVC のキーフレーム。 -/
structure LongSpsFrame extends Frame where
  sps : 15 < (firstUnit true 33 data).length
  pps : firstUnit true 34 data ≠ []

/-- 三番目からの十三バイトが等しいか、零が二つ以上続いた後に `03 00` を繰り返す。 -/
def Repetitive (sps : List UInt8) : Prop :=
  (sps.drop 2).take 13 = List.replicate 13 ((sps.drop 2).headD 0) ∨
    ∃ j, 2 ≤ j ∧ (sps.drop 2).take 14 = (List.replicate j 0 ++ alternating 3 0 14).take 14

/-! ## 記録の欄 -/

theorem byte_ext {x y : UInt8} (h : ∀ i < 8, x.toBitVec.getLsbD i = y.toBitVec.getLsbD i) : x = y :=
  UInt8.toBitVec_inj.mp (BitVec.eq_of_getLsbD_eq h)

theorem profile_rejoin (b : UInt8) : ((b >>> 6 &&& 0x03) <<< 6) ||| ((b >>> 5 &&& 0x01) <<< 5) ||| (b &&& 0x1F) = b := by
  apply byte_ext
  intro i hi
  interval_cases i <;> simp

section Compat

variable (a b c d : UInt8)

def compatFlags : UInt32 := (a.toUInt32 <<< 24) ||| (b.toUInt32 <<< 16) ||| (c.toUInt32 <<< 8) ||| d.toUInt32

theorem compatFlags_24 : (compatFlags a b c d >>> 24).toUInt8 = a := by
  unfold compatFlags
  apply byte_ext
  intro i hi
  interval_cases i <;> simp

theorem compatFlags_16 : (compatFlags a b c d >>> 16).toUInt8 = b := by
  unfold compatFlags
  apply byte_ext
  intro i hi
  interval_cases i <;> simp

theorem compatFlags_8 : (compatFlags a b c d >>> 8).toUInt8 = c := by
  unfold compatFlags
  apply byte_ext
  intro i hi
  interval_cases i <;> simp

theorem compatFlags_0 : (compatFlags a b c d).toUInt8 = d := by
  unfold compatFlags
  apply byte_ext
  intro i hi
  interval_cases i <;> simp

end Compat

/-- 記録の十二バイトは、SPS の三番目からの写しである。 -/
theorem headerFields_eq {sps : List UInt8} {p : ProfileTierLevel} (h : 15 < sps.length) (hp : readProfileTierLevel sps = .ok p) :
    headerFields p = (sps.drop 2).take 12 := by
  rw [readProfileTierLevel_eq h] at hp
  cases hp
  have hfirst : sps.drop 2 = sps[2] :: sps[3] :: sps[4] :: sps[5] :: sps[6] :: sps.drop 7 := by
    rw [List.drop_eq_getElem_cons (by omega), List.drop_eq_getElem_cons (by omega), List.drop_eq_getElem_cons (by omega),
      List.drop_eq_getElem_cons (by omega), List.drop_eq_getElem_cons (by omega)]
  have hlast : (sps.drop 7).take 7 = (sps.drop 7).take 6 ++ [sps[13]] := by
    rw [List.take_add_one, List.getElem?_drop, List.getElem?_eq_getElem (by omega)]
    rfl
  rw [hfirst]
  simp only [List.take_succ_cons]
  rw [hlast, headerFields]
  simp only [profile_rejoin]
  change [sps[2], (compatFlags sps[3] sps[4] sps[5] sps[6] >>> 24).toUInt8,
    (compatFlags sps[3] sps[4] sps[5] sps[6] >>> 16).toUInt8,
    (compatFlags sps[3] sps[4] sps[5] sps[6] >>> 8).toUInt8, (compatFlags sps[3] sps[4] sps[5] sps[6]).toUInt8] ++ _ ++ _ = _
  rw [compatFlags_24, compatFlags_16, compatFlags_8, compatFlags_0]
  rfl

/-! ## SPS の値との一致 -/

/-- 欄の一致は、十二バイトの一致である。 -/
theorem carriesProfile_iff_bytes {sps record rest : List UInt8} (h : 15 < sps.length)
    (hrecord : record.drop 1 = (sps.drop 2).take 12 ++ rest) :
    CarriesProfile sps record ↔ ((rbsp (sps.drop 2)).drop 1).take 12 = (sps.drop 2).take 12 := by
  have hlen : ((sps.drop 2).take 12).length = 12 := by
    rw [List.length_take, List.length_drop]
    omega
  have hfields : recordProfile record = some (.ofBytes ((sps.drop 2).take 12)) := by
    rw [recordProfile, hrecord, DecoderConfig.readProfileTierLevel_append hlen]
    rfl
  unfold CarriesProfile profileTierLevel
  generalize (rbsp (sps.drop 2)).drop 1 = l
  constructor
  · intro ⟨p, hsps, hp⟩
    rw [hfields] at hp
    obtain ⟨⟨q, tail⟩, hread, rfl⟩ := Option.map_eq_some_iff.mp hsps
    obtain ⟨htwelve, rfl⟩ := DecoderConfig.readProfileTierLevel_some hread
    exact DecoderConfig.ProfileTierLevel.ofBytes_inj (by rw [List.length_take]; omega) hlen (Option.some.inj hp).symm
  · intro hsame
    have hread := DecoderConfig.readProfileTierLevel_append hlen (l.drop 12)
    rw [← hsame, List.take_append_drop] at hread
    exact ⟨_, by rw [hread]; rfl, by rw [hfields, ← hsame]⟩

theorem rbsp_iff_repetitive {sps : List UInt8} (h : 15 < sps.length) :
    ((rbsp (sps.drop 2)).drop 1).take 12 = (sps.drop 2).take 12 ↔ Repetitive sps := by
  have hlen : 13 < (sps.drop 2).length := by
    rw [List.length_drop]
    omega
  unfold Repetitive
  generalize sps.drop 2 = x at hlen
  cases x with
  | nil => simp at hlen
  | cons b l =>
      have hlag := rbsp_lag (k := 14) 13 (c := b) hlen (by decide)
      obtain ⟨t, ht⟩ := rbsp_one b l
      rw [ht, List.take_succ_cons, List.take_succ_cons, List.cons.injEq] at hlag
      rw [ht, List.drop_one, List.tail_cons, List.headD_cons]
      have htail : t.take 12 = (b :: l).take 12 ↔ b = b ∧ t.take 12 = (b :: l).take 12 := (and_iff_right rfl).symm
      have hzero (hescapes : Escapes 14 13 (b :: l)) : b = 0 := by
        obtain ⟨j, hj, hl⟩ := hescapes
        cases j with
        | zero => omega
        | succ j =>
            rw [List.replicate_succ, List.cons_append, List.take_succ_cons, List.take_succ_cons] at hl
            exact (List.cons.inj hl).1
      rw [htail, hlag, and_iff_right_of_imp hzero]
      rfl

/-- 設定の記録についての主張を、SPS のバイトについての主張に直す。 -/
theorem setup_carries_iff (out : Output) (o : Outcomes) (ctx : PassthroughContext) (frame : LongSpsFrame) :
    (∃ ready ctx' calls,
      setupPassthroughExtradata out o { ctx with isHevc := true } frame.data = .ok (ready, ctx', calls) ∧
        CarriesProfile (firstUnit true 33 frame.data) ctx'.extradata) ↔
      ((rbsp ((firstUnit true 33 frame.data).drop 2)).drop 1).take 12 = ((firstUnit true 33 frame.data).drop 2).take 12 := by
  have hsps := frame.sps
  have hsets : HasSets true frame.data := by
    refine ⟨fun hnil => ?_, frame.pps⟩
    change firstUnit true 33 frame.data = [] at hnil
    rw [hnil] at hsps
    contradiction
  have hdata : 3 ≤ frame.data.length := by
    by_contra hshort
    exact hsets.1 (firstUnit_short (by omega))
  obtain ⟨extradata, hfound⟩ := findConfig_some frame.fits ⟨hdata, fun _ => .inl rfl⟩ hsets
  obtain ⟨p, hp, hrecord⟩ := of_bind (record_of_found frame.fits hfound)
  cases hrecord
  rw [setup_extradata_iff out o { ctx with isHevc := true } hfound]
  apply carriesProfile_iff_bytes hsps
  rw [hevcHeader_eq, headerFields_eq hsps hp]
  simp only [List.append_assoc, List.cons_append, List.nil_append, List.drop_one, List.tail_cons]
  rfl

/-- 記録が SPS のプロファイルと階層と水準を持つのは、SPS の三番目からのバイトが、一つずらしても変わらない形のときだけである。 -/
theorem carriesProfile_iff (out : Output) (o : Outcomes) (ctx : PassthroughContext) (frame : LongSpsFrame) :
    (∃ ready ctx' calls,
      setupPassthroughExtradata out o { ctx with isHevc := true } frame.data = .ok (ready, ctx', calls) ∧
        CarriesProfile (firstUnit true 33 frame.data) ctx'.extradata) ↔ Repetitive (firstUnit true 33 frame.data) :=
  (setup_carries_iff out o ctx frame).trans (rbsp_iff_repetitive frame.sps)

/-! ## Main プロファイルの SPS -/

def RecordsCarryProfile : Prop :=
  ∀ (out : Output) (o : Outcomes) (ctx : PassthroughContext) (frame : LongSpsFrame), ∃ ready ctx' calls,
    setupPassthroughExtradata out o { ctx with isHevc := true } frame.data = .ok (ready, ctx', calls) ∧
      CarriesProfile (firstUnit true 33 frame.data) ctx'.extradata

/-- `general_profile_idc` が 1、`general_level_idc` が 93 の SPS。 -/
def mainSps : List UInt8 :=
  [0x42, 0x01, 0x01, 0x01, 0x60, 0x00, 0x00, 0x03, 0x00, 0x90, 0x00, 0x00, 0x03, 0x00, 0x00, 0x03, 0x00, 0x5D, 0xA0, 0x02, 0x80]

def mainUnits : List (Bool × List UInt8) := [(true, [0x40, 0x01, 0x0C, 0x01]), (true, mainSps), (true, [0x44, 0x01, 0xC1, 0x72])]

theorem mainUnits_first (type : Nat) :
    firstUnit true type (encode mainUnits) = ((mainUnits.map Prod.snd).find? fun u => typeOf true u == type).getD [] :=
  firstUnit_encode type (by decide)

def mainFrame : LongSpsFrame where
  data := encode mainUnits
  fits := by decide
  sps := by rw [mainUnits_first]; decide
  pps := by rw [mainUnits_first]; decide

theorem not_recordsCarryProfile : ¬RecordsCarryProfile := by
  intro h
  have hcarries := (setup_carries_iff mp4 (succeeding 0) freshContext mainFrame).mp (h mp4 (succeeding 0) freshContext mainFrame)
  have hsps : firstUnit true 33 mainFrame.data = mainSps := (mainUnits_first 33).trans (by decide)
  rw [hsps] at hcarries
  exact absurd hcarries (by decide)

end RtcEgress.Passthrough
