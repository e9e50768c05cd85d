import RtcEgress.Lib.DecoderConfig
import RtcEgress.Passthrough.Bounds

/-!
# 復号器の設定の記録

`setupPassthroughExtradata` の作る記録を、ISO/IEC 14496-15 の形式で読み直す。AVC の記録には、High などのプロファイルが求める末尾の欄が
ない。
-/

namespace RtcEgress.Passthrough

open Lib Lib.AnnexB Lib.Framing
open Lib.DecoderConfig hiding ProfileTierLevel readProfileTierLevel

/-- 記録を作れる大きさのパラメータセットを持つキーフレーム。 -/
structure SizedFrame (isHevc : Bool) extends Frame where
  sps : 4 ≤ (firstUnit isHevc (spsType isHevc) data).length ∧ (firstUnit isHevc (spsType isHevc) data).length ≤ 65535
  pps : 4 ≤ (firstUnit isHevc (ppsType isHevc) data).length ∧ (firstUnit isHevc (ppsType isHevc) data).length ≤ 65535
  vps : isHevc = true → firstUnit isHevc 32 data = [] ∨
    4 ≤ (firstUnit isHevc 32 data).length ∧ (firstUnit isHevc 32 data).length ≤ 65535

/-- 記録を終わりまで読むと、四バイトの長さと、キーフレームの最初のパラメータセットが得られる。 -/
def ParsesBack (isHevc : Bool) (data record : List UInt8) : Prop :=
  if isHevc then ∃ c, parseHevc record = some c ∧ c.lengthSize = 4 ∧
    c.arrays = (if firstUnit true 32 data = [] then [] else [(32, [firstUnit true 32 data])]) ++
      [(33, [firstUnit true 33 data]), (34, [firstUnit true 34 data])]
  else ∃ c, parseAvc record = some c ∧ c.lengthSize = 4 ∧ c.sps = [firstUnit false 7 data] ∧ c.pps = [firstUnit false 8 data]

/-! ## AVC -/

theorem sizeBytes_eq (n : Nat) : sizeBytes n = bigEndian 2 n := by
  simp [sizeBytes, bigEndian, Nat.shiftRight_eq_div_pow]

theorem parseAvc_record (profile compat level : UInt8) {sps pps : List UInt8} (hsps : sps.length < 256 ^ 2)
    (hpps : pps.length < 256 ^ 2) :
    parseAvc ([1, profile, compat, level, 0xFF, 0xE1] ++ prefixed 2 sps ++ [1] ++ prefixed 2 pps) =
      if profile.toNat ∈ highProfiles then none
      else some ⟨profile.toNat, compat.toNat, level.toNat, 4, [sps], [pps]⟩ := by
  have hversion (l : List UInt8) : readWhen 1 (· == 1) (1 :: l) = some (1, l) := readWhen_one rfl l
  have hsize (l : List UInt8) : readWhen 1 (· / 4 == 63) (0xFF :: l) = some (255, l) := readWhen_one rfl l
  have hcount (l : List UInt8) : readWhen 1 (· / 32 == 7) (0xE1 :: l) = some (225, l) := readWhen_one rfl l
  have hone : (1 : UInt8).toNat = 1 := rfl
  have hend := readUnits_one hpps []
  rw [List.append_nil] at hend
  unfold parseAvc readAvc
  simp only [List.append_assoc, List.cons_append, List.nil_append, Option.bind_eq_bind]
  rw [hversion, Option.bind_some, readNat_one, Option.bind_some, readNat_one, Option.bind_some, readNat_one, Option.bind_some,
    hsize, Option.bind_some, hcount, Option.bind_some]
  dsimp only
  rw [readUnits_one hsps, Option.bind_some, readNat_one, Option.bind_some, hone, hend, Option.bind_some]
  by_cases hhigh : profile.toNat ∈ highProfiles
  · simp only [if_pos hhigh]
    rfl
  · simp only [if_neg hhigh]
    rfl

/-- AVC の記録は、末尾の欄を求めるプロファイルのほかでは読み直せる。 -/
theorem avc_parsesBack_iff {data record : List UInt8} (hsps : (firstUnit false 7 data).length ≤ 65535)
    (hpps : (firstUnit false 8 data).length ≤ 65535)
    (h : avcRecord (firstUnit false 7 data) (firstUnit false 8 data) = .ok record) :
    ParsesBack false data record ↔ ((firstUnit false 7 data).getD 1 0).toNat ∉ highProfiles := by
  obtain ⟨profile, hprofile, h⟩ := of_bind h
  obtain ⟨compat, _, h⟩ := of_bind h
  obtain ⟨level, _, h⟩ := of_bind h
  cases h
  have hget : (firstUnit false 7 data).getD 1 0 = profile := by
    unfold read at hprofile
    rw [List.getD_eq_getElem?_getD]
    cases hat : (firstUnit false 7 data)[1]? with
    | none =>
        rw [hat] at hprofile
        cases hprofile
    | some b =>
        rw [hat] at hprofile
        cases hprofile
        rfl
  have hsize : (firstUnit false 7 data).length < 256 ^ 2 := by omega
  have hsize' : (firstUnit false 8 data).length < 256 ^ 2 := by omega
  have hparse := parseAvc_record profile compat level hsize hsize'
  rw [ParsesBack, if_neg Bool.false_ne_true, hget, sizeBytes_eq, sizeBytes_eq]
  simp only [prefixed, List.append_assoc] at hparse ⊢
  rw [hparse]
  split
  · rename_i hhigh
    simp [hhigh]
  · rename_i hlow
    simp [hlow]

/-! ## HEVC -/

/-- 記録の `general_profile_space` から `general_level_idc` までの十二バイト。 -/
def headerFields (p : ProfileTierLevel) : List UInt8 :=
  [(p.generalProfileSpace <<< 6) ||| (p.generalTierFlag <<< 5) ||| p.generalProfileIdc,
    (p.generalProfileCompatFlags >>> 24).toUInt8, (p.generalProfileCompatFlags >>> 16).toUInt8,
    (p.generalProfileCompatFlags >>> 8).toUInt8, p.generalProfileCompatFlags.toUInt8] ++ p.generalConstraintFlags ++
  [p.generalLevelIdc]

theorem hevcHeader_eq (p : ProfileTierLevel) (n : UInt8) :
    hevcHeader p n = [1] ++ headerFields p ++ [0xF0, 0x00, 0xFC, 0xFD, 0xFA, 0xFA, 0x00, 0x00, 0x03, n] := by
  simp [hevcHeader, headerFields]

theorem length_headerFields {sps : List UInt8} {p : ProfileTierLevel} (h : readProfileTierLevel sps = .ok p) :
    (headerFields p).length = 12 := by
  have hsix : p.generalConstraintFlags.length = 6 := by
    cases Nat.lt_or_ge 15 sps.length with
    | inl hlong =>
        rw [readProfileTierLevel_eq hlong] at h
        cases h
        simp only [List.length_take, List.length_drop]
        omega
    | inr hshort =>
        rw [readProfileTierLevel, if_neg (by omega)] at h
        cases h
        rfl
  simp [headerFields, hsix]

theorem parseHevc_record {fields l : List UInt8} (hfields : fields.length = 12) {n : UInt8}
    {arrays : List (Nat × List (List UInt8))} (harrays : readArrays n.toNat l = some (arrays, [])) :
    parseHevc ([1] ++ fields ++ [0xF0, 0x00, 0xFC, 0xFD, 0xFA, 0xFA, 0x00, 0x00, 0x03, n] ++ l) =
      some ⟨.ofBytes fields, 4, arrays⟩ := by
  have hversion (l : List UInt8) : readWhen 1 (· == 1) (1 :: l) = some (1, l) := readWhen_one rfl l
  have hsegment (l : List UInt8) : readWhen 2 (· / 4096 == 15) (0xF0 :: 0x00 :: l) = some (0xF000, l) := by
    have hread : readNat 2 (0xF0 :: 0x00 :: l) = some (0xF000, l) := readNat_of_length (u := [0xF0, 0x00]) rfl l
    unfold readWhen
    rw [hread]
    rfl
  have htwo (b : UInt8) (hb : b.toNat / 4 = 63) (l : List UInt8) : readWhen 1 (· / 4 == 63) (b :: l) = some (b.toNat, l) :=
    readWhen_one (p := (· / 4 == 63)) (beq_iff_eq.mpr hb) l
  have hdepth (l : List UInt8) : readWhen 1 (· / 8 == 31) (0xFA :: l) = some (0xFA, l) := readWhen_one rfl l
  have hrate (l : List UInt8) : readNat 2 (0x00 :: 0x00 :: l) = some (0, l) :=
    readNat_of_length (u := [0x00, 0x00]) rfl l
  unfold parseHevc readHevc
  simp only [List.append_assoc, List.cons_append, List.nil_append, Option.bind_eq_bind, Option.bind_some, hversion]
  rw [DecoderConfig.readProfileTierLevel_append hfields, Option.bind_some, hsegment, Option.bind_some, htwo 0xFC rfl,
    Option.bind_some, htwo 0xFD rfl, Option.bind_some, hdepth, Option.bind_some, hdepth, Option.bind_some, hrate,
    Option.bind_some, readNat_one, Option.bind_some, readNat_one, Option.bind_some, harrays]
  rfl

theorem hevc_parsesBack {data record : List UInt8} (hvps : (firstUnit true 32 data).length ≤ 65535)
    (hsps : (firstUnit true 33 data).length ≤ 65535) (hpps : (firstUnit true 34 data).length ≤ 65535)
    (h : hevcRecord (firstUnit true 32 data) (firstUnit true 33 data) (firstUnit true 34 data) = .ok record) :
    ParsesBack true data record := by
  obtain ⟨p, hp, h⟩ := of_bind h
  have hfields := length_headerFields hp
  have harray (type : UInt8) (htype : (0x80 ||| type).toNat / 64 % 2 = 0) (u l : List UInt8) (hu : u.length < 256 ^ 2) :
      readArray (appendHevcNaluArray type u ++ l) = some (((0x80 ||| type).toNat % 64, [u]), l) := by
    have h := readArray_one htype hu l
    rwa [prefixed, ← sizeBytes_eq, ← List.append_assoc] at h
  have hsps' := harray 33 rfl (firstUnit true 33 data) (appendHevcNaluArray 34 (firstUnit true 34 data)) (by omega)
  have hpps' := harray 34 rfl (firstUnit true 34 data) [] (by omega)
  rw [List.append_nil] at hpps'
  cases h
  cases hempty : firstUnit true 32 data with
  | nil =>
      have harrays : readArrays 2 (appendHevcNaluArray 33 (firstUnit true 33 data) ++
          appendHevcNaluArray 34 (firstUnit true 34 data)) =
          some ([(33, [firstUnit true 33 data]), (34, [firstUnit true 34 data])], []) := by
        simp only [readArrays, Option.bind_eq_bind, hsps', hpps', Option.bind_some]
        rfl
      have hparse := parseHevc_record (n := 2) hfields harrays
      rw [ParsesBack, if_pos rfl, hempty, if_pos rfl]
      refine ⟨⟨.ofBytes (headerFields p), 4, _⟩, ?_, rfl, rfl⟩
      rw [hevcHeader_eq]
      simpa only [List.isEmpty_nil, if_true, List.append_assoc, List.nil_append] using hparse
  | cons b vps =>
      rw [hempty] at hvps
      have hvps' := harray 32 rfl (b :: vps)
        (appendHevcNaluArray 33 (firstUnit true 33 data) ++ appendHevcNaluArray 34 (firstUnit true 34 data)) (by omega)
      have harrays : readArrays 3 (appendHevcNaluArray 32 (b :: vps) ++ (appendHevcNaluArray 33 (firstUnit true 33 data) ++
          appendHevcNaluArray 34 (firstUnit true 34 data))) =
          some ([(32, [b :: vps]), (33, [firstUnit true 33 data]), (34, [firstUnit true 34 data])], []) := by
        simp only [readArrays, Option.bind_eq_bind, hvps', hsps', hpps', Option.bind_some]
        rfl
      have hparse := parseHevc_record (n := 3) hfields harrays
      rw [ParsesBack, if_pos rfl, hempty, if_neg (List.cons_ne_nil b vps)]
      refine ⟨⟨.ofBytes (headerFields p), 4, _⟩, ?_, rfl, rfl⟩
      rw [hevcHeader_eq]
      simpa only [List.isEmpty_cons, Bool.false_eq_true, if_false, List.append_assoc, List.cons_append,
          List.nil_append] using hparse

/-! ## 記録の読み直し -/

theorem SizedFrame.hasSets {isHevc : Bool} (frame : SizedFrame isHevc) : HasSets isHevc frame.data := by
  have hsps := frame.sps.1
  have hpps := frame.pps.1
  constructor
  · intro hnil
    rw [hnil] at hsps
    contradiction
  · intro hnil
    rw [hnil] at hpps
    contradiction

theorem SizedFrame.readable {isHevc : Bool} (frame : SizedFrame isHevc) : Readable isHevc frame.data := by
  have hdata : 3 ≤ frame.data.length := by
    by_contra hshort
    exact frame.hasSets.1 (firstUnit_short (by omega))
  exact ⟨hdata, fun _ => .inr frame.sps.1⟩

/-- 設定の記録が読み直せるのは、HEVC のときと、SPS のプロファイルが末尾の欄を求めないときである。 -/
theorem recordParsesBack_iff (out : Output) (o : Outcomes) (ctx : PassthroughContext) (frame : SizedFrame ctx.isHevc) :
    (∃ ready ctx' calls, setupPassthroughExtradata out o ctx frame.data = .ok (ready, ctx', calls) ∧
      ParsesBack ctx.isHevc frame.data ctx'.extradata) ↔
      ctx.isHevc = true ∨ ((firstUnit false 7 frame.data).getD 1 0).toNat ∉ highProfiles := by
  obtain ⟨extradata, hfound⟩ := findConfig_some frame.fits frame.readable frame.hasSets
  have hrecord := record_of_found frame.fits hfound
  have hsps := frame.sps.2
  have hpps := frame.pps.2
  have hvps := frame.vps
  rw [setup_extradata_iff out o ctx hfound]
  generalize frame.data = data at hrecord hsps hpps hvps ⊢
  generalize ctx.isHevc = isHevc at hrecord hsps hpps hvps ⊢
  cases isHevc with
  | true =>
      have hvps : (firstUnit true 32 data).length ≤ 65535 := by
        cases hvps rfl with
        | inl hnil =>
            rw [hnil]
            exact Nat.zero_le _
        | inr hsize => exact hsize.2
      exact iff_of_true (hevc_parsesBack hvps hsps hpps hrecord) (.inl rfl)
  | false =>
      rw [avc_parsesBack_iff hsps hpps hrecord]
      exact (or_iff_right Bool.false_ne_true).symm

/-! ## High プロファイルの SPS -/

def RecordsParseBack : Prop :=
  ∀ (out : Output) (o : Outcomes) (ctx : PassthroughContext) (frame : SizedFrame ctx.isHevc),
    ∃ ready ctx' calls, setupPassthroughExtradata out o ctx frame.data = .ok (ready, ctx', calls) ∧
      ParsesBack ctx.isHevc frame.data ctx'.extradata

/-- `profile_idc` が 100 の SPS と、PPS からなる。 -/
def highUnits : List (Bool × List UInt8) := [(true, [0x67, 0x64, 0x00, 0x1F]), (true, [0x68, 0xEE, 0x3C, 0x80])]

theorem highUnits_first (type : Nat) :
    firstUnit false type (encode highUnits) = ((highUnits.map Prod.snd).find? fun u => typeOf false u == type).getD [] :=
  firstUnit_encode type (by decide)

def highFrame : SizedFrame false where
  data := encode highUnits
  fits := by decide
  sps := by rw [spsType, highUnits_first]; decide
  pps := by rw [ppsType, highUnits_first]; decide
  vps := nofun

theorem not_recordsParseBack : ¬RecordsParseBack := by
  intro h
  obtain ⟨ready, ctx', calls, hsetup, hback⟩ := h mp4 (succeeding 0) freshContext highFrame
  have hfound : findConfig freshContext.isHevc highFrame.data = .ok (some
      [1, 0x64, 0x00, 0x1F, 0xFF, 0xE1, 0, 4, 0x67, 0x64, 0x00, 0x1F, 1, 0, 4, 0x68, 0xEE, 0x3C, 0x80]) := by decide
  rw [setup_some mp4 (succeeding 0) hfound rfl] at hsetup
  cases hsetup
  obtain ⟨c, hparse, _⟩ := hback
  cases hparse

end RtcEgress.Passthrough
