import RtcEgress.Passthrough.Bitstream

/-!
# Annex-B から AVCC への変換

単位の列を Annex-B に並べたバイト列を、`annexBToAvcc` と `parseAnnexBNalUnits` がどう分けるかを示す。
-/

namespace RtcEgress.Passthrough

open Lib Lib.AnnexB Lib.Framing

/-- 単位の種類。H.264 では先頭の五ビット、HEVC では先頭のバイトの中の六ビットである。 -/
def typeOf (isHevc : Bool) (u : List UInt8) : Nat :=
  let b := (u.headD 0).toNat
  if isHevc then b / 2 % 64 else b % 32

def ParameterSet (isHevc : Bool) (u : List UInt8) : Prop :=
  if isHevc then typeOf isHevc u = 32 ∨ typeOf isHevc u = 33 ∨ typeOf isHevc u = 34
  else typeOf isHevc u = 7 ∨ typeOf isHevc u = 8

instance (isHevc : Bool) (u : List UInt8) : Decidable (ParameterSet isHevc u) := by
  unfold ParameterSet
  infer_instance

/-- 単位と、その前に置く開始符号の選択。 -/
structure NalStream where
  units : List (Bool × List UInt8)
  nonempty : units ≠ []
  wellFormed : ∀ e ∈ units, WellFormed e.2
  short : ∀ e ∈ units, e.2.length < 2 ^ 32
  fits : (encode units).length < 2 ^ 63

def NalStream.bytes (stream : NalStream) : List UInt8 := encode stream.units

def NalStream.nalus (stream : NalStream) : List (List UInt8) := stream.units.map Prod.snd

theorem nalType_eq (isHevc : Bool) (u : List UInt8) : nalType isHevc (u.headD 0) = typeOf isHevc u := by
  cases isHevc with
  | true =>
      have hmask := Nat.and_two_pow_sub_one_eq_mod ((u.headD 0).toNat / 2) 6
      change ((u.headD 0 >>> 1) &&& 0x3F).toNat = (u.headD 0).toNat / 2 % 64
      rw [UInt8.toNat_and, UInt8.toNat_shiftRight]
      exact hmask
  | false =>
      have hmask := Nat.and_two_pow_sub_one_eq_mod (u.headD 0).toNat 5
      change (u.headD 0 &&& 0x1F).toNat = (u.headD 0).toNat % 32
      rw [UInt8.toNat_and]
      exact hmask

theorem isParamSet_iff (isHevc : Bool) (u : List UInt8) :
    isParamSet isHevc (typeOf isHevc u) = true ↔ ParameterSet isHevc u := by
  unfold isParamSet ParameterSet
  cases isHevc with
  | true =>
      simp only [if_true, Bool.and_eq_true, decide_eq_true_eq]
      omega
  | false => simp only [Bool.false_eq_true, if_false, Bool.or_eq_true, beq_iff_eq]

theorem kept_eq (isHevc : Bool) : kept isHevc = fun u => decide (¬ParameterSet isHevc u) := by
  funext u
  rw [kept, nalType_eq, Bool.eq_iff_iff, decide_eq_true_eq, ← isParamSet_iff, Bool.not_eq_true', Bool.not_eq_true]

/-- 開始符号の後には単位があるので、列は四バイト以上になる。 -/
theorem NalStream.four_le (stream : NalStream) : 4 ≤ stream.bytes.length := by
  cases hunits : stream.units with
  | nil => exact absurd hunits stream.nonempty
  | cons e units =>
      have hmem : e ∈ stream.units := hunits ▸ List.mem_cons_self
      have hpos := List.length_pos_of_ne_nil (stream.wellFormed e hmem).ne_nil
      have hcode : 3 ≤ (startCode e.1).length := by cases e.1 <;> decide
      rw [NalStream.bytes, hunits, encode, List.flatMap_cons, List.length_append, List.length_append]
      omega

/-- 変換した列は、パラメータセットを除いた単位へ過不足なく分かれる。走査は、すべての単位を種類とともに返す。 -/
theorem annexBToAvcc_faithful (stream : NalStream) (isHevc : Bool) :
    (∃ avcc, annexBToAvcc stream.bytes isHevc = .ok avcc ∧
      splitLengths 4 avcc = some (stream.nalus.filter fun u => ¬ParameterSet isHevc u)) ∧
    parseAnnexBNalUnits stream.bytes isHevc = .ok (stream.nalus.map fun u => (typeOf isHevc u, u)) := by
  have hfour := stream.four_le
  have hfits : stream.bytes.length < 2 ^ 63 := stream.fits
  have hbody : unitsBy body stream.bytes = stream.nalus :=
    unitsBy_encode (fun _ _ => body_wellFormed) stream.units stream.wellFormed
  have hfirst : unitsBy bodyAfterFirst stream.bytes = stream.nalus :=
    unitsBy_encode (fun _ _ => bodyAfterFirst_wellFormed) stream.units stream.wellFormed
  constructor
  · refine ⟨_, annexBToAvcc_eq isHevc hfits, ?_⟩
    rw [hbody, kept_eq]
    apply splitLengths_flatMap (by decide)
    intro u hu
    obtain ⟨e, he, rfl⟩ := List.mem_map.mp (List.mem_of_mem_filter hu)
    exact stream.short e he
  · rw [parseAnnexBNalUnits_eq isHevc (by omega) hfits, hfirst]
    simp only [nalType_eq]

/-- H.264 の SPS と PPS とスライス。開始符号は三バイトと四バイトが混じる。 -/
def keyframeStream : NalStream where
  units := [(true, [0x67, 0x42, 0xE0, 0x1F]), (false, [0x68, 0xCE]), (true, [0x65, 0x88, 0x00, 0x00, 0x03, 0x01])]
  nonempty := by simp
  wellFormed := by decide
  short := by decide
  fits := by decide

/-- 長さに分けると、スライスだけが残る。 -/
theorem keyframeStream_converted :
    (∃ avcc, annexBToAvcc keyframeStream.bytes false = .ok avcc ∧
      splitLengths 4 avcc = some [[0x65, 0x88, 0x00, 0x00, 0x03, 0x01]]) ∧
    parseAnnexBNalUnits keyframeStream.bytes false =
      .ok [(7, [0x67, 0x42, 0xE0, 0x1F]), (8, [0x68, 0xCE]), (5, [0x65, 0x88, 0x00, 0x00, 0x03, 0x01])] :=
  annexBToAvcc_faithful keyframeStream false

end RtcEgress.Passthrough
