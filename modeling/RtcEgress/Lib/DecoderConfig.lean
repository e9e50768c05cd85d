import Mathlib.Data.List.Basic
import RtcEgress.Lib.Framing

/-!
# ISO/IEC 14496-15 の復号器の設定

`AVCDecoderConfigurationRecord` と `HEVCDecoderConfigurationRecord` を、予約されたビットを確かめながら、列の終わりまで読む。
-/

namespace RtcEgress.Lib.DecoderConfig

open Framing

/-- 十六ビットの長さを前に置いた単位を、`n` 個読む。 -/
def readUnits : (n : Nat) → List UInt8 → Option (List (List UInt8) × List UInt8)
  | 0, l => some ([], l)
  | n + 1, l => do
      let (u, l) ← readPrefixed 2 l
      let (us, l) ← readUnits n l
      return (u :: us, l)

/-- 値が条件を満たすときだけ読む。 -/
def readWhen (width : Nat) (p : Nat → Bool) (l : List UInt8) : Option (Nat × List UInt8) := do
  let (n, l) ← readNat width l
  if p n then some (n, l) else none

/-- 終わりまで読んだ値。 -/
def finish {α : Type} (r : Option (α × List UInt8)) : Option α := do
  let (a, l) ← r
  if l.isEmpty then some a else none

/-! ## AVC -/

structure AvcConfig where
  profile : Nat
  compatibility : Nat
  level : Nat
  lengthSize : Nat
  sps : List (List UInt8)
  pps : List (List UInt8)

/-- 色差の形式とビットの深さを持つ `profile`。 -/
def highProfiles : List Nat := [100, 110, 122, 144]

/-- `chroma_format`、二つのビットの深さ、SPS の拡張。 -/
def readHigh (l : List UInt8) : Option (Unit × List UInt8) := do
  let (_, l) ← readWhen 1 (· / 4 == 63) l
  let (_, l) ← readWhen 1 (· / 8 == 31) l
  let (_, l) ← readWhen 1 (· / 8 == 31) l
  let (n, l) ← readNat 1 l
  let (_, l) ← readUnits n l
  return ((), l)

def readAvc (l : List UInt8) : Option (AvcConfig × List UInt8) := do
  let (_, l) ← readWhen 1 (· == 1) l
  let (profile, l) ← readNat 1 l
  let (compatibility, l) ← readNat 1 l
  let (level, l) ← readNat 1 l
  let (size, l) ← readWhen 1 (· / 4 == 63) l
  let (numSps, l) ← readWhen 1 (· / 32 == 7) l
  let (sps, l) ← readUnits (numSps % 32) l
  let (numPps, l) ← readNat 1 l
  let (pps, l) ← readUnits numPps l
  let (_, l) ← if profile ∈ highProfiles then readHigh l else some ((), l)
  return (⟨profile, compatibility, level, size % 4 + 1, sps, pps⟩, l)

def parseAvc (l : List UInt8) : Option AvcConfig := finish (readAvc l)

/-! ## HEVC -/

/-- `general_profile_space` から `general_level_idc` まで。 -/
structure ProfileTierLevel where
  profileSpace : Nat
  tierFlag : Nat
  profileIdc : Nat
  compatibilityFlags : Nat
  constraintFlags : Nat
  levelIdc : Nat
  deriving DecidableEq

def readProfileTierLevel (l : List UInt8) : Option (ProfileTierLevel × List UInt8) := do
  let (profile, l) ← readNat 1 l
  let (compatibility, l) ← readNat 4 l
  let (constraint, l) ← readNat 6 l
  let (level, l) ← readNat 1 l
  return (⟨profile / 64, profile / 32 % 2, profile % 32, compatibility, constraint, level⟩, l)

/-- 十二バイトの欄。 -/
def ProfileTierLevel.ofBytes (l : List UInt8) : ProfileTierLevel :=
  let profile := readBig (l.take 1)
  ⟨profile / 64, profile / 32 % 2, profile % 32, readBig ((l.drop 1).take 4), readBig ((l.drop 5).take 6), readBig (l.drop 11)⟩

structure HevcConfig where
  profile : ProfileTierLevel
  lengthSize : Nat
  arrays : List (Nat × List (List UInt8))

/-- 一つの種類の単位の並び。 -/
def readArray (l : List UInt8) : Option ((Nat × List (List UInt8)) × List UInt8) := do
  let (type, l) ← readWhen 1 (· / 64 % 2 == 0) l
  let (n, l) ← readNat 2 l
  let (units, l) ← readUnits n l
  return ((type % 64, units), l)

def readArrays : (n : Nat) → List UInt8 → Option (List (Nat × List (List UInt8)) × List UInt8)
  | 0, l => some ([], l)
  | n + 1, l => do
      let (a, l) ← readArray l
      let (as, l) ← readArrays n l
      return (a :: as, l)

def readHevc (l : List UInt8) : Option (HevcConfig × List UInt8) := do
  let (_, l) ← readWhen 1 (· == 1) l
  let (profile, l) ← readProfileTierLevel l
  -- `min_spatial_segmentation_idc`、`parallelismType`、`chromaFormat`、二つのビットの深さ、`avgFrameRate` の順に並ぶ。
  let (_, l) ← readWhen 2 (· / 4096 == 15) l
  let (_, l) ← readWhen 1 (· / 4 == 63) l
  let (_, l) ← readWhen 1 (· / 4 == 63) l
  let (_, l) ← readWhen 1 (· / 8 == 31) l
  let (_, l) ← readWhen 1 (· / 8 == 31) l
  let (_, l) ← readNat 2 l
  let (size, l) ← readNat 1 l
  let (numArrays, l) ← readNat 1 l
  let (arrays, l) ← readArrays numArrays l
  return (⟨profile, size % 4 + 1, arrays⟩, l)

def parseHevc (l : List UInt8) : Option HevcConfig := finish (readHevc l)

/-! ## 読み取り -/

theorem readNat_one (b : UInt8) (l : List UInt8) : readNat 1 (b :: l) = some (b.toNat, l) := by
  simp [readNat, takeExactly, readBig]

theorem readWhen_one {p : Nat → Bool} {b : UInt8} (hb : p b.toNat = true) (l : List UInt8) :
    readWhen 1 p (b :: l) = some (b.toNat, l) := by
  unfold readWhen
  rw [readNat_one]
  exact if_pos hb

theorem readUnits_one {u : List UInt8} (hu : u.length < 256 ^ 2) (l : List UInt8) :
    readUnits 1 (prefixed 2 u ++ l) = some ([u], l) := by
  unfold readUnits
  rw [readPrefixed_append hu]
  rfl

/-- 欄ごとに分ける。 -/
theorem split_fields (l : List UInt8) : l = l.take 1 ++ ((l.drop 1).take 4 ++ ((l.drop 5).take 6 ++ l.drop 11)) := by
  have h6 := List.take_append_drop 6 (l.drop 5)
  have h4 := List.take_append_drop 4 (l.drop 1)
  rw [List.drop_drop] at h6 h4
  rw [h6, h4, List.take_append_drop]

theorem readProfileTierLevel_append {l : List UInt8} (h : l.length = 12) (rest : List UInt8) :
    readProfileTierLevel (l ++ rest) = some (.ofBytes l, rest) := by
  have hread : readProfileTierLevel (l ++ rest) = readProfileTierLevel (l.take 1 ++ ((l.drop 1).take 4 ++
      ((l.drop 5).take 6 ++ (l.drop 11 ++ rest)))) := by
    rw [← List.append_assoc ((l.drop 5).take 6), ← List.append_assoc ((l.drop 1).take 4), ← List.append_assoc (l.take 1),
      ← split_fields]
  rw [hread]
  unfold readProfileTierLevel
  simp only [Option.bind_eq_bind]
  rw [readNat_of_length (by simp [h]), Option.bind_some, readNat_of_length (by simp [h]), Option.bind_some,
    readNat_of_length (by simp [h]), Option.bind_some, readNat_of_length (by simp [h]), Option.bind_some]
  rfl

/-- 読めるのは、十二バイト以上の列だけである。 -/
theorem readProfileTierLevel_some {l rest : List UInt8} {p : ProfileTierLevel} (h : readProfileTierLevel l = some (p, rest)) :
    12 ≤ l.length ∧ p = .ofBytes (l.take 12) := by
  have hlen : 12 ≤ l.length := by
    unfold readProfileTierLevel at h
    obtain ⟨⟨profile, l₁⟩, h1, h⟩ := Option.bind_eq_some_iff.mp h
    obtain ⟨⟨compatibility, l₂⟩, h2, h⟩ := Option.bind_eq_some_iff.mp h
    obtain ⟨⟨constraint, l₃⟩, h3, h⟩ := Option.bind_eq_some_iff.mp h
    obtain ⟨⟨level, l₄⟩, h4, _⟩ := Option.bind_eq_some_iff.mp h
    have hlen1 := readNat_length h1
    have hlen2 := readNat_length h2
    have hlen3 := readNat_length h3
    have hlen4 := readNat_length h4
    omega
  have hread := readProfileTierLevel_append (l := l.take 12) (by simp [hlen]) (l.drop 12)
  rw [List.take_append_drop, h] at hread
  cases hread
  exact ⟨hlen, rfl⟩

/-- 欄は十二バイトを定める。 -/
theorem ProfileTierLevel.ofBytes_inj {l l' : List UInt8} (hl : l.length = 12) (hl' : l'.length = 12)
    (h : ProfileTierLevel.ofBytes l = .ofBytes l') : l = l' := by
  unfold ProfileTierLevel.ofBytes at h
  injection h with hspace htier hidc hcompat hconstraint hlevel
  have hfirst : readBig (l.take 1) = readBig (l'.take 1) := by omega
  have h1 := readBig_inj (by simp [hl, hl']) hfirst
  have h4 := readBig_inj (by simp [hl, hl']) hcompat
  have h6 := readBig_inj (by simp [hl, hl']) hconstraint
  have h11 := readBig_inj (by simp [hl, hl']) hlevel
  rw [split_fields l, split_fields l', h1, h4, h6, h11]

theorem readArray_one {type : UInt8} {u : List UInt8} (htype : type.toNat / 64 % 2 = 0) (hu : u.length < 256 ^ 2)
    (l : List UInt8) : readArray ([type, 0, 1] ++ prefixed 2 u ++ l) = some ((type.toNat % 64, [u]), l) := by
  have hcount : readNat 2 (0 :: 1 :: (prefixed 2 u ++ l)) = some (1, prefixed 2 u ++ l) :=
    readNat_of_length (u := [0, 1]) rfl _
  have hreserved (l : List UInt8) : readWhen 1 (· / 64 % 2 == 0) (type :: l) = some (type.toNat, l) :=
    readWhen_one (p := (· / 64 % 2 == 0)) (beq_iff_eq.mpr htype) l
  unfold readArray
  rw [List.append_assoc]
  simp only [List.cons_append, List.nil_append, Option.bind_eq_bind]
  rw [hreserved, Option.bind_some, hcount, Option.bind_some, readUnits_one hu]
  rfl

end RtcEgress.Lib.DecoderConfig
