import RtcEgress.Lib.Float
import RtcEgress.Lib.Json
import RtcEgress.Lib.Utf8
import Mathlib.Data.Nat.Digits.Defs

/-!
# Go の `json.Marshal` が書く文字列と整数

文字列では、`escChar` のほかに、HTML の文字と行の区切りもエスケープする。書いた列の長さの上限と、改行を含まないこととを
示す。
-/

namespace RtcEgress.Lib.Json

/-! ## 文字列 -/

/-- `\u` と四桁の十六進。 -/
def unicodeEscape (n : Nat) : List UInt8 :=
  [0x5C, 0x75, hexDigit (n / 4096 % 16), hexDigit (n / 256 % 16), hexDigit (n / 16 % 16), hexDigit (n % 16)]

def isHTMLUnsafe (c : Char) : Bool := c ∈ ['<', '>', '&', '\u2028', '\u2029']

def marshalChar (c : Char) : List UInt8 := if isHTMLUnsafe c then unicodeEscape c.toNat else escChar c

def marshalString (s : String) : List UInt8 := 0x22 :: (s.toList.flatMap marshalChar ++ [0x22])

theorem le_of_mem_marshalChar {c : Char} {b : UInt8} (hb : b ∈ marshalChar c) : 0x20 ≤ b := by
  unfold marshalChar at hb
  split at hb
  · simp only [unicodeEscape, List.mem_cons, List.not_mem_nil, or_false] at hb
    rcases hb with rfl | rfl | rfl | rfl | rfl | rfl
    · decide
    · decide
    all_goals exact le_hexDigit (Nat.mod_lt _ (by decide))
  · exact le_of_mem_escChar hb

theorem le_of_mem_marshalString {s : String} {b : UInt8} (hb : b ∈ marshalString s) : 0x20 ≤ b := by
  simp only [marshalString, List.mem_cons, List.mem_append, List.mem_flatMap, List.not_mem_nil, or_false] at hb
  rcases hb with rfl | ⟨c, -, hc⟩ | rfl
  · decide
  · exact le_of_mem_marshalChar hc
  · decide

/-- 一文字は、もとのバイトの数の六倍までになる。 -/
theorem length_marshalChar (c : Char) : 1 ≤ (marshalChar c).length ∧ (marshalChar c).length ≤ 6 * c.utf8Size := by
  have hsize := c.utf8Size_pos
  unfold marshalChar
  split
  · simp only [unicodeEscape, List.length_cons, List.length_nil]
    omega
  · have hne := List.length_pos_of_ne_nil (escChar_ne_nil c)
    have hle : (escChar c).length ≤ 6 * c.utf8Size := by
      refine escChar_cases c (fun _ _ _ => ?_) (fun _ => ?_) fun _ _ _ => ?_
      · simp only [List.length_cons, List.length_nil]
        omega
      · simp only [List.length_cons, List.length_nil]
        omega
      · rw [String.length_utf8EncodeChar]
        omega
    exact ⟨hne, hle⟩

theorem length_flatMap_marshalChar (l : List Char) :
    l.length ≤ (l.flatMap marshalChar).length ∧ (l.flatMap marshalChar).length ≤ 6 * (l.map Char.utf8Size).sum := by
  induction l with
  | nil => simp
  | cons c l ih =>
      have hc := length_marshalChar c
      simp only [List.flatMap_cons, List.length_append, List.length_cons, List.map_cons, List.sum_cons]
      omega

theorem length_marshalString_le (s : String) : (marshalString s).length ≤ 6 * s.utf8ByteSize + 2 := by
  have h := (length_flatMap_marshalChar s.toList).2
  rw [← utf8ByteSize_eq_sum] at h
  simp only [marshalString, List.length_cons, List.length_append, List.length_nil]
  omega

theorem le_length_marshalString (s : String) : s.length + 2 ≤ (marshalString s).length := by
  have h := (length_flatMap_marshalChar s.toList).1
  rw [String.length_toList] at h
  simp only [marshalString, List.length_cons, List.length_append, List.length_nil]
  omega

/-! ## 整数 -/

/-- 十進の整数。 -/
def marshalInt (n : Int) : List UInt8 :=
  (if n < 0 then [0x2D] else []) ++ (Nat.toDigits 10 n.natAbs).map Char.toUInt8

theorem le_of_mem_marshalInt {n : Int} {b : UInt8} (hb : b ∈ marshalInt n) : 0x20 ≤ b := by
  rw [marshalInt, List.mem_append] at hb
  rcases hb with hb | hb
  · split at hb
    · rw [List.mem_singleton] at hb
      rw [hb]
      decide
    · simp at hb
  · obtain ⟨c, hc, rfl⟩ := List.mem_map.mp hb
    have hdigit := Nat.isDigit_of_mem_toDigits (by decide) (by decide) hc
    simp only [Char.isDigit, Bool.and_eq_true, decide_eq_true_eq, ge_iff_le, UInt32.le_iff_toNat_le] at hdigit
    rw [UInt8.le_iff_toNat_le]
    change 32 ≤ c.val.toNat % 256
    change 48 ≤ c.val.toNat ∧ c.val.toNat ≤ 57 at hdigit
    omega

/-- 64 ビットの整数は、二十文字までで書ける。 -/
theorem length_marshalInt_le {n : Int} (h : inInt64 n = true) : (marshalInt n).length ≤ 20 := by
  simp only [inInt64, Bool.and_eq_true, decide_eq_true_eq] at h
  have hdigits : (Nat.toDigits 10 n.natAbs).length ≤ 19 := Nat.toDigits_length 10 _ 19 (by decide) (by omega)
  simp only [marshalInt, List.length_append, List.length_map]
  split
  · simp only [List.length_cons, List.length_nil]
    omega
  · simp only [List.length_nil]
    omega

end RtcEgress.Lib.Json
