import Mathlib.Algebra.Order.Floor.Ring
import Mathlib.Data.Rat.Floor
import RtcEgress.Lib.Marshal

/-!
# 十進の数の表記

数字の列の値と、小数と指数のある表記に最も近い `float64` を定める。整数の書き出しは、数字の列として読める。
-/

namespace RtcEgress.Lib.Decimal

open Json (isDigit marshalInt)

/-! ## 数字の列 -/

def natOf (digits : List UInt8) : Nat := digits.foldl (fun n b => 10 * n + (b.toNat - 0x30)) 0

def digits (n : Nat) : List UInt8 := (Nat.toDigits 10 n).map Char.toUInt8

theorem toNat_toUInt8 {c : Char} (h : c.isDigit = true) :
    c.toUInt8.toNat = c.toNat ∧ 0x30 ≤ c.toNat ∧ c.toNat ≤ 0x39 := by
  simp only [Char.isDigit, Bool.and_eq_true, decide_eq_true_eq, ge_iff_le, UInt32.le_iff_toNat_le] at h
  change 48 ≤ c.toNat ∧ c.toNat ≤ 57 at h
  have hmod : c.toUInt8.toNat = c.toNat % 256 := rfl
  omega

theorem isDigit_toUInt8 {c : Char} (h : c.isDigit = true) : isDigit c.toUInt8 = true := by
  obtain ⟨heq, hlo, hhi⟩ := toNat_toUInt8 h
  simp only [isDigit, Bool.and_eq_true, decide_eq_true_eq, UInt8.le_iff_toNat_le, heq]
  exact ⟨hlo, hhi⟩

theorem isDigit_of_mem_digits {n : Nat} {b : UInt8} (h : b ∈ digits n) : isDigit b = true := by
  obtain ⟨c, hc, rfl⟩ := List.mem_map.mp h
  exact isDigit_toUInt8 (Nat.isDigit_of_mem_toDigits (by decide) (by decide) hc)

theorem digits_ne_nil (n : Nat) : digits n ≠ [] := by simp [digits]

theorem natOf_digits (n : Nat) : natOf (digits n) = n := by
  have hfold (cs : List Char) (k : Nat) (h : ∀ c ∈ cs, c.isDigit = true) :
      (cs.map Char.toUInt8).foldl (fun n b => 10 * n + (b.toNat - 0x30)) k = Nat.ofDigitChars 10 cs k := by
    induction cs generalizing k with
    | nil => simp
    | cons c cs ih =>
        rw [List.forall_mem_cons] at h
        rw [List.map_cons, List.foldl_cons, ih _ h.2, Nat.ofDigitChars_cons, (toNat_toUInt8 h.1).1]
        rfl
  have hdigits : ∀ c ∈ Nat.toDigits 10 n, c.isDigit = true := fun c hc =>
    Nat.isDigit_of_mem_toDigits (by decide) (by decide) hc
  rw [natOf, digits, hfold _ _ hdigits, Nat.ofDigitChars_ten_toDigits]

/-- 零のほかの数は、零でない数字で始まる。 -/
theorem digits_eq (n : Nat) : (n = 0 ∧ digits n = [0x30]) ∨ ∃ b l, digits n = b :: l ∧ b ≠ 0x30 := by
  induction n using Nat.base_induction 10 (by decide) with
  | single m hm =>
      have hdigit : digits m = [m.digitChar.toUInt8] := by rw [digits, Nat.toDigits_of_lt_base hm, List.map_singleton]
      have hne : m = 0 ∨ m.digitChar.toUInt8 ≠ 0x30 := by
        revert m
        decide
      rcases hne with rfl | hne
      · exact .inl ⟨rfl, rfl⟩
      · exact .inr ⟨_, [], hdigit, hne⟩
  | digit m k hk hm ih =>
      have hdigits : digits (10 * m + k) = digits m ++ digits k := by
        rw [digits, ← Nat.toDigits_append_toDigits (by decide) hm hk, List.map_append, digits, digits]
      rcases ih with ⟨rfl, -⟩ | ⟨b, l, hl, hb⟩
      · cases hm
      · exact .inr ⟨b, l ++ digits k, by rw [hdigits, hl, List.cons_append], hb⟩

theorem marshalInt_eq (n : Int) : marshalInt n = if n < 0 then 0x2D :: digits n.natAbs else digits n.natAbs := by
  rw [marshalInt, digits]
  split <;> rfl

/-! ## 小数と指数 -/

def roundEven (q : Rat) : Int :=
  let n := q.floor
  if q - n < 1 / 2 ∨ (q - n = 1 / 2 ∧ n % 2 = 0) then n else n + 1

/-- `2 ^ k` の倍数のうち、最も近い数。 -/
def nearestScaled (q : Rat) (k : Int) : Rat :=
  let up : Rat := (2 ^ k.toNat : Nat)
  let down : Rat := (2 ^ (-k).toNat : Nat)
  roundEven (q / up * down) * up / down

/-- 正の数の、二を底とする対数の切り捨て。 -/
def log2 (q : Rat) : Int :=
  let e : Int := q.num.natAbs.log2 - q.den.log2
  let power : Rat := ((2 ^ e.toNat : Nat) : Rat) / ((2 ^ (-e).toNat : Nat) : Rat)
  if q < power then e - 1 else e

/-- 最も近い `float64`。有限の値に収まらなければ `none` である。 -/
def nearest (q : Rat) : Option Rat :=
  if q = 0 then some 0
  else
    let r := nearestScaled q (max (log2 |q| - 52) (-1074))
    if |r| < ((2 ^ 1024 : Nat) : Rat) then some r else none

/-- 小数と指数のある表記の値。表記は、数の文法に従う。 -/
def valueOf (text : List UInt8) : Rat :=
  let body := if text.head? = some 0x2D then text.tail else text
  let mantissa := body.takeWhile fun b => b ≠ 0x65 ∧ b ≠ 0x45
  let exponent := body.drop (mantissa.length + 1)
  let whole := mantissa.takeWhile isDigit
  let frac := mantissa.drop (whole.length + 1)
  let scale := natOf (exponent.filter isDigit)
  let m : Rat := (natOf (whole ++ frac) : Rat) / ((10 ^ frac.length : Nat) : Rat)
  let q : Rat := if exponent.head? = some 0x2D then m / ((10 ^ scale : Nat) : Rat) else m * ((10 ^ scale : Nat) : Rat)
  if text.head? = some 0x2D then -q else q

end RtcEgress.Lib.Decimal
