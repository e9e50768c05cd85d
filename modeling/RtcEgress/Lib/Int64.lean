import Mathlib.Algebra.Order.Ring.Int

/-!
# 64 ビットの符号付き整数

`int64_t` の計算の結果を整数で表す。収まらない値は `2 ^ 64` を法として折り返す。
-/

namespace RtcEgress.Lib

def toInt64 (n : Int) : Int := n.bmod (2 ^ 64)

theorem toInt64_range (n : Int) : -2 ^ 63 ≤ toInt64 n ∧ toInt64 n < 2 ^ 63 := by
  have hlo := Int.le_bmod (x := n) (m := 2 ^ 64) (by decide)
  have hhi := Int.bmod_lt (x := n) (m := 2 ^ 64) (by decide)
  unfold toInt64
  constructor <;> omega

theorem toInt64_of_range {n : Int} (h : -2 ^ 63 ≤ n ∧ n < 2 ^ 63) : toInt64 n = n := by
  obtain ⟨hlo, hhi⟩ := h
  exact Int.bmod_eq_of_le (by omega) (by omega)

@[simp] theorem toInt64_zero : toInt64 0 = 0 := by decide

/-- 折り返しは、最後に一度だけ行っても同じである。 -/
@[simp] theorem toInt64_mul (a b : Int) : toInt64 (toInt64 a * b) = toInt64 (a * b) :=
  Int.bmod_mul_bmod

/-- 一つ上の値からの桁あふれは、負になる。 -/
theorem toInt64_of_overflow {n : Int} (h : 2 ^ 63 ≤ n ∧ n < 2 ^ 64) : toInt64 n < 0 := by
  obtain ⟨hlo, hhi⟩ := h
  rw [toInt64, Int.bmod_def]
  split <;> omega

/-- 正の増分を足した値が増えるのは、桁があふれないときである。 -/
theorem lt_toInt64_add_iff {a d : Int} (ha : 0 ≤ a ∧ a < 2 ^ 63) (hd : 0 < d ∧ d < 2 ^ 63) :
    a < toInt64 (a + d) ↔ a + d < 2 ^ 63 := by
  obtain ⟨halo, hahi⟩ := ha
  obtain ⟨hdlo, hdhi⟩ := hd
  by_cases h : a + d < 2 ^ 63
  · rw [toInt64_of_range ⟨by omega, h⟩]
    omega
  · have := toInt64_of_overflow (n := a + d) ⟨by omega, by omega⟩
    omega

theorem mul_two_pow_le {b : Int} (hb : 0 ≤ b) {n m : Nat} (h : n ≤ m) : b * 2 ^ n ≤ b * 2 ^ m :=
  Int.mul_le_mul_of_nonneg_left (pow_le_pow_right₀ (by decide) h) hb

theorem le_mul_two_pow {b : Int} (hb : 0 ≤ b) (n : Nat) : b ≤ b * 2 ^ n := by
  have h := mul_two_pow_le hb (Nat.zero_le n)
  rwa [Int.pow_zero, Int.mul_one] at h

/-- 倍にし続けた値がどれも正であるのは、最後の値の桁があふれないときである。初めてあふれた値は、いつも負になる。 -/
theorem pos_toInt64_two_pow_iff {b : Int} (hb : 0 < b ∧ b < 2 ^ 63) (m : Nat) :
    (∀ n ≤ m, 0 < toInt64 (b * 2 ^ n)) ↔ b * 2 ^ m < 2 ^ 63 := by
  constructor
  · intro h
    induction m with
    | zero =>
        rw [Int.pow_zero, Int.mul_one]
        exact hb.2
    | succ m ih =>
        have hprev := ih fun n hn => h n (Nat.le_succ_of_le hn)
        have hdouble : b * 2 ^ (m + 1) = b * 2 ^ m * 2 := by rw [Int.pow_succ, Int.mul_assoc]
        have hlast := h (m + 1) (Nat.le_refl _)
        by_contra hover
        have hneg := toInt64_of_overflow (n := b * 2 ^ (m + 1)) ⟨by omega, by omega⟩
        omega
  · intro h n hn
    have hpos : 0 < b * 2 ^ n := Int.lt_of_lt_of_le hb.1 (le_mul_two_pow (Int.le_of_lt hb.1) n)
    have hle := mul_two_pow_le (Int.le_of_lt hb.1) hn
    rw [toInt64_of_range ⟨by omega, by omega⟩]
    exact hpos

end RtcEgress.Lib
