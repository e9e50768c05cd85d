import RtcEgress.Lib.Int64

/-!
# 時刻の単位の変換

`av_rescale_q` の計算を定める。`a * b / c` を、もっとも近い整数に、中間の値は 0 から遠い方に丸める。64 ビットの整数に収まらない
結果は、最小の整数になる。
-/

namespace RtcEgress.Lib

/-- 時刻がないことを表す値。 -/
def AV_NOPTS_VALUE : Int := -2 ^ 63

/-- 負でない値の、四捨五入した商。 -/
def roundDiv (a b c : Nat) : Nat := (a * b + c / 2) / c

def rescale (a : Int) (b c : Nat) : Int :=
  let n : Int := roundDiv a.natAbs b c
  if 2 ^ 63 ≤ n then -2 ^ 63
  else if a < 0 then -n
  else n

theorem rescale_lt (a : Int) (b c : Nat) : rescale a b c < 2 ^ 63 := by
  simp only [rescale]
  split_ifs <;> omega

/-- 収まるときは、丸めた商になる。 -/
theorem rescale_natCast {a b c : Nat} (h : roundDiv a b c < 2 ^ 63) : rescale a b c = roundDiv a b c := by
  rw [rescale, Int.natAbs_natCast, if_neg (by omega), if_neg (by omega)]

theorem roundDiv_mono {a a' : Nat} (b c : Nat) (h : a ≤ a') : roundDiv a b c ≤ roundDiv a' b c :=
  Nat.div_le_div_right (Nat.add_le_add_right (Nat.mul_le_mul_right b h) _)

/-- 細かくしない変換は、値を大きくしない。 -/
theorem roundDiv_le {b c : Nat} (a : Nat) (hc : 0 < c) (h : b ≤ c) : roundDiv a b c ≤ a := by
  have hmul : a * b ≤ a * c := Nat.mul_le_mul_left a h
  have hlt : roundDiv a b c < a + 1 := by
    rw [roundDiv, Nat.div_lt_iff_lt_mul hc, Nat.add_mul]
    omega
  omega

/-- 変換した後の一つ以上にあたる隔たりは、丸めても消えない。 -/
theorem roundDiv_lt {a a' b c d : Nat} (hc : 0 < c) (hd : c ≤ d * b) (h : a + d ≤ a') : roundDiv a b c < roundDiv a' b c := by
  have hmul : (a + d) * b ≤ a' * b := Nat.mul_le_mul_right b h
  have hstep : roundDiv a b c + 1 = (a * b + c / 2 + c) / c := by rw [roundDiv, Nat.add_div_right _ hc]
  have hle : (a * b + c / 2 + c) / c ≤ roundDiv a' b c := by
    refine Nat.div_le_div_right ?_
    rw [Nat.add_mul] at hmul
    omega
  omega

theorem rescale_lt_rescale {a a' : Int} {b c d : Nat} (hc : 0 < c) (hbc : b ≤ c) (hd : c ≤ d * b) (ha : 0 ≤ a)
    (h : a + d ≤ a') (ha' : a' < 2 ^ 63) : rescale a b c < rescale a' b c := by
  obtain ⟨n, rfl⟩ := Int.eq_ofNat_of_zero_le ha
  obtain ⟨n', rfl⟩ := Int.eq_ofNat_of_zero_le (show 0 ≤ a' by omega)
  have hn := roundDiv_le n hc hbc
  have hn' := roundDiv_le n' hc hbc
  have hlt := roundDiv_lt hc hd (show n + d ≤ n' by omega)
  rw [rescale_natCast (by omega), rescale_natCast (by omega)]
  omega

end RtcEgress.Lib
