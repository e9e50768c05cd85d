import RtcEgress.Compositor.Scaling
import Mathlib.Tactic.Positivity
import Mathlib.Tactic.NormNum

/-!
# 単精度の計算での収まり

`float` の演算が、値の範囲の中で、相対誤差 2⁻²⁴ までの丸めであれば、合わせた大きさは領域を超えない。画面の辺は 8192
までなので、丸めの誤差は一画素に届かず、切り捨てで消える。
-/

namespace RtcEgress.Compositor

open RtcEgress.Lib
open Worker (LayoutRegion)

/-! ## 丸め -/

/-- `x` は、正の値 `y` を単精度に丸めた値である。 -/
def Close (x y : Rat) : Prop := |x - y| ≤ y / 2 ^ 24

def Magnitude (k : Nat) (q : Rat) : Prop := 1 / 2 ^ k ≤ q ∧ q ≤ 2 ^ k

/-- 桁が溢れも失われもしない、正の値の範囲。 -/
def Normal (q : Rat) : Prop := Magnitude 126 q

section Magnitude

variable {j k : Nat} {x y : Rat}

theorem Magnitude.pos (h : Magnitude k x) : 0 < x := lt_of_lt_of_le (by positivity) h.1

theorem Magnitude.mono (h : Magnitude j x) (hjk : j ≤ k) : Magnitude k x := by
  have hpow : (2 : Rat) ^ j ≤ 2 ^ k := pow_le_pow_right₀ (by norm_num) hjk
  exact ⟨(one_div_le_one_div_of_le (by positivity) hpow).trans h.1, h.2.trans hpow⟩

theorem Magnitude.div (hx : Magnitude j x) (hy : Magnitude k y) : Magnitude (j + k) (x / y) := by
  constructor
  · calc (1 : Rat) / 2 ^ (j + k) = 1 / 2 ^ j / 2 ^ k := by rw [pow_add, div_div]
      _ ≤ x / y := div_le_div₀ hx.pos.le hx.1 hy.pos hy.2
  · calc x / y ≤ 2 ^ j / (1 / 2 ^ k) := div_le_div₀ (by positivity) hx.2 (by positivity) hy.1
      _ = 2 ^ (j + k) := by rw [one_div, div_inv_eq_mul, pow_add]

theorem Magnitude.mul (hx : Magnitude j x) (hy : Magnitude k y) : Magnitude (j + k) (x * y) := by
  constructor
  · calc (1 : Rat) / 2 ^ (j + k) = 1 / 2 ^ j * (1 / 2 ^ k) := by rw [pow_add, one_div_mul_one_div]
      _ ≤ x * y := mul_le_mul hx.1 hy.1 (by positivity) hx.pos.le
  · calc x * y ≤ 2 ^ j * 2 ^ k := mul_le_mul hx.2 hy.2 hy.pos.le (by positivity)
      _ = 2 ^ (j + k) := by rw [pow_add]

theorem close_self (h : 0 ≤ x) : Close x x := by
  rw [Close, sub_self, abs_zero]
  positivity

theorem Close.bounds (h : Close x y) : y * (1 - 1 / 2 ^ 24) ≤ x ∧ x ≤ y * (1 + 1 / 2 ^ 24) := by
  have := abs_le.mp h
  constructor <;> linarith

theorem Close.magnitude (h : Close x y) (hy : Magnitude k y) : Magnitude (k + 1) x := by
  obtain ⟨hlo, hhi⟩ := h.bounds
  have hpos := hy.pos
  constructor
  · calc (1 : Rat) / 2 ^ (k + 1) = 1 / 2 ^ k / 2 := by rw [pow_succ, div_div]
      _ ≤ y / 2 := div_le_div_of_nonneg_right hy.1 (by norm_num)
      _ ≤ x := by linarith
  · calc x ≤ y * 2 := by linarith
      _ ≤ 2 ^ k * 2 := mul_le_mul_of_nonneg_right hy.2 (by norm_num)
      _ = 2 ^ (k + 1) := (pow_succ _ _).symm

end Magnitude

/-- 単精度の演算。有限の値は有理数を表す。 -/
structure FloatOps.Rounded (fl : FloatOps) where
  value : fl.F → Option Rat
  ofInt_small : ∀ n : Int, 0 ≤ n → n ≤ 2 ^ 24 → value (fl.ofInt n) = some (n : Rat)
  ofInt : ∀ n : Int, 0 < n → n < 2 ^ 32 → ∃ x, value (fl.ofInt n) = some x ∧ Close x n
  div : ∀ a b x y, value a = some x → value b = some y → Normal (x / y) → ∃ z, value (fl.div a b) = some z ∧ Close z (x / y)
  mul : ∀ a b x y, value a = some x → value b = some y → Normal (x * y) → ∃ z, value (fl.mul a b) = some z ∧ Close z (x * y)
  lt : ∀ a b x y, value a = some x → value b = some y → (fl.lt a b = true ↔ x < y)
  toInt : ∀ a x, value a = some x → 0 ≤ x → x < 2 ^ 31 → fl.toInt a = ⌊x⌋

def FloatOps.exactRounded : FloatOps.exact.Rounded where
  value := some
  ofInt_small _ _ _ := rfl
  ofInt n h0 _ := ⟨n, rfl, close_self (by exact_mod_cast h0.le)⟩
  div a b x y ha hb hn := by
    obtain rfl := (Option.some.inj ha).symm
    obtain rfl := (Option.some.inj hb).symm
    refine ⟨_, rfl, ?_⟩
    exact close_self (le_trans (by positivity) hn.1)
  mul a b x y ha hb hn := by
    obtain rfl := (Option.some.inj ha).symm
    obtain rfl := (Option.some.inj hb).symm
    refine ⟨_, rfl, ?_⟩
    exact close_self (le_trans (by positivity) hn.1)
  lt a b x y ha hb := by
    obtain rfl := (Option.some.inj ha).symm
    obtain rfl := (Option.some.inj hb).symm
    exact decide_eq_true_iff
  toInt a x ha h0 _ := by
    obtain rfl := (Option.some.inj ha).symm
    exact (Int.tdiv_eq_ediv_of_nonneg (Rat.num_nonneg.mpr h0)).trans Rat.floor_def'.symm

/-! ## 収まり -/

section Fitted

variable {fl : FloatOps}

/-- 切り捨てた値は、次の整数に届かなければ、上限を超えない。 -/
theorem FloatOps.Rounded.toInt_le (hfl : fl.Rounded) {a : fl.F} {x : Rat} {n : Int} (ha : hfl.value a = some x)
    (h0 : 0 ≤ x) (h : x < n + 1) (hn : n < 2 ^ 30) : 0 ≤ fl.toInt a ∧ fl.toInt a ≤ n := by
  have hn' : (n : Rat) < 2 ^ 30 := by exact_mod_cast hn
  rw [hfl.toInt a x ha h0 (by linarith)]
  exact ⟨Int.floor_nonneg.mpr h0, Int.floor_le_iff.mpr h⟩

/-- 8192 までの長さでは、三度の丸めの誤差は一画素に届かない。 -/
theorem error_lt_one {cell x : Rat} (hcell : cell ≤ 8192)
    (hx : x * (1 - 1 / 2 ^ 24) ≤ cell * (1 + 1 / 2 ^ 24) ^ 2) : x < cell + 1 := by
  norm_num at hx
  linarith

section Error

variable {cellWidth cellHeight cell source x : Rat}

/-- 領域より横に長い画面の高さは、丸めの誤差を含めても、一画素も超えない。 -/
theorem height_lt_of_wider (hh : 0 < cellHeight) (hlimit : cellHeight ≤ 8192) (hs : 0 < source)
    (hcell : Close cell (cellWidth / cellHeight)) (hlt : cell < source) (hx : Close x (cellWidth / source)) :
    x < cellHeight + 1 := by
  have hratio : cellWidth / source * (1 - 1 / 2 ^ 24) ≤ cellHeight := by
    rw [div_mul_eq_mul_div, div_le_iff₀ hs]
    calc cellWidth * (1 - 1 / 2 ^ 24) = cellHeight * (cellWidth / cellHeight * (1 - 1 / 2 ^ 24)) := by field_simp
      _ ≤ cellHeight * source := mul_le_mul_of_nonneg_left (hcell.bounds.1.trans hlt.le) hh.le
  have hround := hx.bounds.2
  exact error_lt_one hlimit (by linarith)

/-- 領域より縦に長い画面の幅も、一画素も超えない。 -/
theorem width_lt_of_taller (hw : 0 ≤ cellWidth) (hlimit : cellWidth ≤ 8192) (hh : 0 < cellHeight)
    (hcell : Close cell (cellWidth / cellHeight)) (hle : source ≤ cell) (hx : Close x (cellHeight * source)) :
    x < cellWidth + 1 := by
  have hratio : cellHeight * source ≤ cellWidth * (1 + 1 / 2 ^ 24) :=
    calc cellHeight * source ≤ cellHeight * (cellWidth / cellHeight * (1 + 1 / 2 ^ 24)) :=
          mul_le_mul_of_nonneg_left (hle.trans hcell.bounds.2) hh.le
      _ = cellWidth * (1 + 1 / 2 ^ 24) := by field_simp
  have hround := hx.bounds.2
  exact error_lt_one hlimit (by linarith)

end Error

theorem magnitude_ofNat {n : Nat} (h : 1 ≤ n ∧ n < 2 ^ 32) : Magnitude 32 ((n : Int) : Rat) := by
  have h1 : (1 : Rat) ≤ ((n : Int) : Rat) := by exact_mod_cast h.1
  have h2 : ((n : Int) : Rat) ≤ 2 ^ 32 := by exact_mod_cast h.2.le
  exact ⟨le_trans (by norm_num) h1, h2⟩

theorem magnitude_cell {n : Int} (h : 2 ≤ n ∧ n ≤ 8192) : Magnitude 13 (n : Rat) := by
  have h1 : (2 : Rat) ≤ n := by exact_mod_cast h.1
  have h2 : (n : Rat) ≤ 8192 := by exact_mod_cast h.2
  exact ⟨le_trans (by norm_num) h1, h2.trans (by norm_num)⟩

/-- 単精度の計算でも、合わせた大きさは領域を超えない。 -/
theorem fittedSize_rounded (hfl : fl.Rounded) {width height : Nat} {cellWidth cellHeight : Int} (hw : 1 ≤ width ∧ width < 2 ^ 32)
    (hh : 1 ≤ height ∧ height < 2 ^ 32) (hcw : 2 ≤ cellWidth ∧ cellWidth ≤ 8192)
    (hch : 2 ≤ cellHeight ∧ cellHeight ≤ 8192) :
    InCell cellWidth cellHeight (fittedSize fl width height cellWidth cellHeight) := by
  obtain ⟨w, hwval, hwclose⟩ := hfl.ofInt width (by omega) (by omega)
  obtain ⟨h, hhval, hhclose⟩ := hfl.ofInt height (by omega) (by omega)
  have hcwval := hfl.ofInt_small cellWidth (by omega) (by omega)
  have hchval := hfl.ofInt_small cellHeight (by omega) (by omega)
  have hcwmag := magnitude_cell hcw
  have hchmag := magnitude_cell hch
  have hmag := (hwclose.magnitude (magnitude_ofNat hw)).div (hhclose.magnitude (magnitude_ofNat hh))
  obtain ⟨source, hsource, hsclose⟩ := hfl.div _ _ _ _ hwval hhval (hmag.mono (by norm_num))
  have hsmag := hsclose.magnitude hmag
  obtain ⟨cell, hcell, hcclose⟩ := hfl.div _ _ _ _ hcwval hchval ((hcwmag.div hchmag).mono (by norm_num))
  have hcw' : (cellWidth : Rat) ≤ 8192 := by exact_mod_cast hcw.2
  have hch' : (cellHeight : Rat) ≤ 8192 := by exact_mod_cast hch.2
  by_cases hwider : fl.lt (fl.div (fl.ofInt cellWidth) (fl.ofInt cellHeight))
      (fl.div (fl.ofInt width) (fl.ofInt height)) = true
  · have hlt : cell < source := (hfl.lt _ _ _ _ hcell hsource).mp hwider
    obtain ⟨x, hx, hxclose⟩ := hfl.div _ _ _ _ hcwval hsource ((hcwmag.div hsmag).mono (by norm_num))
    have hxpos := (hxclose.magnitude (hcwmag.div hsmag)).pos
    have hlt : x < cellHeight + 1 := height_lt_of_wider hchmag.pos hch' hsmag.pos hcclose hlt hxclose
    simp only [fittedSize, if_pos hwider]
    exact ⟨⟨by omega, le_refl _⟩, hfl.toInt_le hx hxpos.le hlt (by omega)⟩
  · have hle : source ≤ cell := not_lt.mp fun h => hwider ((hfl.lt _ _ _ _ hcell hsource).mpr h)
    obtain ⟨x, hx, hxclose⟩ := hfl.mul _ _ _ _ hchval hsource ((hchmag.mul hsmag).mono (by norm_num))
    have hxpos := (hxclose.magnitude (hchmag.mul hsmag)).pos
    have hlt : x < cellWidth + 1 := width_lt_of_taller hcwmag.pos.le hcw' hchmag.pos hcclose hle hxclose
    simp only [fittedSize, if_neg hwider]
    exact ⟨hfl.toInt_le hx hxpos.le hlt (by omega), by omega, le_refl _⟩

end Fitted

end RtcEgress.Compositor
