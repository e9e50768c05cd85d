import RtcEgress.Compositor.Partition
import Mathlib.Data.Rat.Floor
import Mathlib.Tactic.FieldSimp

/-!
# `VideoCompositor::calculateScaledFrameInfo`

縮尺した画面を領域の中央に置く。大きさと位置は偶数にするから、色差の面では、どれもちょうど半分になる。
-/

namespace RtcEgress.Compositor

open RtcEgress.Lib
open Worker (LayoutRegion)

/-! ## 縮尺 -/

structure ScaledFrameInfo where
  scaledWidth : Int
  scaledHeight : Int
  offsetX : Int
  offsetY : Int

/-- 縦横の比を保って、幅 `width`、高さ `height` の画面を領域に合わせた大きさ。 -/
def fittedSize (fl : FloatOps) (width height : Nat) (cellWidth cellHeight : Int) : Int × Int :=
  let sourceAspect := fl.div (fl.ofInt width) (fl.ofInt height)
  let cellAspect := fl.div (fl.ofInt cellWidth) (fl.ofInt cellHeight)
  if fl.lt cellAspect sourceAspect then (cellWidth, fl.toInt (fl.div (fl.ofInt cellWidth) sourceAspect))
  else (fl.toInt (fl.mul (fl.ofInt cellHeight) sourceAspect), cellHeight)

def calculateScaledFrameInfo (fl : FloatOps) (preserveAspectRatio : Bool) (width height : Nat) (cellWidth cellHeight : Int) :
    ScaledFrameInfo :=
  if preserveAspectRatio then
    let fitted := fittedSize fl width height cellWidth cellHeight
    let scaledWidth := max 2 (fitted.1.tdiv 2 * 2)
    let scaledHeight := max 2 (fitted.2.tdiv 2 * 2)
    ⟨scaledWidth, scaledHeight, (cellWidth - scaledWidth).tdiv 4 * 2, (cellHeight - scaledHeight).tdiv 4 * 2⟩
  else ⟨cellWidth, cellHeight, 0, 0⟩

/-- 丸めのない有理数の演算。 -/
def FloatOps.exact : FloatOps where
  F := Rat
  ofInt n := n
  literal q := q
  max := 2 ^ 128 - 2 ^ 104
  add := (· + ·)
  sub := (· - ·)
  mul := (· * ·)
  div := (· / ·)
  abs q := if q < 0 then -q else q
  lt a b := a < b
  le a b := a ≤ b
  toInt q := q.num.tdiv q.den

/-! ## 面 -/

inductive Plane where
  | y | u | v
  deriving DecidableEq

/-- 輝度の座標を、面の座標にするときの除数。 -/
def Plane.divisor : Plane → Int
  | .y => 1
  | .u | .v => 2

/-- 領域が占める、面の矩形。 -/
def fillRect (r : LayoutRegion) (plane : Plane) : Rect :=
  ⟨r.x.tdiv plane.divisor, r.y.tdiv plane.divisor, r.width.tdiv plane.divisor, r.height.tdiv plane.divisor⟩

/-- 縮尺した画面を写す、面の矩形。 -/
def copyRect (r : LayoutRegion) (info : ScaledFrameInfo) (plane : Plane) : Rect :=
  let destX := r.x + info.offsetX
  let destY := r.y + info.offsetY
  match plane with
  | .y => ⟨destX, destY, info.scaledWidth, info.scaledHeight⟩
  | .u | .v => ⟨destX.tdiv 2, destY.tdiv 2, info.scaledWidth.tdiv 2, info.scaledHeight.tdiv 2⟩

def Plane.side (outputSide : Nat) : Plane → Nat
  | .y => outputSide
  | .u | .v => outputSide / 2

def inCanvas (outputWidth outputHeight : Nat) (plane : Plane) (r : Rect) : Bool :=
  r.x + r.width ≤ plane.side outputWidth && r.y + r.height ≤ plane.side outputHeight

theorem inCanvas_iff {outputWidth outputHeight : Nat} {plane : Plane} {r : Rect} :
    inCanvas outputWidth outputHeight plane r = true ↔
      r.x + r.width ≤ plane.side outputWidth ∧ r.y + r.height ≤ plane.side outputHeight := by
  simp only [inCanvas, Bool.and_eq_true, decide_eq_true_eq]

/-! ## 一つの向き -/

/-- 一つの向きで、偶数の大きさと位置が領域に収まり、両側の余白の差は 2 までである。 -/
structure FitsAxis (cell scaled offset : Int) : Prop where
  size : 2 ≤ scaled ∧ scaled % 2 = 0 ∧ scaled ≤ cell
  even : 0 ≤ offset ∧ offset % 2 = 0
  inside : offset + scaled ≤ cell
  margins : |cell - (offset + scaled) - offset| ≤ 2

theorem fitsAxis_centred {cell fitted : Int} (hcell : 2 ≤ cell ∧ cell % 2 = 0) (hfitted : 0 ≤ fitted ∧ fitted ≤ cell) :
    FitsAxis cell (max 2 (fitted.tdiv 2 * 2)) ((cell - max 2 (fitted.tdiv 2 * 2)).tdiv 4 * 2) := by
  have hsize : max 2 (fitted.tdiv 2 * 2) ≤ cell := by
    rw [Int.tdiv_eq_ediv_of_nonneg hfitted.1]
    omega
  have heven : max 2 (fitted.tdiv 2 * 2) % 2 = 0 := by omega
  have hlarge : 2 ≤ max 2 (fitted.tdiv 2 * 2) := le_max_left _ _
  generalize max 2 (fitted.tdiv 2 * 2) = scaled at hsize heven hlarge ⊢
  rw [Int.tdiv_eq_ediv_of_nonneg (by omega)]
  exact ⟨⟨hlarge, heven, hsize⟩, by omega, by omega, abs_le.mpr (by omega)⟩

theorem fitsAxis_stretched {cell : Int} (hcell : 2 ≤ cell ∧ cell % 2 = 0) : FitsAxis cell cell 0 :=
  ⟨⟨hcell.1, hcell.2, le_refl _⟩, by decide, by omega, abs_le.mpr (by omega)⟩

/-! ## 縦横の比 -/

/-- 合わせた大きさが、領域の大きさまでである。 -/
structure InCell (cellWidth cellHeight : Int) (fitted : Int × Int) : Prop where
  width : 0 ≤ fitted.1 ∧ fitted.1 ≤ cellWidth
  height : 0 ≤ fitted.2 ∧ fitted.2 ≤ cellHeight

theorem toInt_exact_le {q : Rat} {n : Int} (h0 : 0 ≤ q) (h : q ≤ n) :
    0 ≤ FloatOps.exact.toInt q ∧ FloatOps.exact.toInt q ≤ n := by
  have hfloor : FloatOps.exact.toInt q = ⌊q⌋ :=
    (Int.tdiv_eq_ediv_of_nonneg (Rat.num_nonneg.mpr h0)).trans Rat.floor_def'.symm
  rw [hfloor]
  exact ⟨Int.floor_nonneg.mpr h0, Int.floor_le_iff.mpr (h.trans_lt (lt_add_one _))⟩

section Fitted

variable {sourceAspect : Rat} {cellWidth cellHeight : Int}

/-- 横に長い画面は、幅を領域に合わせれば、高さも収まる。 -/
theorem fittedHeight_le (hq : 0 < sourceAspect) (hw : 0 < cellWidth) (hh : 0 < cellHeight)
    (h : (cellWidth : Rat) / cellHeight < sourceAspect) :
    0 ≤ FloatOps.exact.toInt ((cellWidth : Rat) / sourceAspect) ∧
      FloatOps.exact.toInt ((cellWidth : Rat) / sourceAspect) ≤ cellHeight := by
  have hw' : (0 : Rat) < cellWidth := by exact_mod_cast hw
  have hh' : (0 : Rat) < cellHeight := by exact_mod_cast hh
  apply toInt_exact_le (div_nonneg hw'.le hq.le)
  rw [div_le_iff₀ hq]
  calc (cellWidth : Rat) = cellHeight * (cellWidth / cellHeight) := by field_simp
    _ ≤ cellHeight * sourceAspect := mul_le_mul_of_nonneg_left h.le hh'.le

/-- 縦に長い画面は、高さを領域に合わせれば、幅も収まる。 -/
theorem fittedWidth_le (hq : 0 < sourceAspect) (hh : 0 < cellHeight)
    (h : ¬(cellWidth : Rat) / cellHeight < sourceAspect) :
    0 ≤ FloatOps.exact.toInt ((cellHeight : Rat) * sourceAspect) ∧
      FloatOps.exact.toInt ((cellHeight : Rat) * sourceAspect) ≤ cellWidth := by
  have hh' : (0 : Rat) < cellHeight := by exact_mod_cast hh
  apply toInt_exact_le (mul_nonneg hh'.le hq.le)
  calc (cellHeight : Rat) * sourceAspect ≤ cellHeight * (cellWidth / cellHeight) :=
        mul_le_mul_of_nonneg_left (not_lt.mp h) hh'.le
    _ = cellWidth := by field_simp

end Fitted

/-- 丸めのない計算では、合わせた大きさは領域を超えない。 -/
theorem fittedSize_exact {width height : Nat} {cellWidth cellHeight : Int} (hw : 1 ≤ width) (hh : 1 ≤ height)
    (hcw : 0 < cellWidth) (hch : 0 < cellHeight) :
    InCell cellWidth cellHeight (fittedSize .exact width height cellWidth cellHeight) := by
  have hsource : (0 : Rat) < ((width : Int) : Rat) / ((height : Int) : Rat) :=
    div_pos (by exact_mod_cast hw) (by exact_mod_cast hh)
  by_cases hwider : (cellWidth : Rat) / cellHeight < ((width : Int) : Rat) / ((height : Int) : Rat)
  · simp only [fittedSize, FloatOps.exact, decide_eq_true_eq, if_pos hwider]
    exact ⟨⟨hcw.le, le_refl _⟩, fittedHeight_le hsource hcw hch hwider⟩
  · simp only [fittedSize, FloatOps.exact, decide_eq_true_eq, if_neg hwider]
    exact ⟨fittedWidth_le hsource hch hwider, hch.le, le_refl _⟩

/-! ## 領域への収まり -/

/-- 縮尺した画面が、どの面でも領域に収まり、境の検査に通る。 -/
structure FitsRegion (outputWidth outputHeight : Nat) (r : LayoutRegion) (info : ScaledFrameInfo) : Prop where
  horizontal : FitsAxis r.width info.scaledWidth info.offsetX
  vertical : FitsAxis r.height info.scaledHeight info.offsetY
  /-- 色差の面では、余りなく半分になる。 -/
  halved : ∀ plane : Plane, (copyRect r info plane).scale plane.divisor = copyRect r info .y
  within : ∀ plane, (copyRect r info plane).Within (fillRect r plane)
  checked : ∀ plane, inCanvas outputWidth outputHeight plane (copyRect r info plane) = true

theorem fillRect_eq {w h : Int} {r : LayoutRegion} (hr : (rectOf r).EvenWithin w h) (plane : Plane) : fillRect r plane =
    ⟨r.x / plane.divisor, r.y / plane.divisor, r.width / plane.divisor, r.height / plane.divisor⟩ := by
  obtain ⟨⟨hx, -⟩, ⟨hy, -⟩, ⟨hw, -⟩, ⟨hh, -⟩, -, -⟩ := hr
  simp only [rectOf] at hx hy hw hh
  rw [fillRect, Int.tdiv_eq_ediv_of_nonneg hx, Int.tdiv_eq_ediv_of_nonneg hy, Int.tdiv_eq_ediv_of_nonneg hw,
    Int.tdiv_eq_ediv_of_nonneg hh]

theorem fitsRegion_of_axes {outputWidth outputHeight : Nat} {r : LayoutRegion} {info : ScaledFrameInfo}
    (hr : (rectOf r).EvenWithin outputWidth outputHeight) (hx : FitsAxis r.width info.scaledWidth info.offsetX)
    (hy : FitsAxis r.height info.scaledHeight info.offsetY) : FitsRegion outputWidth outputHeight r info := by
  obtain ⟨hrx, hry, hrw, hrh, hright, hbottom⟩ := id hr
  obtain ⟨hsx, hox, hix, -⟩ := id hx
  obtain ⟨hsy, hoy, hiy, -⟩ := id hy
  simp only [rectOf] at hrx hry hrw hrh hright hbottom
  have hcopy : ∀ plane, copyRect r info plane = ⟨(r.x + info.offsetX) / plane.divisor, (r.y + info.offsetY) / plane.divisor,
      info.scaledWidth / plane.divisor, info.scaledHeight / plane.divisor⟩ := by
    intro plane
    cases plane <;> simp only [copyRect, Plane.divisor, Int.ediv_one]
    all_goals
      rw [Int.tdiv_eq_ediv_of_nonneg (by omega), Int.tdiv_eq_ediv_of_nonneg (by omega),
        Int.tdiv_eq_ediv_of_nonneg (by omega), Int.tdiv_eq_ediv_of_nonneg (by omega)]
  refine ⟨hx, hy, fun plane => ?_, fun plane => ?_, fun plane => ?_⟩
  · rw [hcopy, hcopy, Rect.scale]
    cases plane <;> simp only [Plane.divisor, Rect.mk.injEq] <;> omega
  · rw [hcopy, fillRect_eq hr]
    cases plane <;> constructor <;> simp only [Plane.divisor] <;> omega
  · rw [hcopy, inCanvas_iff]
    cases plane <;> simp only [Plane.divisor, Plane.side] <;> omega

/-- 合わせた大きさが領域までなら、中央に置いた画面は領域に収まる。 -/
theorem fitsRegion_of_inCell {fl : FloatOps} {outputWidth outputHeight : Nat} {r : LayoutRegion}
    (hr : (rectOf r).EvenWithin outputWidth outputHeight) (hsize : 2 ≤ r.width ∧ 2 ≤ r.height) {width height : Nat}
    (hfitted : InCell r.width r.height (fittedSize fl width height r.width r.height)) (preserveAspectRatio : Bool) :
    FitsRegion outputWidth outputHeight r
      (calculateScaledFrameInfo fl preserveAspectRatio width height r.width r.height) := by
  have hw : 2 ≤ r.width ∧ r.width % 2 = 0 := ⟨hsize.1, hr.width.2⟩
  have hh : 2 ≤ r.height ∧ r.height % 2 = 0 := ⟨hsize.2, hr.height.2⟩
  cases preserveAspectRatio with
  | false => exact fitsRegion_of_axes hr (fitsAxis_stretched hw) (fitsAxis_stretched hh)
  | true => exact fitsRegion_of_axes hr (fitsAxis_centred hw hfitted.width) (fitsAxis_centred hh hfitted.height)

/-- 縮尺した画面は、どの面でも領域に収まり、写しが飛ばされることはない。 -/
theorem calculateScaledFrameInfo_fits {outputWidth outputHeight : Nat} {r : LayoutRegion}
    (hr : (rectOf r).EvenWithin outputWidth outputHeight) (hsize : 2 ≤ r.width ∧ 2 ≤ r.height) {width height : Nat}
    (hw : 1 ≤ width) (hh : 1 ≤ height) (preserveAspectRatio : Bool) :
    FitsRegion outputWidth outputHeight r
      (calculateScaledFrameInfo .exact preserveAspectRatio width height r.width r.height) :=
  fitsRegion_of_inCell hr hsize (fittedSize_exact hw hh (by omega) (by omega)) preserveAspectRatio

/-- 領域いっぱいの幅に合わせ、上下に余白を置く。 -/
theorem calculateScaledFrameInfo_fits_wide : FitsRegion 1280 720 ⟨"alice", 640, 0, 640, 720, 0⟩
    (calculateScaledFrameInfo .exact true 1920 1080 640 720) :=
  calculateScaledFrameInfo_fits (r := ⟨"alice", 640, 0, 640, 720, 0⟩)
    ⟨by decide, by decide, by decide, by decide, by decide, by decide⟩ (by decide) (by decide) (by decide) true

end RtcEgress.Compositor
