import Mathlib.Order.Interval.Set.Union
import Mathlib.Tactic.Linarith

/-!
# 矩形と、偶数の境

画素の矩形と、長さを等しく分けて偶数に切り捨てた境を定める。境は単調で、両端が揃うから、隣り合う境の間の区間は
互いに素で、全体を覆う。
-/

namespace RtcEgress.Lib

/-! ## 矩形 -/

/-- 画素の矩形。右端と下端の画素は含まない。 -/
structure Rect where
  x : Int
  y : Int
  width : Int
  height : Int
  deriving DecidableEq

namespace Rect

def Contains (r : Rect) (p : Int × Int) : Prop :=
  (r.x ≤ p.1 ∧ p.1 < r.x + r.width) ∧ r.y ≤ p.2 ∧ p.2 < r.y + r.height

instance (r : Rect) (p : Int × Int) : Decidable (r.Contains p) :=
  inferInstanceAs (Decidable (_ ∧ _))

/-- 二つの矩形に、共通の画素がない。 -/
def Disjoint (r s : Rect) : Prop := ∀ p, r.Contains p → ¬s.Contains p

def area (r : Rect) : Int := r.width * r.height

def transpose (r : Rect) : Rect := ⟨r.y, r.x, r.height, r.width⟩

/-- 座標も大きさも負でない偶数で、幅 `w`、高さ `h` の画面に収まる。 -/
structure EvenWithin (w h : Int) (r : Rect) : Prop where
  x : 0 ≤ r.x ∧ r.x % 2 = 0
  y : 0 ≤ r.y ∧ r.y % 2 = 0
  width : 0 ≤ r.width ∧ r.width % 2 = 0
  height : 0 ≤ r.height ∧ r.height % 2 = 0
  right : r.x + r.width ≤ w
  bottom : r.y + r.height ≤ h

structure Within (r s : Rect) : Prop where
  left : s.x ≤ r.x
  top : s.y ≤ r.y
  right : r.x + r.width ≤ s.x + s.width
  bottom : r.y + r.height ≤ s.y + s.height

def scale (k : Int) (r : Rect) : Rect := ⟨k * r.x, k * r.y, k * r.width, k * r.height⟩

theorem contains_transpose {r : Rect} {p : Int × Int} : r.transpose.Contains p ↔ r.Contains p.swap :=
  And.comm

theorem Disjoint.transpose {r s : Rect} (h : r.Disjoint s) : r.transpose.Disjoint s.transpose := by
  intro p hr hs
  exact h p.swap (contains_transpose.mp hr) (contains_transpose.mp hs)

theorem area_transpose (r : Rect) : r.transpose.area = r.area := mul_comm _ _

theorem Within.contains {r s : Rect} (h : r.Within s) {p : Int × Int} (hp : r.Contains p) : s.Contains p := by
  obtain ⟨⟨hx, hx'⟩, hy, hy'⟩ := hp
  have := h.left
  have := h.top
  exact ⟨⟨by omega, hx'.trans_le h.right⟩, by omega, hy'.trans_le h.bottom⟩

theorem EvenWithin.transpose {w h : Int} {r : Rect} (hr : r.EvenWithin w h) : r.transpose.EvenWithin h w :=
  ⟨hr.y, hr.x, hr.height, hr.width, hr.bottom, hr.right⟩

theorem disjoint_of_right_le {r s : Rect} (h : r.x + r.width ≤ s.x) : r.Disjoint s := by
  rintro p ⟨⟨-, hr⟩, -⟩ ⟨⟨hs, -⟩, -⟩
  omega

theorem disjoint_of_bottom_le {r s : Rect} (h : r.y + r.height ≤ s.y) : r.Disjoint s := by
  rintro p ⟨-, -, hr⟩ ⟨-, hs, -⟩
  omega

/-! ## 番号の付いた矩形 -/

/-- 矩形は画面に収まり、互いに素である。 -/
structure Packed (w h : Int) (n : Nat) (R : Nat → Rect) : Prop where
  within : ∀ i < n, (R i).EvenWithin w h
  disjoint : ∀ i j, i < j → j < n → (R i).Disjoint (R j)

/-- 画面のどの画素も、いずれかの矩形が含む。 -/
def Covers (w h : Int) (n : Nat) (R : Nat → Rect) : Prop :=
  ∀ p, Contains ⟨0, 0, w, h⟩ p → ∃ i < n, (R i).Contains p

variable {w h : Int} {n : Nat} {R : Nat → Rect}

theorem Packed.transpose (hR : Packed w h n R) : Packed h w n fun i => (R i).transpose :=
  ⟨fun i hi => (hR.within i hi).transpose, fun i j hij hj => (hR.disjoint i j hij hj).transpose⟩

theorem Covers.transpose (hR : Covers w h n R) : Covers h w n fun i => (R i).transpose := by
  intro p hp
  obtain ⟨i, hi, hc⟩ := hR p.swap ((contains_transpose (r := ⟨0, 0, w, h⟩)).mp hp)
  exact ⟨i, hi, contains_transpose.mpr hc⟩

def between (f g : Nat → Nat) (i j : Nat) : Rect :=
  ⟨f i, g j, f (i + 1) - f i, g (j + 1) - g j⟩

theorem contains_between {f g : Nat → Nat} {i j : Nat} {p : Int × Int} : (between f g i j).Contains p ↔
    (f i ≤ p.1 ∧ p.1 < f (i + 1)) ∧ g j ≤ p.2 ∧ p.2 < g (j + 1) := by
  simp only [Contains, between, add_sub_cancel]

theorem eq_of_between {f : Nat → Nat} (hf : Monotone f) {a b : Nat} {v : Int} (ha : f a ≤ v ∧ v < f (a + 1))
    (hb : f b ≤ v ∧ v < f (b + 1)) : a = b := by
  by_contra hab
  rcases Nat.lt_or_gt_of_ne hab with h | h
  · have hle : f (a + 1) ≤ f b := hf h
    omega
  · have hle : f (b + 1) ≤ f a := hf h
    omega

/-- 単調な境の間の矩形は、番号が違えば互いに素である。 -/
theorem disjoint_between {f g : Nat → Nat} (hf : Monotone f) (hg : Monotone g) {i j k l : Nat}
    (hne : i ≠ k ∨ j ≠ l) : (between f g i j).Disjoint (between f g k l) := by
  intro p hp hq
  rw [contains_between] at hp hq
  rcases hne with h | h
  · exact h (eq_of_between hf hp.1 hq.1)
  · exact h (eq_of_between hg hp.2 hq.2)

end Rect

/-! ## 偶数の境 -/

def evenFloor (v : Nat) : Nat := v / 2 * 2

/-- 長さ `size` を `count` 個に分けたときの、`i` 番目の境。 -/
def evenCut (size count i : Nat) : Nat := evenFloor (i * size / count)

theorem evenCut_mod_two (size count i : Nat) : evenCut size count i % 2 = 0 := Nat.mul_mod_left _ _

theorem evenFloor_mono : Monotone evenFloor := fun _ _ h => Nat.mul_le_mul_right _ (Nat.div_le_div_right h)

theorem evenCut_mono (size count : Nat) : Monotone (evenCut size count) := fun _ _ h =>
  evenFloor_mono (Nat.div_le_div_right (Nat.mul_le_mul_right _ h))

@[simp] theorem evenCut_zero (size count : Nat) : evenCut size count 0 = 0 := by simp [evenCut, evenFloor]

theorem evenCut_self {size count : Nat} (hcount : 0 < count) (hsize : size % 2 = 0) : evenCut size count count = size := by
  rw [evenCut, Nat.mul_div_cancel_left _ hcount, evenFloor]
  omega

theorem evenCut_le {size count i : Nat} (hcount : 0 < count) (hsize : size % 2 = 0) (hi : i ≤ count) :
    evenCut size count i ≤ size :=
  (evenCut_mono size count hi).trans_eq (evenCut_self hcount hsize)

/-- 一つあたり二画素あれば、隣の境まで二画素はある。 -/
theorem evenCut_add_two_le {size count : Nat} (hcount : 0 < count) (hsize : 2 * count ≤ size) (i : Nat) :
    evenCut size count i + 2 ≤ evenCut size count (i + 1) := by
  have hquot : i * size / count + 2 ≤ (i + 1) * size / count :=
    calc i * size / count + 2 = (i * size + 2 * count) / count := (Nat.add_mul_div_right _ _ hcount).symm
      _ ≤ (i * size + size) / count := Nat.div_le_div_right (Nat.add_le_add_left hsize _)
      _ = (i + 1) * size / count := by rw [Nat.succ_mul]
  unfold evenCut evenFloor
  omega

/-- 隣り合う境の間の区間は、全体を覆う。 -/
theorem exists_evenCut {size count : Nat} (hcount : 0 < count) (hsize : size % 2 = 0) {p : Int} (h0 : 0 ≤ p)
    (hp : p < size) : ∃ i < count, evenCut size count i ≤ p ∧ p < evenCut size count (i + 1) := by
  lift p to Nat using h0
  have hmem : p ∈ Set.Ico (evenCut size count 0) (evenCut size count count) := by
    rw [evenCut_zero, evenCut_self hcount hsize]
    exact ⟨Nat.zero_le p, by exact_mod_cast hp⟩
  obtain ⟨i, hi, hcell⟩ := Set.mem_iUnion₂.mp (Ico_subset_biUnion_Ico count (evenCut size count) hmem)
  exact ⟨i, Finset.mem_range.mp hi, by exact_mod_cast hcell.1, by exact_mod_cast hcell.2⟩

/-- 偶数の境で分けた格子の、左上から数えて `i` 番目の矩形。 -/
def evenCell (width height cols rows i : Nat) : Rect :=
  .between (evenCut width cols) (evenCut height rows) (i % cols) (i / cols)

section Grid

variable {width height cols rows n : Nat}

theorem packed_evenCell (hw : width % 2 = 0) (hh : height % 2 = 0) (hcols : 0 < cols) (hn : n ≤ cols * rows) :
    Rect.Packed width height n (evenCell width height cols rows) where
  within i hi := by
    have hrow : i / cols < rows := Nat.div_lt_of_lt_mul (hi.trans_le hn)
    have hcol : i % cols < cols := Nat.mod_lt i hcols
    have hx := evenCut_mono width cols (Nat.le_succ (i % cols))
    have hy := evenCut_mono height rows (Nat.le_succ (i / cols))
    have hright := evenCut_le hcols hw hcol
    have hbottom := evenCut_le (Nat.zero_lt_of_lt hrow) hh hrow
    have hparity := evenCut_mod_two width cols
    have hparity' := evenCut_mod_two height rows
    have := hparity (i % cols)
    have := hparity (i % cols + 1)
    have := hparity' (i / cols)
    have := hparity' (i / cols + 1)
    simp only [Nat.succ_eq_add_one] at hx hy hright hbottom
    constructor <;> simp only [evenCell, Rect.between] <;> omega
  disjoint i j hij _ := by
    refine Rect.disjoint_between (evenCut_mono _ _) (evenCut_mono _ _) ?_
    by_contra h
    push Not at h
    have hi := Nat.div_add_mod i cols
    have hj := Nat.div_add_mod j cols
    rw [h.1, h.2] at hi
    omega

/-- 格子のすべての矩形は、画面を覆う。 -/
theorem covers_evenCell (hw : width % 2 = 0) (hh : height % 2 = 0) (hcols : 0 < cols) (hrows : 0 < rows) :
    Rect.Covers width height (cols * rows) (evenCell width height cols rows) := by
  rintro p ⟨⟨hx, hx'⟩, hy, hy'⟩
  simp only [zero_add] at hx hx' hy hy'
  obtain ⟨col, hcol, hpx⟩ := exists_evenCut hcols hw hx hx'
  obtain ⟨row, hrow, hpy⟩ := exists_evenCut hrows hh hy hy'
  refine ⟨col + cols * row, ?_, ?_⟩
  · calc col + cols * row < cols * (row + 1) := by rw [Nat.mul_succ]; omega
      _ ≤ cols * rows := Nat.mul_le_mul_left _ hrow
  · rw [evenCell, Rect.contains_between, Nat.add_mul_mod_self_left, Nat.mod_eq_of_lt hcol,
      Nat.add_mul_div_left _ _ hcols, Nat.div_eq_of_lt hcol, Nat.zero_add]
    exact ⟨hpx, hpy⟩

theorem two_le_evenCell (hcols : 0 < cols) (hrows : 0 < rows) (hw : 2 * cols ≤ width) (hh : 2 * rows ≤ height) (i : Nat) :
    2 ≤ (evenCell width height cols rows i).width ∧ 2 ≤ (evenCell width height cols rows i).height := by
  have hx := evenCut_add_two_le hcols hw (i % cols)
  have hy := evenCut_add_two_le hrows hh (i / cols)
  simp only [evenCell, Rect.between]
  omega

end Grid

end RtcEgress.Lib
