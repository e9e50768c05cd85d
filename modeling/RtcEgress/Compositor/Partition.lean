import RtcEgress.Compositor.Regions

/-!
# 自動の配置は画面を分ける

`spotlight` の二つの向きは、縦と横を入れ替えた同じ分け方である。
-/

namespace RtcEgress.Compositor

open RtcEgress.Lib
open Worker (LayoutRegion)
open Sink (VideoCompositor.Config VideoCompositor.validSize)

/-- `n` 人を入れる、列の数と行の数。 -/
structure IsGrid (n : Nat) (grid : Nat × Nat) : Prop where
  pos : 1 ≤ grid.1
  le : grid.1 ≤ n
  rows : grid.2 = (n + grid.1 - 1) / grid.1

def rectOf (r : LayoutRegion) : Rect := ⟨r.x, r.y, r.width, r.height⟩

def CoversCanvas (c : VideoCompositor.Config) (rs : List LayoutRegion) : Prop :=
  ∀ p, Rect.Contains ⟨0, 0, c.outputWidth, c.outputHeight⟩ p → ∃ r ∈ rs, (rectOf r).Contains p

/-- `spotlight` が端の列を切り取る辺と、残りの利用者で分ける辺。 -/
def splitSide (c : VideoCompositor.Config) : Nat := max c.outputWidth c.outputHeight
def sharedSide (c : VideoCompositor.Config) : Nat := min c.outputWidth c.outputHeight

/-- 領域は、利用者の順に、画面を重ならずに分ける。 -/
structure Partitions (c : VideoCompositor.Config) (grid : Nat × Nat) (users : List String) (rs : List LayoutRegion) :
    Prop where
  uids : rs.map (·.uid) = users
  within : ∀ r ∈ rs, (rectOf r).EvenWithin c.outputWidth c.outputHeight
  disjoint : rs.Pairwise fun r s => (rectOf r).Disjoint (rectOf s)
  grid_covers : ¬Spotlight c users → users.length = grid.1 * grid.2 → CoversCanvas c rs
  spotlight_covers : Spotlight c users → CoversCanvas c rs
  spotlight_largest : Spotlight c users → 4 ≤ splitSide c →
    ∀ first ∈ rs.head?, ∀ r ∈ rs, (rectOf r).area ≤ (rectOf first).area
  grid_size : ¬Spotlight c users → 2 * grid.1 ≤ c.outputWidth → 2 * grid.2 ≤ c.outputHeight →
    ∀ r ∈ rs, 2 ≤ r.width ∧ 2 ≤ r.height
  spotlight_size : Spotlight c users → 4 ≤ splitSide c → 2 * (users.length - 1) ≤ sharedSide c →
    ∀ r ∈ rs, 2 ≤ r.width ∧ 2 ≤ r.height
  /-- 境の計算の積は、`int` に収まる。 -/
  fits : ∀ i ≤ users.length, i * c.outputWidth < 2 ^ 31 ∧ i * c.outputHeight < 2 ^ 31

/-! ## 格子の大きさ -/

theorem isGrid_tryColumns {fl : FloatOps} {w h n cols : Nat} {best : fl.F × Nat × Nat} (hbest : IsGrid n best.2)
    (hcols : 1 ≤ cols ∧ cols ≤ n) : IsGrid n (tryColumns fl w h n best cols).2 := by
  simp only [tryColumns]
  split_ifs
  · exact ⟨hcols.1, hcols.2, rfl⟩
  · exact hbest

/-- 探索は、いつも全員の入る格子を返す。 -/
theorem isGrid_calculateOptimalLayout (fl : FloatOps) (w h : Nat) {n : Nat} (hn : 1 ≤ n) :
    IsGrid n (calculateOptimalLayout fl w h n) := by
  have hsearch : ∀ cols : List Nat, (∀ k ∈ cols, 1 ≤ k ∧ k ≤ n) → ∀ best : fl.F × Nat × Nat, IsGrid n best.2 →
      IsGrid n (cols.foldl (tryColumns fl w h n) best).2 := by
    intro cols
    induction cols with
    | nil => exact fun _ _ hbest => hbest
    | cons k cols ih =>
        intro hcols best hbest
        obtain ⟨hk, hcols⟩ := List.forall_mem_cons.mp hcols
        exact ih hcols _ (isGrid_tryColumns hbest hk)
  unfold calculateOptimalLayout
  split
  · omega
  · exact ⟨by decide, by decide, by decide⟩
  · dsimp only
    split_ifs <;> exact ⟨by decide, by decide, by decide⟩
  · dsimp only
    split_ifs <;> exact ⟨by decide, by decide, by decide⟩
  · exact ⟨by decide, by decide, by decide⟩
  · refine hsearch _ (fun k hk => ?_) _ ⟨Nat.le_refl 1, hn, ?_⟩
    · have := List.mem_range'_1.mp hk
      omega
    · simp

theorem IsGrid.le_mul {n : Nat} {grid : Nat × Nat} (h : IsGrid n grid) : n ≤ grid.1 * grid.2 := by
  have hlt := Nat.lt_mul_div_succ (n + grid.1 - 1) h.pos
  have := h.pos
  rw [h.rows]
  rw [Nat.mul_succ] at hlt
  omega

theorem IsGrid.rows_pos {n : Nat} {grid : Nat × Nat} (h : IsGrid n grid) : 1 ≤ grid.2 := by
  rw [h.rows]
  have := h.pos
  have := h.le
  exact (Nat.one_le_div_iff h.pos).mpr (by omega)

/-! ## `spotlight` -/

theorem portraitRect_eq (width height count i : Nat) :
    portraitRect width height count i = (landscapeRect height width count i).transpose := by
  unfold portraitRect landscapeRect
  split_ifs <;> rfl

section Landscape

variable {width height count : Nat}

theorem landscapeRect_zero : landscapeRect width height count 0 =
    ⟨0, 0, width - (max 2 (width / 8 * 2) : Nat), height⟩ := rfl

/-- 二番目からの領域は、端の列を偶数の境で分ける。 -/
theorem landscapeRect_succ (i : Nat) : landscapeRect width height count (i + 1) =
    ⟨width - (max 2 (width / 8 * 2) : Nat), evenCut height (count - 1) i, (max 2 (width / 8 * 2) : Nat),
      evenCut height (count - 1) (i + 1) - evenCut height (count - 1) i⟩ := rfl

theorem packed_landscapeRect (hw : 2 ≤ width ∧ width % 2 = 0) (hh : height % 2 = 0) (hcount : 1 < count) :
    Rect.Packed width height count (landscapeRect width height count) where
  within i hi := by
    cases i with
    | zero => constructor <;> simp only [landscapeRect_zero] <;> omega
    | succ i =>
        have hmono := evenCut_mono height (count - 1) (Nat.le_succ i)
        have hbottom := evenCut_le (i := i + 1) (by omega : 0 < count - 1) hh (by omega)
        have := evenCut_mod_two height (count - 1) i
        have := evenCut_mod_two height (count - 1) (i + 1)
        simp only [Nat.succ_eq_add_one] at hmono
        constructor <;> simp only [landscapeRect_succ] <;> omega
  disjoint i j hij hj := by
    obtain ⟨j, rfl⟩ := Nat.exists_eq_succ_of_ne_zero (by omega : j ≠ 0)
    cases i with
    | zero =>
        apply Rect.disjoint_of_right_le
        simp only [landscapeRect_zero, landscapeRect_succ]
        omega
    | succ i =>
        have hle : evenCut height (count - 1) (i + 1) ≤ evenCut height (count - 1) j :=
          evenCut_mono height (count - 1) (by omega)
        apply Rect.disjoint_of_bottom_le
        simp only [landscapeRect_succ]
        omega

theorem covers_landscapeRect (hh : height % 2 = 0) (hcount : 1 < count) :
    Rect.Covers width height count (landscapeRect width height count) := by
  rintro p ⟨⟨hx, hx'⟩, hy, hy'⟩
  simp only [zero_add] at hx hx' hy hy'
  by_cases hedge : p.1 < width - (max 2 (width / 8 * 2) : Nat)
  · refine ⟨0, by omega, ⟨hx, ?_⟩, hy, ?_⟩
    · simpa only [landscapeRect_zero, zero_add] using hedge
    · simpa only [landscapeRect_zero, zero_add] using hy'
  · obtain ⟨i, hi, htop, hbottom⟩ := exists_evenCut (by omega : 0 < count - 1) hh hy hy'
    refine ⟨i + 1, by omega, ?_⟩
    simp only [Rect.Contains, landscapeRect_succ]
    omega

theorem area_landscapeRect_le (hw : 4 ≤ width) (hh : height % 2 = 0) (hcount : 1 < count) {i : Nat} (hi : i < count) :
    (landscapeRect width height count i).area ≤ (landscapeRect width height count 0).area := by
  cases i with
  | zero => exact le_refl _
  | succ i =>
      have hmono := evenCut_mono height (count - 1) (Nat.le_succ i)
      have hbottom := evenCut_le (i := i + 1) (by omega : 0 < count - 1) hh (by omega)
      simp only [Nat.succ_eq_add_one] at hmono
      simp only [Rect.area, landscapeRect_zero, landscapeRect_succ]
      apply mul_le_mul <;> omega

theorem two_le_landscapeRect (hw : 4 ≤ width) (hcount : 1 < count) (hh : 2 * (count - 1) ≤ height) (i : Nat) :
    2 ≤ (landscapeRect width height count i).width ∧ 2 ≤ (landscapeRect width height count i).height := by
  cases i with
  | zero =>
      simp only [landscapeRect_zero]
      omega
  | succ i =>
      have hcut := evenCut_add_two_le (by omega : 0 < count - 1) hh i
      simp only [landscapeRect_succ]
      omega

end Landscape

section Spotlight

variable {width height count : Nat}

theorem packed_spotlightRect (hw : 2 ≤ width ∧ width % 2 = 0) (hh : 2 ≤ height ∧ height % 2 = 0) (hcount : 1 < count) :
    Rect.Packed width height count (spotlightRect width height count) := by
  unfold spotlightRect
  split_ifs
  · exact packed_landscapeRect hw hh.2 hcount
  · simp only [portraitRect_eq]
    exact (packed_landscapeRect hh hw.2 hcount).transpose

theorem covers_spotlightRect (hw : width % 2 = 0) (hh : height % 2 = 0) (hcount : 1 < count) :
    Rect.Covers width height count (spotlightRect width height count) := by
  unfold spotlightRect
  split_ifs
  · exact covers_landscapeRect hh hcount
  · simp only [portraitRect_eq]
    exact (covers_landscapeRect hw hcount).transpose

theorem area_spotlightRect_le (hw : width % 2 = 0) (hh : height % 2 = 0) (hsplit : 4 ≤ max width height)
    (hcount : 1 < count) {i : Nat} (hi : i < count) :
    (spotlightRect width height count i).area ≤ (spotlightRect width height count 0).area := by
  unfold spotlightRect
  split_ifs
  · exact area_landscapeRect_le (by omega) hh hcount hi
  · simp only [portraitRect_eq, Rect.area_transpose]
    exact area_landscapeRect_le (by omega) hw hcount hi

theorem two_le_spotlightRect (hsplit : 4 ≤ max width height) (hcount : 1 < count)
    (hshared : 2 * (count - 1) ≤ min width height) (i : Nat) :
    2 ≤ (spotlightRect width height count i).width ∧ 2 ≤ (spotlightRect width height count i).height := by
  unfold spotlightRect
  split_ifs
  · exact two_le_landscapeRect (by omega) hcount (by omega) i
  · rw [portraitRect_eq]
    exact (two_le_landscapeRect (by omega) hcount (by omega) i).symm

end Spotlight

/-! ## 領域の列 -/

theorem flatRect_eq (width height : Nat) (grid : Nat × Nat) :
    flatRect width height grid = evenCell width height grid.1 grid.2 := rfl

theorem rectOf_place (uid : String) (r : Rect) : rectOf (place uid r) = r := rfl

section Placed

variable {users : List String} {R : Nat → Rect} {w h : Int}

theorem uids_placed : (users.mapIdx fun i uid => place uid (R i)).map (·.uid) = users := by
  apply List.ext_getElem
  · rw [List.length_map, List.length_mapIdx]
  · intro i _ _
    rw [List.getElem_map, List.getElem_mapIdx]
    rfl

theorem forall_mem_placed {p : LayoutRegion → Prop} (hp : ∀ i < users.length, ∀ uid, p (place uid (R i))) :
    ∀ r ∈ users.mapIdx fun i uid => place uid (R i), p r := by
  intro r hr
  obtain ⟨i, hi, rfl⟩ := List.mem_mapIdx.mp hr
  exact hp i hi _

theorem pairwise_placed (hR : Rect.Packed w h users.length R) :
    (users.mapIdx fun i uid => place uid (R i)).Pairwise fun r s => (rectOf r).Disjoint (rectOf s) := by
  rw [List.pairwise_iff_getElem]
  intro i j hi hj hij
  rw [List.length_mapIdx] at hj
  simp only [List.getElem_mapIdx, rectOf_place]
  exact hR.disjoint i j hij hj

theorem coversCanvas_placed {c : VideoCompositor.Config} (hR : Rect.Covers c.outputWidth c.outputHeight users.length R) :
    CoversCanvas c (users.mapIdx fun i uid => place uid (R i)) := by
  intro p hp
  obtain ⟨i, hi, hcontains⟩ := hR p hp
  exact ⟨place users[i] (R i), List.mem_mapIdx.mpr ⟨i, hi, rfl⟩, hcontains⟩

end Placed

theorem validSize_eq_true {n : Nat} : VideoCompositor.validSize n = true ↔ (2 ≤ n ∧ n ≤ 8192) ∧ n % 2 = 0 := by
  simp only [VideoCompositor.validSize, Bool.and_eq_true, decide_eq_true_eq, beq_iff_eq]

/-- 画面と人数の上限までなら、境の計算の積は `int` に収まる。 -/
theorem mul_lt_int {i size n : Nat} (hi : i ≤ n) (hn : n ≤ 100000) (hsize : size ≤ 8192) : i * size < 2 ^ 31 :=
  calc i * size ≤ 100000 * 8192 := Nat.mul_le_mul (hi.trans hn) hsize
    _ < 2 ^ 31 := by decide

section Layouts

variable {c : VideoCompositor.Config} {grid : Nat × Nat} {users : List String}

theorem partitions_spotlight (hw : (2 ≤ c.outputWidth ∧ c.outputWidth ≤ 8192) ∧ c.outputWidth % 2 = 0)
    (hh : (2 ≤ c.outputHeight ∧ c.outputHeight ≤ 8192) ∧ c.outputHeight % 2 = 0) (hpos : 1 ≤ users.length)
    (hmax : users.length ≤ 100000) (hs : Spotlight c users) :
    Partitions c grid users (users.mapIdx fun i uid => place uid (automaticRect c grid users i)) := by
  have hrect : ∀ i, automaticRect c grid users i = spotlightRect c.outputWidth c.outputHeight users.length i :=
    fun i => if_pos hs
  have hpacked := packed_spotlightRect ⟨hw.1.1, hw.2⟩ ⟨hh.1.1, hh.2⟩ hs.2
  simp only [hrect]
  exact {
    uids := uids_placed
    within := forall_mem_placed fun i hi _ => hpacked.within i hi
    disjoint := pairwise_placed hpacked
    grid_covers := fun hgrid => absurd hs hgrid
    spotlight_covers := fun _ => coversCanvas_placed (covers_spotlightRect hw.2 hh.2 hs.2)
    spotlight_largest := by
      intro _ hsplit first hfirst
      obtain ⟨u, rest, rfl⟩ := List.exists_cons_of_length_pos hpos
      rw [List.mapIdx_cons, List.head?_cons, Option.mem_some_iff] at hfirst
      subst hfirst
      exact forall_mem_placed fun i hi _ => area_spotlightRect_le hw.2 hh.2 hsplit hs.2 hi
    grid_size := fun hgrid => absurd hs hgrid
    spotlight_size := fun _ hsplit hshared =>
      forall_mem_placed fun i _ _ => two_le_spotlightRect hsplit hs.2 hshared i
    fits := fun _ hi => ⟨mul_lt_int hi hmax hw.1.2, mul_lt_int hi hmax hh.1.2⟩ }

theorem partitions_grid (hw : (2 ≤ c.outputWidth ∧ c.outputWidth ≤ 8192) ∧ c.outputWidth % 2 = 0)
    (hh : (2 ≤ c.outputHeight ∧ c.outputHeight ≤ 8192) ∧ c.outputHeight % 2 = 0) (hmax : users.length ≤ 100000)
    (hgrid : IsGrid users.length grid) (hs : ¬Spotlight c users) :
    Partitions c grid users (users.mapIdx fun i uid => place uid (automaticRect c grid users i)) := by
  have hrect : ∀ i, automaticRect c grid users i = evenCell c.outputWidth c.outputHeight grid.1 grid.2 i :=
    fun i => (if_neg hs).trans (congrFun (flatRect_eq _ _ grid) i)
  have hpacked := packed_evenCell hw.2 hh.2 hgrid.pos hgrid.le_mul
  simp only [hrect]
  exact {
    uids := uids_placed
    within := forall_mem_placed fun i hi _ => hpacked.within i hi
    disjoint := pairwise_placed hpacked
    grid_covers := by
      intro _ hfull
      have hcovers := covers_evenCell hw.2 hh.2 hgrid.pos hgrid.rows_pos
      rw [← hfull] at hcovers
      exact coversCanvas_placed hcovers
    spotlight_covers := fun h => absurd h hs
    spotlight_largest := fun h => absurd h hs
    grid_size := fun _ hcols hrows =>
      forall_mem_placed fun i _ _ => two_le_evenCell hgrid.pos hgrid.rows_pos hcols hrows i
    spotlight_size := fun h => absurd h hs
    fits := fun _ hi => ⟨mul_lt_int hi hmax hw.1.2, mul_lt_int hi hmax hh.1.2⟩ }

end Layouts

/-- 自動の配置は、どの人数と格子でも、画面を利用者の順に分ける。`calculateOptimalLayout` の値は、いつもその格子である。 -/
theorem calculateRegions_partitions {c : VideoCompositor.Config} (hw : VideoCompositor.validSize c.outputWidth = true)
    (hh : VideoCompositor.validSize c.outputHeight = true) (hl : c.layout = "flat" ∨ c.layout = "spotlight")
    (users : List String) (hpos : 1 ≤ users.length) (hmax : users.length ≤ 100000) :
    (∀ fl, IsGrid users.length (calculateOptimalLayout fl c.outputWidth c.outputHeight users.length)) ∧
      ∀ grid : Nat → Nat × Nat, IsGrid users.length (grid users.length) →
        Partitions c (grid users.length) users (calculateRegions c grid users) := by
  refine ⟨fun fl => isGrid_calculateOptimalLayout fl _ _ hpos, fun grid hgrid => ?_⟩
  have hcustomized : c.layout ≠ "customized" := by
    rintro h
    rcases hl with hl | hl <;> simp [h] at hl
  rw [calculateRegions, if_neg hcustomized]
  by_cases hs : Spotlight c users
  · exact partitions_spotlight (validSize_eq_true.mp hw) (validSize_eq_true.mp hh) hpos hmax hs
  · exact partitions_grid (validSize_eq_true.mp hw) (validSize_eq_true.mp hh) hmax hgrid hs

/-! ## 例 -/

def spotlightThree : VideoCompositor.Config := ⟨1280, 720, "spotlight", []⟩

def threeUsers : List String := ["alice", "bob", "carol"]

theorem calculateRegions_partitions_three :
    Partitions spotlightThree (2, 2) threeUsers (calculateRegions spotlightThree (fun _ => (2, 2)) threeUsers) :=
  (calculateRegions_partitions (c := spotlightThree) (by decide) (by decide) (by decide) threeUsers (by decide)
    (by decide)).2 (fun _ => (2, 2)) ⟨by decide, by decide, by decide⟩

end RtcEgress.Compositor
