import RtcEgress.Lib.Rect
import Mathlib.Data.List.Sort

/-!
# 順に重ねて塗ること

矩形への書き込みは、行ごとの書き込みの繰り返しである。順に重ねて塗った画素の値は、その画素を覆うもののうち、最後に
塗ったもので決まる。安定な整列の順に塗れば、それは、最も大きいキーのうち、元の列で最も後にあるものである。
-/

namespace RtcEgress.Lib

/-! ## 行ごとの書き込み -/

section Rows

variable {α : Type} (canvas : Int × Int → α)

/-- 行 `y` の `x` から幅 `width` への書き込み。 -/
def writeRow (x y width : Int) (row : Int → α) : Int × Int → α := fun p =>
  if p.2 = y ∧ x ≤ p.1 ∧ p.1 < x + width then row (p.1 - x) else canvas p

/-- 矩形の上の行から順に書き込む。 -/
def writeRows (r : Rect) (src : Int → Int → α) : Int × Int → α :=
  (List.range r.height.toNat).foldl
    (fun canvas (y : Nat) => writeRow canvas r.x (r.y + y) r.width fun x => src x y) canvas

theorem foldl_writeRow_apply (r : Rect) (src : Int → Int → α) (n : Nat) (p : Int × Int) :
    (List.range n).foldl (fun canvas (y : Nat) => writeRow canvas r.x (r.y + y) r.width fun x => src x y) canvas p =
      if (r.x ≤ p.1 ∧ p.1 < r.x + r.width) ∧ r.y ≤ p.2 ∧ p.2 < r.y + n then src (p.1 - r.x) (p.2 - r.y) else canvas p := by
  induction n with
  | zero => rw [if_neg (by omega)]; rfl
  | succ n ih =>
      rw [List.range_succ, List.foldl_append, List.foldl_cons, List.foldl_nil, writeRow]
      by_cases hrow : p.2 = r.y + n ∧ r.x ≤ p.1 ∧ p.1 < r.x + r.width
      · rw [if_pos hrow, if_pos (by omega), show p.2 - r.y = n by omega]
      · rw [if_neg hrow, ih]
        exact if_congr (by omega) rfl rfl

theorem writeRows_apply (r : Rect) (src : Int → Int → α) (p : Int × Int) :
    writeRows canvas r src p = if r.Contains p then src (p.1 - r.x) (p.2 - r.y) else canvas p := by
  rw [writeRows, foldl_writeRow_apply]
  exact if_congr (by unfold Rect.Contains; omega) rfl rfl

end Rows

/-! ## 最後に塗ったもの -/

/-- 各段が、覆うときだけ値を書き換えるなら、最後の値は、覆うもののうち最後のものの値である。 -/
theorem get_foldl_of_covers {σ β γ : Type} (get : σ → γ) (step : σ → β → σ) (covers : β → Prop) [DecidablePred covers]
    (value : β → γ) {l : List β} (h : ∀ b ∈ l, ∀ c, get (step c b) = if covers b then value b else get c) (c : σ) :
    get (l.foldl step c) = ((l.reverse.find? covers).map value).getD (get c) := by
  induction l generalizing c with
  | nil => rfl
  | cons b l ih =>
      obtain ⟨hb, hl⟩ := List.forall_mem_cons.mp h
      rw [List.foldl_cons, ih hl, List.reverse_cons, List.find?_append, hb]
      cases l.reverse.find? covers with
      | some d => rfl
      | none => by_cases hc : covers b <;> simp [hc]

/-! ## 整列した順 -/

section Sorted

variable {β κ : Type} [LinearOrder κ] (key : β → κ) (covers : β → Prop)

/-- 覆うもののうち、キーが最も大きく、同じキーの中では最も後にあるもの。 -/
structure Topmost (l : List β) (i : Nat) (b : β) : Prop where
  get : l[i]? = some b
  covered : covers b
  top : ∀ j c, l[j]? = some c → covers c → key c < key b ∨ key c = key b ∧ j ≤ i

variable {key covers}

theorem Topmost.cons {l : List β} {i : Nat} {b : β} (h : Topmost key covers l i b) {a : β}
    (ha : covers a → key a ≤ key b) : Topmost key covers (a :: l) (i + 1) b := by
  refine ⟨h.get, h.covered, fun j c hget hc => ?_⟩
  cases j with
  | zero =>
      obtain rfl : a = c := Option.some.inj hget
      exact (ha hc).lt_or_eq.imp_right fun he => ⟨he, Nat.zero_le _⟩
  | succ j => exact (h.top j c hget hc).imp_right fun he => ⟨he.1, Nat.succ_le_succ he.2⟩

theorem Topmost.unique {l : List β} {i j : Nat} {b c : β} (hb : Topmost key covers l i b) (hc : Topmost key covers l j c) :
    b = c := by
  have hij : i = j := by
    rcases hb.top j c hc.get hc.covered with hlt | ⟨heq, hle⟩
    · rcases hc.top i b hb.get hb.covered with hlt' | ⟨heq', -⟩
      · exact absurd hlt (lt_asymm hlt')
      · exact absurd heq' (ne_of_gt hlt)
    · rcases hc.top i b hb.get hb.covered with hlt' | ⟨-, hle'⟩
      · exact absurd heq (ne_of_gt hlt')
      · exact Nat.le_antisymm hle' hle
  subst hij
  exact Option.some.inj (hb.get.symm.trans hc.get)

/-- 先頭は、後ろのどれよりもキーが大きいときに選ばれる。 -/
theorem topmost_head {l : List β} {a : β} (ha : covers a) (hl : ∀ c ∈ l, covers c → key c < key a) :
    Topmost key covers (a :: l) 0 a := by
  refine ⟨rfl, ha, fun j c hget hc => ?_⟩
  cases j with
  | zero =>
      obtain rfl : a = c := Option.some.inj hget
      exact Or.inr ⟨rfl, le_refl _⟩
  | succ j => exact Or.inl (hl c (List.mem_of_getElem? hget) hc)

variable [DecidablePred covers]

/-- 整列した列に差し込むと、最後に覆うものは、キーが小さくないほうになる。同じキーなら、元からあるものである。 -/
theorem find?_reverse_orderedInsert {s : List β} (hs : s.Pairwise fun a b => key a ≤ key b) (a : β) :
    (s.orderedInsert (fun a b => key a ≤ key b) a).reverse.find? covers =
      match s.reverse.find? covers with
      | some b => if covers a ∧ key b < key a then some a else some b
      | none => if covers a then some a else none := by
  induction s with
  | nil => by_cases ha : covers a <;> simp [ha]
  | cons b s ih =>
      obtain ⟨hb, hs⟩ := List.pairwise_cons.mp hs
      by_cases hle : key a ≤ key b
      · rw [List.orderedInsert_cons_of_le (fun a b => key a ≤ key b) _ hle, List.reverse_cons, List.find?_append]
        cases hfound : (b :: s).reverse.find? covers with
        | none => by_cases ha : covers a <;> simp [ha]
        | some c =>
            have hmem : c ∈ b :: s := List.mem_reverse.mp (List.mem_of_find?_eq_some hfound)
            have hge : key b ≤ key c := by
              rcases List.mem_cons.mp hmem with rfl | hc
              · exact le_refl _
              · exact hb c hc
            simp [not_lt.mpr (hle.trans hge)]
      · rw [List.orderedInsert_of_not_le (fun a b => key a ≤ key b) _ hle, List.reverse_cons, List.find?_append,
          ih hs, List.reverse_cons, List.find?_append]
        cases s.reverse.find? covers with
        | some c => by_cases ha : covers a ∧ key c < key a <;> simp [ha]
        | none => by_cases ha : covers a <;> by_cases hcb : covers b <;> simp [ha, hcb, not_le.mp hle]

/-- 安定な整列の順で最後に覆うものは、元の列で最も上にあるものである。 -/
theorem exists_topmost {l : List β} {b : β}
    (h : (l.insertionSort fun a b => key a ≤ key b).reverse.find? covers = some b) : ∃ i, Topmost key covers l i b := by
  induction l generalizing b with
  | nil => cases h
  | cons a l ih =>
      have hsorted := List.pairwise_insertionSort (fun a b => key a ≤ key b) l
      rw [List.insertionSort_cons, find?_reverse_orderedInsert hsorted] at h
      cases hfound : (l.insertionSort fun a b => key a ≤ key b).reverse.find? covers with
      | none =>
          have hnone : ∀ c ∈ l, ¬covers c := by
            simpa [List.find?_eq_none] using hfound
          rw [hfound] at h
          dsimp only at h
          split_ifs at h with ha
          obtain rfl : a = b := Option.some.inj h
          exact ⟨0, topmost_head ha fun c hc hcovers => absurd hcovers (hnone c hc)⟩
      | some c =>
          obtain ⟨i, hi⟩ := ih hfound
          rw [hfound] at h
          dsimp only at h
          split_ifs at h with ha
          · obtain rfl : a = b := Option.some.inj h
            refine ⟨0, topmost_head ha.1 fun d hd hcovers => ?_⟩
            obtain ⟨j, hj⟩ := List.getElem?_of_mem hd
            rcases hi.top j d hj hcovers with hlt | ⟨heq, -⟩
            · exact hlt.trans ha.2
            · exact heq.trans_lt ha.2
          · obtain rfl : c = b := Option.some.inj h
            exact ⟨i + 1, hi.cons fun hcovers => not_lt.mp fun hlt => ha ⟨hcovers, hlt⟩⟩

end Sorted

end RtcEgress.Lib
