import Mathlib.Algebra.GroupWithZero.Nat
import RtcEgress.Lib.Lines

/-!
# 列を切ったときの欄

区切りの文字で分けた欄が、列を切ることでどう変わるかを調べる。区切りのところで切れば、空でない欄は変わらない。
ほかのところで切れば、切れた欄は失われる。ただし、失われるのは、自分の真の一部がどれも条件 `p` を満たさない欄に
限る。
-/

namespace RtcEgress.Lib

variable {α : Type*} [DecidableEq α] {sep : α} {p : List α → Bool}

/-- つなぎ目では、前の列の最後の欄と後の列の最初の欄が一つになる。 -/
theorem splitOn_append (r s : List α) :
    (r ++ s).splitOn sep = terminated sep r ++ (s.splitOn sep).modifyHead (unterminated sep r ++ ·) := by
  induction r using lines_induction sep with
  | tail t ht => simp [ht, splitOn_append_of_notMem ht]
  | line l t hl ih =>
      simp [List.splitOn_append_cons_self_of_not_mem hl, terminated_append_cons hl, unterminated_append_cons hl, ih]

theorem unterminated_eq_nil {s : List α} (h : unterminated sep s = []) : s = [] ∨ s.getLast? = some sep := by
  induction s using lines_induction sep with
  | tail t ht => exact .inl (by simpa [ht] using h)
  | line l t hl ih =>
      rw [unterminated_append_cons hl] at h
      rcases ih h with rfl | hlast
      · exact .inr (by simp)
      · exact .inr (by simp [List.getLast?_append, List.getLast?_cons, hlast])

theorem splitOn_head {s : List α} {lines : List (List α)} (h : s.splitOn sep = [] :: lines) :
    s = [] ∨ s.head? = some sep := by
  cases s with
  | nil => exact .inl rfl
  | cons b s =>
      rw [List.splitOn_cons_eq_if_modifyHead] at h
      split at h
      · next hb => exact .inr (by simpa using hb)
      · cases hs : s.splitOn sep with
        | nil => exact absurd hs (List.splitOn_ne_nil sep s)
        | cons l lines => simp [hs] at h

theorem splitOn_append_right {w s : List α} (h : w ∈ s.splitOn sep) (v : List α) :
    ∃ w' ∈ (s ++ v).splitOn sep, w <:+: w' := by
  rw [splitOn_append]
  rw [← terminated_append_unterminated, List.mem_append, List.mem_singleton] at h
  rcases h with h | rfl
  · exact ⟨w, List.mem_append_left _ h, List.infix_rfl⟩
  · cases hv : v.splitOn sep with
    | nil => exact absurd hv (List.splitOn_ne_nil sep v)
    | cons l lines => exact ⟨unterminated sep s ++ l, by simp, (List.prefix_append _ _).isInfix⟩

theorem splitOn_append_left {w s : List α} (h : w ∈ s.splitOn sep) (u : List α) :
    ∃ w' ∈ (u ++ s).splitOn sep, w <:+: w' := by
  rw [splitOn_append]
  cases hs : s.splitOn sep with
  | nil => exact absurd hs (List.splitOn_ne_nil sep s)
  | cons l lines =>
      rw [hs] at h
      rcases List.mem_cons.mp h with rfl | h
      · exact ⟨unterminated sep u ++ w, by simp, (List.suffix_append _ _).isInfix⟩
      · exact ⟨w, by simp [h], List.infix_rfl⟩

/-! ## 空でない欄 -/

def fields (sep : α) (s : List α) : List (List α) := (s.splitOn sep).filter (· ≠ [])

theorem fields_append_cons (s t : List α) : fields sep (s ++ sep :: t) = fields sep s ++ fields sep t := by
  rw [fields, List.splitOn_append_cons_self, List.filter_append, fields, fields]

@[simp] theorem fields_nil : fields sep [] = [] := by simp [fields]

@[simp] theorem fields_cons (s : List α) : fields sep (sep :: s) = fields sep s := by
  rw [← List.nil_append (sep :: s), fields_append_cons, fields_nil, List.nil_append]

@[simp] theorem fields_concat (s : List α) : fields sep (s ++ [sep]) = fields sep s := by
  simp [fields_append_cons]

theorem fields_of_notMem {s : List α} (h : sep ∉ s) (hs : s ≠ []) : fields sep s = [s] := by
  simp [fields, List.splitOn_eq_singleton h, hs]

/-- 切れ目が区切りの直前か直後にある。 -/
def Clean (sep : α) (r s : List α) : Prop := r.getLast? = some sep ∨ s.head? = some sep

theorem Clean.fields_append {r s : List α} (h : Clean sep r s) :
    fields sep (r ++ s) = fields sep r ++ fields sep s := by
  rcases h with h | h
  · obtain ⟨r, rfl⟩ := List.getLast?_eq_some_iff.mp h
    simp [fields_append_cons]
  · obtain ⟨t, rfl⟩ := List.head?_eq_some_iff.mp h
    simp [fields_append_cons]

/-- どの切れ目も区切りの直前か直後にあれば、空でない欄は変わらない。 -/
theorem fields_flatten {reads : List (List α)} (h : reads.IsChain (Clean sep)) (hne : ∀ r ∈ reads, r ≠ []) :
    fields sep reads.flatten = reads.flatMap (fields sep) := by
  induction reads with
  | nil => simp
  | cons r reads ih =>
      obtain ⟨-, hne⟩ := List.forall_mem_cons.mp hne
      cases reads with
      | nil => simp
      | cons s reads =>
          obtain ⟨hclean, hchain⟩ := List.isChain_cons_cons.mp h
          have hs := hne s (by simp)
          have hclean' : Clean sep r (s :: reads).flatten := by
            refine hclean.imp id fun hhead => ?_
            cases s with
            | nil => exact absurd rfl hs
            | cons b s => simpa using hhead
          rw [List.flatten_cons, hclean'.fields_append, ih hchain hne]
          rfl

/-! ## 切れた欄 -/

/-- `w` の一部で `p` を満たすのは、`w` だけである。 -/
def Atomic (p : List α → Bool) (w : List α) : Prop := ∀ x, x <:+: w → p x = true → x = w

omit [DecidableEq α] in
theorem Atomic.part {w w' : List α} (h : Atomic p w) (hw : w' <:+: w) : Atomic p w' := by
  intro x hx hp
  have heq := h x (hx.trans hw) hp
  have hle := hw.length_le
  rw [← heq] at hle
  exact hx.eq_of_length_le hle

/-- どの欄も、`p` を満たす真の一部を持たない。 -/
def AtomicFields (sep : α) (p : List α → Bool) (s : List α) : Prop := ∀ w ∈ s.splitOn sep, Atomic p w

theorem AtomicFields.left {r s : List α} (h : AtomicFields sep p (r ++ s)) : AtomicFields sep p r := by
  intro w hw
  obtain ⟨w', hw', hinfix⟩ := splitOn_append_right hw s
  exact (h w' hw').part hinfix

theorem AtomicFields.right {r s : List α} (h : AtomicFields sep p (r ++ s)) : AtomicFields sep p s := by
  intro w hw
  obtain ⟨w', hw', hinfix⟩ := splitOn_append_left hw r
  exact (h w' hw').part hinfix

omit [DecidableEq α] in
/-- 空でない二つの列をつないだ欄は、つなぐ前のどちらの列よりも多くを満たす。 -/
theorem Atomic.countP_append {u v : List α} (h : Atomic p (u ++ v)) (hnil : p [] = false) :
    [u].countP p + [v].countP p ≤ [u ++ v].countP p := by
  have hu := h u (List.prefix_append u v).isInfix
  have hv := h v (List.suffix_append u v).isInfix
  cases u with
  | nil => simp [hnil]
  | cons a u =>
      cases v with
      | nil => simp [hnil]
      | cons b v =>
          have hu : p (a :: u) = false := by
            rw [← Bool.not_eq_true]
            intro hp
            simpa using hu hp
          have hv : p (b :: v) = false := by
            rw [← Bool.not_eq_true]
            intro hp
            have hlen := congrArg List.length (hv hp)
            simp at hlen
            omega
          simp [hu, hv]

/-- 満たす欄の数。 -/
def whole (sep : α) (p : List α → Bool) (s : List α) : Nat := (s.splitOn sep).countP p

theorem whole_eq (s : List α) : whole sep p s = (terminated sep s).countP p + [unterminated sep s].countP p := by
  rw [whole, ← terminated_append_unterminated, List.countP_append]

theorem whole_append_le {r s : List α} (h : AtomicFields sep p (r ++ s)) (hnil : p [] = false) :
    whole sep p r + whole sep p s ≤ whole sep p (r ++ s) := by
  rw [whole_eq r, whole, whole, splitOn_append, List.countP_append]
  cases hs : s.splitOn sep with
  | nil => exact absurd hs (List.splitOn_ne_nil sep s)
  | cons l lines =>
      have hmem : unterminated sep r ++ l ∈ (r ++ s).splitOn sep := by
        rw [splitOn_append, hs]
        simp
      have hcount := (h _ hmem).countP_append hnil
      rw [List.modifyHead_cons, ← List.singleton_append (l := lines), List.countP_append,
        ← List.singleton_append (l := lines), List.countP_append]
      omega

theorem sum_whole_le {reads : List (List α)} (h : AtomicFields sep p reads.flatten) (hnil : p [] = false) :
    (reads.map (whole sep p)).sum ≤ whole sep p reads.flatten := by
  induction reads with
  | nil => simp
  | cons r reads ih =>
      rw [List.flatten_cons] at h
      have hle := whole_append_le h hnil
      have hsum := ih h.right
      simp only [List.map_cons, List.sum_cons, List.flatten_cons]
      omega

/-- 欄の途中で切ると、切れた欄の分だけ減る。 -/
theorem whole_append_lt {r s : List α} (h : AtomicFields sep p (r ++ s))
    (hp : ∀ w ∈ (r ++ s).splitOn sep, w ≠ [] → p w = true) (hr : r ≠ []) (hs : s ≠ []) (hclean : ¬Clean sep r s) :
    whole sep p r + whole sep p s < whole sep p (r ++ s) := by
  rw [Clean, not_or] at hclean
  have hu : unterminated sep r ≠ [] := fun hu => (unterminated_eq_nil hu).elim hr hclean.1
  rw [whole_eq r, whole, whole, splitOn_append, List.countP_append]
  cases hl : s.splitOn sep with
  | nil => exact absurd hl (List.splitOn_ne_nil sep s)
  | cons l lines =>
      have hl₀ : l ≠ [] := by
        rintro rfl
        exact (splitOn_head hl).elim hs hclean.2
      have hmem : unterminated sep r ++ l ∈ (r ++ s).splitOn sep := by
        rw [splitOn_append, hl]
        simp
      have hpul := hp _ hmem (by simp [hu])
      have hpu : p (unterminated sep r) = false := by
        rw [← Bool.not_eq_true]
        intro hpu
        have heq := h _ hmem _ (List.prefix_append _ l).isInfix hpu
        simp [hl₀] at heq
      have hpl : p l = false := by
        rw [← Bool.not_eq_true]
        intro hpl
        have heq := h _ hmem _ (List.suffix_append _ l).isInfix hpl
        simp [hu] at heq
      simp [hpul, hpu, hpl]

end RtcEgress.Lib
