import Mathlib.Data.List.Basic

/-!
# 区切りで終わる行

区切りの文字で分けた列を、区切りで終わる行の列と、最後の区切りのあとの残りとに分ける。列をつないだときの行は、
前の列の残りに後の列をつないだものの行で決まる。
-/

namespace RtcEgress.Lib

variable {α : Type*} [DecidableEq α] {sep : α}

/-- 区切りで終わる行。区切りそのものは含まない。 -/
def terminated (sep : α) (s : List α) : List (List α) := (s.splitOn sep).dropLast

/-- 最後の区切りのあとの残り。 -/
def unterminated (sep : α) (s : List α) : List α := (s.splitOn sep).getLast (List.splitOn_ne_nil sep s)

theorem terminated_append_unterminated (s : List α) :
    terminated sep s ++ [unterminated sep s] = s.splitOn sep :=
  List.dropLast_concat_getLast _

@[simp] theorem terminated_of_notMem {s : List α} (h : sep ∉ s) : terminated sep s = [] := by
  simp [terminated, List.splitOn_eq_singleton h]

@[simp] theorem unterminated_of_notMem {s : List α} (h : sep ∉ s) : unterminated sep s = s := by
  simp [unterminated, List.splitOn_eq_singleton h]

theorem terminated_append_cons {l : List α} (h : sep ∉ l) (s : List α) :
    terminated sep (l ++ sep :: s) = l :: terminated sep s := by
  have hs := List.splitOn_ne_nil sep s
  simp [terminated, List.splitOn_append_cons_self_of_not_mem h, List.dropLast_cons_of_ne_nil hs]

theorem unterminated_append_cons {l : List α} (h : sep ∉ l) (s : List α) :
    unterminated sep (l ++ sep :: s) = unterminated sep s := by
  have hs := List.splitOn_ne_nil sep s
  simp [unterminated, List.splitOn_append_cons_self_of_not_mem h, List.getLast_cons hs]

/-- 行ごとの帰納法。 -/
theorem lines_induction (sep : α) {P : List α → Prop} (tail : ∀ t, sep ∉ t → P t)
    (line : ∀ l s, sep ∉ l → P s → P (l ++ sep :: s)) (s : List α) : P s := by
  induction h : s.length using Nat.strongRecOn generalizing s with
  | ind n ih =>
      by_cases hs : sep ∈ s
      · obtain ⟨l, t, rfl, hl⟩ := List.eq_append_cons_of_mem hs
        apply line l t hl
        apply ih t.length _ t rfl
        simp only [List.length_append, List.length_cons] at h
        omega
      · exact tail s hs

theorem notMem_unterminated (s : List α) : sep ∉ unterminated sep s := by
  induction s using lines_induction sep with
  | tail t ht => simp [ht]
  | line l s hl ih => simpa [unterminated_append_cons hl] using ih

theorem terminated_append (s t : List α) :
    terminated sep (s ++ t) = terminated sep s ++ terminated sep (unterminated sep s ++ t) := by
  induction s using lines_induction sep with
  | tail s hs => simp [hs]
  | line l s hl ih => simp [terminated_append_cons hl, unterminated_append_cons hl, ih]

theorem unterminated_append (s t : List α) :
    unterminated sep (s ++ t) = unterminated sep (unterminated sep s ++ t) := by
  induction s using lines_induction sep with
  | tail s hs => simp [hs]
  | line l s hl ih => simp [unterminated_append_cons hl, ih]

/-- 区切りを含まない列を前につなぐと、最初の行だけが変わる。 -/
theorem splitOn_append_of_notMem {u : List α} (h : sep ∉ u) (s : List α) :
    (u ++ s).splitOn sep = (s.splitOn sep).modifyHead (u ++ ·) := by
  induction s using lines_induction sep with
  | tail t ht =>
      have hut : sep ∉ u ++ t := by simp [h, ht]
      simp [List.splitOn_eq_singleton ht, List.splitOn_eq_singleton hut]
  | line l s hl _ =>
      have hul : sep ∉ u ++ l := by simp [h, hl]
      simp [List.splitOn_append_cons_self_of_not_mem hl, ← List.append_assoc,
        List.splitOn_append_cons_self_of_not_mem hul]

theorem terminated_append_of_notMem {u : List α} (h : sep ∉ u) (s : List α) :
    terminated sep (u ++ s) = (terminated sep s).modifyHead (u ++ ·) := by
  rw [terminated, splitOn_append_of_notMem h, terminated]
  cases s.splitOn sep with
  | nil => rfl
  | cons l lines => cases lines <;> simp

/-- 行を並べた列は、もとの行に分かれる。 -/
theorem splitOn_flatMap {β : Type} (line : β → List α) {xs : List β} (h : ∀ x ∈ xs, sep ∉ line x) :
    (xs.flatMap fun x => line x ++ [sep]).splitOn sep = xs.map line ++ [[]] := by
  induction xs with
  | nil => simp
  | cons x xs ih =>
      have hcons : (x :: xs).flatMap (fun x => line x ++ [sep]) =
          line x ++ sep :: xs.flatMap (fun x => line x ++ [sep]) := by simp
      rw [hcons, List.splitOn_append_cons_self_of_not_mem (h x List.mem_cons_self),
        ih fun y hy => h y (List.mem_cons_of_mem x hy)]
      rfl

/-- 後に何をつないでも、終わった行は変わらない。 -/
theorem terminated_prefix_append (s t : List α) : terminated sep s <+: terminated sep (s ++ t) :=
  ⟨_, (terminated_append s t).symm⟩

/-- 行の数は、区切りの数である。 -/
theorem length_terminated (s : List α) : (terminated sep s).length = s.count sep := by
  induction s using lines_induction sep with
  | tail t ht => rw [terminated_of_notMem ht, List.count_eq_zero_of_not_mem ht, List.length_nil]
  | line l s hl ih =>
      rw [terminated_append_cons hl, List.length_cons, ih, List.count_append, List.count_eq_zero_of_not_mem hl,
        List.count_cons_self, Nat.zero_add]

/-! ## 区切りに挟まれた列 -/

theorem infix_of_mem_terminated {w s : List α} (h : w ∈ terminated sep s) : sep :: (w ++ [sep]) <:+: sep :: s := by
  induction s using lines_induction sep with
  | tail t ht => simp [ht] at h
  | line l s hl ih =>
      rw [terminated_append_cons hl] at h
      rcases List.mem_cons.mp h with rfl | h
      · exact ⟨[], s, by simp⟩
      · exact (ih h).trans ⟨sep :: l, [], by simp⟩

/-- 区切りに挟まれて現れる列は、始めと終わりを除いた欄である。 -/
theorem infix_iff_mem_terminated {w : List α} (hw : sep ∉ w) (s : List α) :
    sep :: (w ++ [sep]) <:+: s ↔ w ∈ (terminated sep s).tail := by
  constructor
  · rintro ⟨a, b, rfl⟩
    have hb : terminated sep (w ++ sep :: b) = w :: terminated sep b := terminated_append_cons hw b
    have hs : terminated sep (a ++ sep :: (w ++ sep :: b)) =
        terminated sep a ++ unterminated sep a :: w :: terminated sep b := by
      rw [terminated_append, terminated_append_cons (notMem_unterminated a), hb]
    have hassoc : a ++ sep :: (w ++ [sep]) ++ b = a ++ sep :: (w ++ sep :: b) := by simp
    rw [hassoc, hs]
    cases terminated sep a <;> simp
  · intro h
    induction s using lines_induction sep with
    | tail t ht => simp [ht] at h
    | line l s hl _ =>
        rw [terminated_append_cons hl] at h
        exact (infix_of_mem_terminated h).trans ⟨l, [], by simp⟩

/-- 区切りの後の、区切りに挟まれて現れる列は、始めの二つと終わりを除いた欄である。 -/
theorem mem_terminated_drop_two {w t : List α} : w ∈ (terminated sep t).drop 2 ↔
    ∃ a v, t = a ++ sep :: v ∧ w ∈ (terminated sep v).tail := by
  constructor
  · intro h
    induction t using lines_induction sep with
    | tail t ht => simp [ht] at h
    | line l s hl _ =>
        rw [terminated_append_cons hl, List.drop_succ_cons, List.drop_one] at h
        exact ⟨l, s, rfl, h⟩
  · rintro ⟨a, v, rfl, h⟩
    rw [terminated_append, terminated_append_cons (notMem_unterminated a)]
    rcases terminated sep a with _ | ⟨b, _ | ⟨c, lines⟩⟩
    · simpa using h
    · simpa using List.mem_of_mem_tail h
    · simp [List.mem_of_mem_tail h]

end RtcEgress.Lib
