import Mathlib.Data.List.Infix

/-!
# キーのパターン

Redis の `KEYS` のパターンのうち、`*` と `?` を扱う。`*` は空を含む任意の文字の列に、`?` は一文字に
照合する。
-/

namespace RtcEgress.Lib

/-- パターンと文字の列の照合。`*` の長さは、照合する文字の列を一つずつ短くしながら試す。 -/
def globMatch : List Char → List Char → Bool
  | [], s => s.isEmpty
  | '*' :: p, s => s.tails.any (globMatch p)
  | '?' :: p, s => match s with
    | [] => false
    | _ :: s => globMatch p s
  | c :: p, s => match s with
    | [] => false
    | d :: s => c == d && globMatch p s

/-- `*` と `?` 以外の文字は、パターンに現れる数だけ照合した列にも現れる。 -/
theorem globMatch_count {c : Char} (h₁ : c ≠ '*') (h₂ : c ≠ '?') :
    (p : List Char) → ∀ {s : List Char}, globMatch p s = true → p.count c ≤ s.count c
  | [], _, _ => by simp
  | d :: p, s, h => by
      by_cases hs : d = '*'
      · subst hs
        simp only [globMatch, List.any_eq_true, List.mem_tails] at h
        obtain ⟨t, ht, hm⟩ := h
        have ih := globMatch_count h₁ h₂ p hm
        rw [List.count_cons_of_ne (Ne.symm h₁)]
        exact Nat.le_trans ih (ht.sublist.count_le c)
      · by_cases hq : d = '?'
        · subst hq
          cases s with
          | nil => simp [globMatch] at h
          | cons e s =>
              have ih := globMatch_count h₁ h₂ p (by simpa [globMatch] using h)
              rw [List.count_cons_of_ne (Ne.symm h₂), List.count_cons]
              omega
        · cases s with
          | nil => simp [globMatch] at h
          | cons e s =>
              simp only [globMatch, Bool.and_eq_true, beq_iff_eq] at h
              obtain ⟨rfl, hm⟩ := h
              have ih := globMatch_count h₁ h₂ p hm
              simp only [List.count_cons]
              omega

/-! ## パターンの分解 -/

theorem globMatch_literal {lit : List Char} (h : ∀ c ∈ lit, c ≠ '*' ∧ c ≠ '?') (p s : List Char) :
    globMatch (lit ++ p) s = true ↔ ∃ t, s = lit ++ t ∧ globMatch p t = true := by
  induction lit generalizing s with
  | nil => simp
  | cons c lit ih =>
      simp only [List.forall_mem_cons] at h
      obtain ⟨⟨hs, hq⟩, hlit⟩ := h
      cases s with
      | nil => simp [globMatch]
      | cons d s =>
          simp only [List.cons_append, globMatch, Bool.and_eq_true, beq_iff_eq, ih hlit, List.cons_eq_cons]
          constructor
          · rintro ⟨rfl, t, rfl, ht⟩
            exact ⟨t, ⟨rfl, rfl⟩, ht⟩
          · rintro ⟨t, ⟨rfl, rfl⟩, ht⟩
            exact ⟨rfl, t, rfl, ht⟩

theorem globMatch_star (p s : List Char) :
    globMatch ('*' :: p) s = true ↔ ∃ t, t <:+ s ∧ globMatch p t = true := by
  simp [globMatch, List.mem_tails]

theorem globMatch_star_nil (s : List Char) : globMatch ['*'] s = true := by
  rw [globMatch_star]
  exact ⟨[], List.nil_suffix, rfl⟩

/-- `*w*` は、`w` を含む列に照合する。 -/
theorem globMatch_contains {w : List Char} (h : ∀ c ∈ w, c ≠ '*' ∧ c ≠ '?') (s : List Char) :
    globMatch ('*' :: (w ++ ['*'])) s = true ↔ w <:+: s := by
  rw [globMatch_star]
  simp only [globMatch_literal h, globMatch_star_nil, and_true]
  constructor
  · rintro ⟨_, ⟨a, rfl⟩, b, rfl⟩
    exact ⟨a, b, by simp⟩
  · rintro ⟨a, b, rfl⟩
    exact ⟨w ++ b, ⟨a, by simp⟩, b, rfl⟩

end RtcEgress.Lib
