import Mathlib.Data.List.Basic

/-!
# エミュレーション防止バイト

`00 00 03` の `03` を除くと、単位の中身が得られる。中身の先頭が元の列から一つずれているのは、同じ値が続く列か、零の後に
`03 00 03 00 …` が続く列のときである。
-/

namespace RtcEgress.Lib.Emulation

/-- エミュレーション防止バイトを除いた列。 -/
def rbsp : List UInt8 → List UInt8
  | 0 :: 0 :: 3 :: l => 0 :: 0 :: rbsp l
  | b :: l => b :: rbsp l
  | [] => []

/-- `a` と `b` を交互に並べた、長さ `n` の列。 -/
def alternating (a b : UInt8) : (n : Nat) → List UInt8
  | 0 => []
  | n + 1 => a :: alternating b a n

theorem take_alternating (a b : UInt8) {n k : Nat} (h : n ≤ k) : (alternating a b k).take n = alternating a b n := by
  induction n generalizing a b k with
  | zero => rfl
  | succ n ih =>
      cases k with
      | zero => omega
      | succ k => rw [alternating, List.take_succ_cons, ih b a (by omega), alternating]

theorem rbsp_escape (l : List UInt8) : rbsp (0 :: 0 :: 3 :: l) = 0 :: 0 :: rbsp l := by rw [rbsp]

theorem rbsp_cons {b : UInt8} {l : List UInt8} (h : ¬[0, 0, 3] <+: b :: l) : rbsp (b :: l) = b :: rbsp l := by
  rw [rbsp]
  intro m hb hl
  subst hb hl
  exact h ⟨m, rfl⟩

/-- 初めの二バイトは変わらない。 -/
theorem rbsp_two (b c : UInt8) (l : List UInt8) : ∃ t, rbsp (b :: c :: l) = b :: c :: t := by
  by_cases hescape : [0, 0, 3] <+: b :: c :: l
  · obtain ⟨m, hm⟩ := hescape
    cases hm
    exact ⟨rbsp m, rbsp_escape m⟩
  · rw [rbsp_cons hescape]
    by_cases hnext : [0, 0, 3] <+: c :: l
    · obtain ⟨m, hm⟩ := hnext
      cases hm
      exact ⟨_, congrArg (b :: ·) (rbsp_escape m)⟩
    · exact ⟨_, congrArg (b :: ·) (rbsp_cons hnext)⟩

theorem rbsp_one (b : UInt8) (l : List UInt8) : ∃ t, rbsp (b :: l) = b :: t := by
  cases l with
  | nil => exact ⟨_, rbsp_cons (by simp)⟩
  | cons c l =>
      obtain ⟨t, ht⟩ := rbsp_two b c l
      exact ⟨c :: t, ht⟩

/-- 一つ除いた後のずれは、`00 03` の繰り返しのときだけ続く。 -/
theorem rbsp_alternating :
    (n : Nat) → {l : List UInt8} → n ≤ l.length → ((rbsp l).take n = (0 :: 3 :: l).take n ↔ l.take n = alternating 0 3 n)
  | 0, _, _ => by simp [alternating]
  | 1, [], h => by simp at h
  | 1, b :: l, _ => by
      obtain ⟨t, ht⟩ := rbsp_one b l
      simp [ht, alternating]
  | n + 2, [], h => by simp at h
  | n + 2, [b], h => by simp at h
  | n + 2, b :: c :: l, h => by
      have hn : n ≤ l.length := by simpa using h
      have ih := rbsp_alternating n hn
      obtain ⟨t, ht⟩ := rbsp_two b c l
      rw [ht, alternating, alternating]
      simp only [List.take_succ_cons, List.cons.injEq]
      constructor
      · intro ⟨hb, hc, htail⟩
        subst hb hc
        rw [rbsp_cons (by simp), rbsp_cons (by simp)] at ht
        injection ht with _ ht
        injection ht with _ ht
        exact ⟨rfl, rfl, ih.mp (ht ▸ htail)⟩
      · intro ⟨hb, hc, htail⟩
        subst hb hc
        rw [rbsp_cons (by simp), rbsp_cons (by simp)] at ht
        injection ht with _ ht
        injection ht with _ ht
        exact ⟨rfl, rfl, ht ▸ ih.mpr htail⟩

/-- 零が `j` 個続いた後に、`03 00` を繰り返す。 -/
def Escapes (k n : Nat) (l : List UInt8) : Prop :=
  ∃ j, 2 ≤ j ∧ l.take (n + 1) = (List.replicate j 0 ++ alternating 3 0 k).take (n + 1)

theorem escapes_escape {k n : Nat} {l : List UInt8} (hk : n < k) :
    Escapes k (n + 2) (0 :: 0 :: 3 :: l) ↔ l.take n = alternating 0 3 n := by
  have halternating : (alternating 3 0 k).take (n + 1) = 3 :: alternating 0 3 n := take_alternating 3 0 hk
  constructor
  · intro ⟨j, hj, hl⟩
    match j with
    | 0 => omega
    | 1 => omega
    | 2 =>
        simp only [List.replicate, List.cons_append, List.nil_append, List.take_succ_cons, halternating, List.cons.injEq,
          true_and] at hl
        exact hl
    | j + 3 => simp [List.replicate_succ] at hl
  · intro hl
    refine ⟨2, Nat.le_refl _, ?_⟩
    simp only [List.replicate, List.cons_append, List.nil_append, List.take_succ_cons, halternating, hl]

theorem escapes_cons {k n : Nat} {b : UInt8} {l : List UInt8} (h : Escapes k n l) (hb : b = 0) : Escapes k (n + 1) (b :: l) := by
  obtain ⟨j, hj, hl⟩ := h
  refine ⟨j + 1, by omega, ?_⟩
  rw [List.take_succ_cons, hl, hb, List.replicate_succ, List.cons_append, List.take_succ_cons]

theorem escapes_tail {k n : Nat} {b : UInt8} {l : List UInt8} (h : Escapes k (n + 1) (b :: l)) (hk : 0 < k)
    (hescape : ¬[0, 0, 3] <+: b :: l) : b = 0 ∧ (n = 0 ∨ Escapes k n l) := by
  obtain ⟨j, hj, hl⟩ := h
  match j with
  | 0 => omega
  | 1 => omega
  | 2 =>
      simp only [List.replicate, List.cons_append, List.nil_append, List.take_succ_cons, List.cons.injEq] at hl
      obtain ⟨hb, hl⟩ := hl
      match n, k, l with
      | 0, _, _ => exact ⟨hb, .inl rfl⟩
      | _, 0, _ => omega
      | n + 1, _, [] => simp at hl
      | n + 1, k + 1, [c] => simp [alternating] at hl
      | n + 1, k + 1, c :: d :: l =>
          simp only [alternating, List.take_succ_cons, List.cons.injEq] at hl
          exact absurd ⟨l, by rw [hb, hl.1, hl.2.1]; rfl⟩ hescape
  | j + 3 =>
      rw [List.replicate_succ, List.cons_append, List.take_succ_cons, List.take_succ_cons, List.cons.injEq] at hl
      exact ⟨hl.1, .inr ⟨j + 2, by omega, hl.2⟩⟩

theorem rbsp_lag_escape {k : Nat} (n : Nat) {c : UInt8} {l : List UInt8} (h : n < l.length + 2) (hk : n < k) :
    (rbsp (0 :: 0 :: 3 :: l)).take (n + 1) = (c :: 0 :: 0 :: 3 :: l).take (n + 1) ↔
      (0 :: 0 :: 3 :: l).take (n + 1) = List.replicate (n + 1) c ∨ c = 0 ∧ Escapes k (n + 1) (0 :: 0 :: 3 :: l) := by
  rw [rbsp_escape]
  match n with
  | 0 =>
      simp only [List.take_succ_cons, List.take_zero, List.replicate, List.cons.injEq, and_true]
      exact ⟨.inl, fun h => h.elim id fun hzero => hzero.1.symm⟩
  | 1 =>
      simp only [List.take_succ_cons, List.take_zero, List.replicate, List.cons.injEq, and_true]
      exact ⟨fun hc => .inl ⟨hc, hc⟩, fun h => h.elim And.left fun hzero => hzero.1.symm⟩
  | n + 2 =>
      have hrest : (rbsp l).take (n + 1) = (0 :: 3 :: l).take (n + 1) ↔ l.take (n + 1) = alternating 0 3 (n + 1) :=
        rbsp_alternating (n + 1) (by omega)
      have hescapes : Escapes k (n + 1 + 2) (0 :: 0 :: 3 :: l) ↔ l.take (n + 1) = alternating 0 3 (n + 1) :=
        escapes_escape (by omega)
      rw [hescapes, ← hrest]
      simp only [List.take_succ_cons, List.replicate, List.cons.injEq]
      constructor
      · intro ⟨hc, _, htail⟩
        exact .inr ⟨hc.symm, htail⟩
      · intro hlag
        cases hlag with
        | inl hsame =>
            have hthree : (3 : UInt8) = 0 := hsame.2.2.1.trans hsame.1.symm
            exact absurd hthree (by decide)
        | inr hzero => exact ⟨hzero.1.symm, trivial, hzero.2⟩

/-- 中身が、`c` を前に置いた元の列と一致する。 -/
theorem rbsp_lag {k : Nat} (n : Nat) {c : UInt8} {l : List UInt8} (h : n < l.length) (hk : n < k) :
    (rbsp l).take n = (c :: l).take n ↔ l.take n = List.replicate n c ∨ c = 0 ∧ Escapes k n l := by
  induction n generalizing c l with
  | zero => simp
  | succ n ih =>
      cases l with
      | nil => simp at h
      | cons b l =>
          by_cases hescape : [0, 0, 3] <+: b :: l
          · obtain ⟨m, hm⟩ := hescape
            cases hm
            have hn : n < m.length + 2 := Nat.lt_of_succ_lt_succ h
            exact rbsp_lag_escape n hn (by omega)
          · have hn : n < l.length := by simpa using h
            rw [rbsp_cons hescape, List.take_succ_cons, List.take_succ_cons, List.take_succ_cons, List.replicate_succ]
            simp only [List.cons.injEq]
            rw [ih hn (by omega)]
            constructor
            · intro ⟨hb, hlag⟩
              subst hb
              cases hlag with
              | inl hsame => exact .inl ⟨rfl, hsame⟩
              | inr hzero => exact .inr ⟨hzero.1, escapes_cons hzero.2 hzero.1⟩
            · intro hlag
              cases hlag with
              | inl hsame => exact ⟨hsame.1, .inl (hsame.1 ▸ hsame.2)⟩
              | inr hzero =>
                  obtain ⟨hc, hescapes⟩ := hzero
                  obtain ⟨hb, htail⟩ := escapes_tail hescapes (by omega) hescape
                  refine ⟨hb.trans hc.symm, ?_⟩
                  cases htail with
                  | inl hnil => exact .inl (by rw [hnil]; rfl)
                  | inr htail => exact .inr ⟨hb, htail⟩

end RtcEgress.Lib.Emulation
