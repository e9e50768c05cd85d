import Mathlib.Logic.Basic
import RtcEgress.Lib.History

/-!
# 排他ロックの順序

スレッドの命令のうち、ロックを取るものと放すものを定め、所有者と待ちの関係を、実行した命令の列から求める。
取ろうとするロックが、すでに持っているどのロックよりも上の順位にあれば、待ちの関係は輪にならない。順位は、
全体で一つに決まっている必要はなく、状態ごとに選んでよい。
-/

namespace RtcEgress.Lib

variable {C : Type} {R : C → Type}

/-- ロックを取る命令と放す命令。 -/
structure Locking (C L : Type) where
  acquires : C → Option L
  releases : C → Option L

namespace Locking

variable {L : Type} [DecidableEq L] (K : Locking C L)

/-- 命令の後に持っているロック。 -/
def heldAfter (c : C) (ls : List L) : List L :=
  match K.acquires c with
  | some l => l :: ls
  | none =>
      match K.releases c with
      | some l => ls.erase l
      | none => ls

/-- 自分の命令の列が `h` であるスレッドの持つロック。 -/
def held : List (Act C R) → List L
  | [] => []
  | a :: h => K.heldAfter a.1 (held h)

variable {M : Machine C R}

/-- ロック `l` の所有者。 -/
def owner (l : L) : List (Event M) → Option Nat
  | [] => none
  | e :: tr =>
      if K.acquires e.cmd = some l then some e.tid
      else if K.releases e.cmd = some l then none
      else owner l tr

/-- スレッド `i` の次の命令は、ロック `l` を取る。 -/
def Requests (p : Pool M) (i : Nat) (l : L) : Prop :=
  ∃ c k, p.threads[i]? = some (.call c k) ∧ K.acquires c = some l

def Owns (p : Pool M) (i : Nat) (l : L) : Prop := K.owner l p.trace = some i

/-- スレッド `i` は、スレッド `j` の持つロックを待つ。 -/
def WaitsFor (p : Pool M) (i j : Nat) : Prop := ∃ l, K.Requests p i l ∧ K.Owns p j l

/-- 自分の持つロックを取ろうとするスレッドも、互いに待つスレッドの輪もない。 -/
structure Free (p : Pool M) : Prop where
  self : ∀ i l, K.Requests p i l → ¬K.Owns p i l
  cycle : ∀ i, ¬Relation.TransGen (K.WaitsFor p) i i

variable {K}

theorem mem_heldAfter {c : C} {ls : List L} {l : L} (h : l ∈ ls) (hc : K.releases c ≠ some l) :
    l ∈ K.heldAfter c ls := by
  unfold heldAfter
  split
  · exact List.mem_cons_of_mem _ h
  · split
    · rename_i l' hl'
      have hne : l ≠ l' := by
        rintro rfl
        exact hc hl'
      exact (List.mem_erase_of_ne hne).mpr h
    · exact h

/-- 所有者は、自分の命令の列から見ても、そのロックを持っている。 -/
theorem mem_held_of_owner {l : L} {i : Nat} {tr : List (Event M)} (h : K.owner l tr = some i) :
    l ∈ K.held (own i tr) := by
  induction tr with
  | nil => simp [owner] at h
  | cons e tr ih =>
      obtain ⟨j, c, r, s⟩ := e
      simp only [owner] at h
      split at h
      · rename_i hacq
        cases h
        simp [held, heldAfter, hacq]
      · split at h
        · cases h
        · rename_i hrel
          by_cases hij : i = j
          · subst hij
            rw [own_cons_self]
            exact mem_heldAfter (ih h) hrel
          · rw [own_cons_ne hij]
            exact ih h

/-- 持っているロックの所有者は自分であり、同じロックを二重に持つことはない。 -/
structure Exclusive (K : Locking C L) (tr : List (Event M)) : Prop where
  owner : ∀ i, ∀ l ∈ K.held (own i tr), K.owner l tr = some i
  nodup : ∀ i, (K.held (own i tr)).Nodup

theorem Exclusive.nil : Exclusive K ([] : List (Event M)) := ⟨by simp [held], by simp [held]⟩

/-- 空いているロックだけを取り、持っているロックだけを放せば、所有者は一人である。 -/
theorem Exclusive.cons {tr : List (Event M)} (h : Exclusive K tr) {i c r s}
    (hone : K.acquires c = none ∨ K.releases c = none)
    (hacq : ∀ l, K.acquires c = some l → K.owner l tr = none)
    (hrel : ∀ l, K.releases c = some l → l ∈ K.held (own i tr)) : Exclusive K (⟨i, c, r, s⟩ :: tr) := by
  -- 取られも放されもしないロックの所有者は変わらない。
  have hkept (l : L) (ha : K.acquires c ≠ some l) (hr : K.releases c ≠ some l) :
      K.owner l (⟨i, c, r, s⟩ :: tr) = K.owner l tr := by simp [Locking.owner, ha, hr]
  have hfree (l : L) (j : Nat) (hj : l ∈ K.held (own j tr)) : K.acquires c ≠ some l := by
    intro ha
    have howner := h.owner j l hj
    rw [hacq l ha] at howner
    cases howner
  constructor
  · intro j l hl
    rcases eq_or_ne j i with rfl | hj
    · rw [own_cons_self] at hl
      simp only [held, heldAfter] at hl
      split at hl
      · rename_i l' ha
        rcases List.mem_cons.mp hl with rfl | hl
        · simp [Locking.owner, ha]
        · rw [hkept l (hfree l j hl) (by simp [hone.resolve_left (by simp [ha])])]
          exact h.owner j l hl
      · rename_i ha
        split at hl
        · rename_i l' hr
          rw [(h.nodup j).mem_erase_iff] at hl
          rw [hkept l (by simp [ha]) (by simp [hr, Ne.symm hl.1])]
          exact h.owner j l hl.2
        · rename_i hr
          rw [hkept l (by simp [ha]) (by simp [hr])]
          exact h.owner j l hl
    · rw [own_cons_ne hj] at hl
      rw [hkept l (hfree l j hl)]
      · exact h.owner j l hl
      · intro hr
        have howner := h.owner i l (hrel l hr)
        rw [h.owner j l hl] at howner
        exact hj (Option.some.inj howner)
  · intro j
    rcases eq_or_ne j i with rfl | hj
    · rw [own_cons_self]
      simp only [held, heldAfter]
      split
      · rename_i l ha
        exact List.nodup_cons.mpr ⟨fun hl => hfree l j hl ha, h.nodup j⟩
      · split
        · exact (h.nodup j).erase _
        · exact h.nodup j
    · rw [own_cons_ne hj]
      exact h.nodup j

/-- 状態 `p` で、取ろうとするロックは、持っているロックより上の順位にある。 -/
def Ascending (K : Locking C L) (rank : L → Nat) (p : Pool M) : Prop :=
  ∀ i l, K.Requests p i l → ∀ l' ∈ K.held (own i p.trace), rank l' < rank l

theorem Ascending.of_owns {rank : L → Nat} {p : Pool M} (h : Ascending K rank p) {i : Nat} {l l' : L}
    (hr : K.Requests p i l) (ho : K.Owns p i l') : rank l' < rank l :=
  h i l hr l' (mem_held_of_owner ho)

/-- 待ちの列をたどると、順位は下がらない。 -/
theorem Ascending.le_of_waits {rank : L → Nat} {p : Pool M} (h : Ascending K rank p) {i j : Nat}
    (hw : Relation.TransGen (K.WaitsFor p) i j) :
    ∃ l l', K.Requests p i l ∧ K.Owns p j l' ∧ rank l ≤ rank l' := by
  induction hw with
  | single hw =>
      obtain ⟨l, hr, ho⟩ := hw
      exact ⟨l, l, hr, ho, Nat.le_refl _⟩
  | tail _ hw ih =>
      obtain ⟨l, l', hr, ho, hle⟩ := ih
      obtain ⟨l'', hr', ho'⟩ := hw
      exact ⟨l, l'', hr, ho', Nat.le_trans hle (Nat.le_of_lt (h.of_owns hr' ho))⟩

theorem Ascending.free {rank : L → Nat} {p : Pool M} (h : Ascending K rank p) : K.Free p where
  self := by
    intro i l hr ho
    exact Nat.lt_irrefl _ (h.of_owns hr ho)
  cycle := by
    intro i hw
    obtain ⟨l, l', hr, ho, hle⟩ := h.le_of_waits hw
    have hlt := h.of_owns hr ho
    omega

end Locking

end RtcEgress.Lib
