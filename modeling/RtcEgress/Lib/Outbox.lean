import Mathlib.Data.Multiset.AddSub

/-!
# 送信箱

宛先に送る項目は、作られてから、まとめて送られ、受け取られたものには印が付く。印は、受け取られた後に別の操作で付く。
同じ鍵の項目が二度受け取られないための、操作ごとの条件を定める。
-/

namespace RtcEgress.Lib

structure Outbox (α K : Type) where
  /-- 作られて、まだ応答のない項目。 -/
  pending : Multiset α
  /-- 受け取られて、まだ印の付いていない項目。 -/
  unmarked : Multiset α
  requests : List (List α × Bool)
  marked : K → Prop

namespace Outbox

variable {α K : Type}

inductive Event (α K : Type) where
  | put (a : α)
  | answer (batch : List α) (ok : Bool)
  | mark (a : α)
  /-- 印を付けずに済ませる。 -/
  | skip (a : α)
  | expire (marked : K → Prop)
  | crash

inductive Moves (key : α → K) : Outbox α K → Event α K → Outbox α K → Prop
  | put (o : Outbox α K) (a : α) : Moves key o (.put a) { o with pending := a ::ₘ o.pending }
  | answer {o : Outbox α K} {batch : List α} {rest : Multiset α} (ok : Bool) (h : o.pending = ↑batch + rest) :
      Moves key o (.answer batch ok)
        { o with
          pending := rest, unmarked := if ok then ↑batch + o.unmarked else o.unmarked,
          requests := (batch, ok) :: o.requests }
  | mark {o : Outbox α K} {a : α} {rest : Multiset α} {m : K → Prop} (h : o.unmarked = a ::ₘ rest)
      (hmono : ∀ k, o.marked k → m k) (ha : m (key a)) : Moves key o (.mark a) { o with unmarked := rest, marked := m }
  | skip {o : Outbox α K} {a : α} {rest : Multiset α} (h : o.unmarked = a ::ₘ rest) :
      Moves key o (.skip a) { o with unmarked := rest }
  | expire (o : Outbox α K) (m : K → Prop) : Moves key o (.expire m) { o with marked := m }
  | crash (o : Outbox α K) : Moves key o .crash { o with pending := 0, unmarked := 0 }

/-! ## 一部分の操作 -/

/-- 他の項目を加える。 -/
def frame (o : Outbox α K) (p u : Multiset α) : Outbox α K := { o with pending := o.pending + p, unmarked := o.unmarked + u }

/-- 一部分についての操作は、他の項目を変えない。 -/
theorem Moves.frame {key : α → K} {o o' : Outbox α K} {e : Event α K} (hm : Moves key o e o') (he : e ≠ .crash)
    (p u : Multiset α) : Moves key (o.frame p u) e (o'.frame p u) := by
  cases hm with
  | put a =>
      have hput : Moves key (o.frame p u) (.put a) _ := .put _ a
      rwa [Outbox.frame, ← Multiset.cons_add] at hput
  | @answer batch rest ok h =>
      have hp : (o.frame p u).pending = ↑batch + (rest + p) := by
        rw [← Multiset.add_assoc, ← h]
        rfl
      have hanswer : Moves key (o.frame p u) (.answer batch ok) _ := .answer ok hp
      cases ok with
      | false => exact hanswer
      | true =>
          have hu : ↑batch + (o.frame p u).unmarked = ↑batch + o.unmarked + u := (Multiset.add_assoc _ _ _).symm
          simp only [if_true, hu] at hanswer
          exact hanswer
  | @mark a rest _ h hmono ha =>
      have hu : (o.frame p u).unmarked = a ::ₘ (rest + u) := by
        rw [← Multiset.cons_add, ← h]
        rfl
      exact .mark hu hmono ha
  | @skip a rest h =>
      have hu : (o.frame p u).unmarked = a ::ₘ (rest + u) := by
        rw [← Multiset.cons_add, ← h]
        rfl
      exact .skip hu
  | expire m => exact .expire _ m
  | crash => exact absurd rfl he

section Only

/-! ## 送られる項目 -/

variable {key : α → K} {o o' : Outbox α K} {e : Event α K}

/-- まだ応答のない項目も、送られた項目も `P` を満たす。 -/
structure Only (P : α → Prop) (o : Outbox α K) : Prop where
  pending : ∀ a ∈ o.pending, P a
  requests : ∀ r ∈ o.requests, ∀ a ∈ r.1, P a

/-- 作る項目が `P` を満たす限り、送られる項目も `P` を満たす。 -/
theorem Only.move {P : α → Prop} (h : Only P o) (hm : Moves key o e o') (hput : ∀ a, e = .put a → P a) : Only P o' := by
  cases hm with
  | put a =>
      refine ⟨fun b hb => ?_, h.requests⟩
      cases Multiset.mem_cons.mp hb with
      | inl heq => exact heq ▸ hput a rfl
      | inr hrest => exact h.pending b hrest
  | answer ok hp =>
      have hall := h.pending
      rw [hp] at hall
      refine ⟨fun b hb => hall b (Multiset.mem_add.mpr (.inr hb)), fun r hr => ?_⟩
      cases List.mem_cons.mp hr with
      | inl heq =>
          cases heq
          exact fun a ha => hall a (Multiset.mem_add.mpr (.inl ha))
      | inr hrest => exact h.requests r hrest
  | mark | skip | expire => exact ⟨h.pending, h.requests⟩
  | crash => exact ⟨fun a ha => absurd ha (Multiset.notMem_zero a), h.requests⟩

end Only

/-! ## 一度だけ受け取られること -/

variable [DecidableEq K] (key : α → K) (k : K)

/-- 鍵 `k` の項目を含み、受け取られた送信の数。 -/
def answered (o : Outbox α K) : Nat := o.requests.countP fun r => r.2 && r.1.any (decide <| key · = k)

/-- 鍵 `k` の項目も印もない。 -/
structure Fresh (o : Outbox α K) : Prop where
  pending : ∀ a ∈ o.pending, key a ≠ k
  unmarked : ∀ a ∈ o.unmarked, key a ≠ k
  marked : ¬o.marked k

/-- `tracked` の鍵について、操作に課す条件。 -/
def Careful (tracked : K → Prop) : Event α K → Outbox α K → Prop
  | .put a, o => tracked (key a) → Fresh key (key a) o
  | .skip a, _ => ¬tracked (key a)
  | .expire m, o => ∀ k, tracked k → o.marked k → m k
  | .crash, o => ∀ a ∈ o.unmarked, ¬tracked (key a)
  | _, _ => True

/-- 受け取られた送信と、これから受け取られうる項目は、合わせて一つ以下である。 -/
structure Once (o : Outbox α K) : Prop where
  once : o.pending.countP (key · = k) + o.answered key k ≤ 1
  settled : 0 < o.answered key k → (∃ a ∈ o.unmarked, key a = k) ∨ o.marked k

variable {key k} {tracked : K → Prop} {o o' : Outbox α K} {e : Event α K}

theorem Fresh.countP_pending (h : Fresh key k o) : o.pending.countP (key · = k) = 0 :=
  Multiset.countP_eq_zero.mpr h.pending

theorem Once.answered_of_fresh (h : Once key k o) (hfresh : Fresh key k o) : o.answered key k = 0 := by
  by_contra hne
  cases h.settled (Nat.pos_of_ne_zero hne) with
  | inl hin =>
      obtain ⟨a, ha, hk⟩ := hin
      exact hfresh.unmarked a ha hk
  | inr hmarked => exact hfresh.marked hmarked

theorem answered_cons (batch : List α) (ok : Bool) (p u : Multiset α) (m : K → Prop) :
    answered key k ⟨p, u, (batch, ok) :: o.requests, m⟩ =
      o.answered key k + if ok && batch.any (decide <| key · = k) then 1 else 0 := List.countP_cons

theorem any_key {batch : List α} (h : batch.any (decide <| key · = k) = true) : ∃ a ∈ batch, key a = k := by
  obtain ⟨a, ha, hk⟩ := List.any_eq_true.mp h
  exact ⟨a, ha, of_decide_eq_true hk⟩

theorem one_le_countP {batch : List α} (h : batch.any (decide <| key · = k) = true) :
    1 ≤ (batch : Multiset α).countP (key · = k) := by
  obtain ⟨a, ha, hk⟩ := any_key h
  exact Multiset.countP_pos.mpr ⟨a, ha, hk⟩

theorem Once.put (h : Once key k o) {a : α} (hfresh : key a = k → Fresh key k o) :
    Once key k { o with pending := a ::ₘ o.pending } := by
  refine ⟨?_, h.settled⟩
  by_cases hk : key a = k
  · have hnone := h.answered_of_fresh (hfresh hk)
    have hpending := (hfresh hk).countP_pending
    have hcons := Multiset.countP_cons_of_pos (p := (key · = k)) o.pending hk
    change (a ::ₘ o.pending).countP (key · = k) + o.answered key k ≤ 1
    omega
  · have hcons := Multiset.countP_cons_of_neg (p := (key · = k)) o.pending hk
    have honce := h.once
    change (a ::ₘ o.pending).countP (key · = k) + o.answered key k ≤ 1
    omega

theorem Once.answer (h : Once key k o) {batch : List α} {rest : Multiset α} (ok : Bool) (hp : o.pending = ↑batch + rest) :
    Once key k
      { o with
        pending := rest, unmarked := if ok then ↑batch + o.unmarked else o.unmarked,
        requests := (batch, ok) :: o.requests } := by
  have honce := h.once
  rw [hp, Multiset.countP_add] at honce
  constructor
  · rw [answered_cons]
    by_cases hany : (ok && batch.any (decide <| key · = k)) = true
    · have hone := one_le_countP (Bool.and_eq_true_iff.mp hany).2
      rw [if_pos hany]
      dsimp only
      omega
    · rw [if_neg hany]
      dsimp only
      omega
  · intro hpos
    rw [answered_cons] at hpos
    by_cases hany : (ok && batch.any (decide <| key · = k)) = true
    · obtain ⟨hok, hin⟩ := Bool.and_eq_true_iff.mp hany
      obtain ⟨a, ha, hk⟩ := any_key hin
      refine .inl ⟨a, ?_, hk⟩
      dsimp only
      rw [if_pos hok]
      exact Multiset.mem_add.mpr (.inl ha)
    · rw [if_neg hany] at hpos
      cases h.settled hpos with
      | inl hin =>
          obtain ⟨a, ha, hk⟩ := hin
          refine .inl ⟨a, ?_, hk⟩
          dsimp only
          split
          · exact Multiset.mem_add.mpr (.inr ha)
          · exact ha
      | inr hmarked => exact .inr hmarked

theorem Once.mark (h : Once key k o) {a : α} {rest : Multiset α} {m : K → Prop} (hu : o.unmarked = a ::ₘ rest)
    (hmono : ∀ k, o.marked k → m k) (ha : m (key a)) : Once key k { o with unmarked := rest, marked := m } := by
  refine ⟨h.once, fun hpos => ?_⟩
  cases h.settled hpos with
  | inl hin =>
      obtain ⟨b, hb, hk⟩ := hin
      rw [hu, Multiset.mem_cons] at hb
      cases hb with
      | inl heq =>
          rw [← hk, heq]
          exact .inr ha
      | inr hrest => exact .inl ⟨b, hrest, hk⟩
  | inr hmarked => exact .inr (hmono k hmarked)

theorem Once.skip (h : Once key k o) {a : α} {rest : Multiset α} (hu : o.unmarked = a ::ₘ rest) (ha : key a ≠ k) :
    Once key k { o with unmarked := rest } := by
  refine ⟨h.once, fun hpos => ?_⟩
  cases h.settled hpos with
  | inl hin =>
      obtain ⟨b, hb, hk⟩ := hin
      rw [hu, Multiset.mem_cons] at hb
      cases hb with
      | inl heq => exact absurd hk (heq ▸ ha)
      | inr hrest => exact .inl ⟨b, hrest, hk⟩
  | inr hmarked => exact .inr hmarked

/-- 条件を満たす一つの操作の後も、一つ以下である。 -/
theorem Once.move (h : Once key k o) (hm : Moves key o e o') (hc : Careful key tracked e o) (hk : tracked k) :
    Once key k o' := by
  cases hm with
  | put a => exact h.put fun heq => heq ▸ hc (heq ▸ hk)
  | answer ok hp => exact h.answer ok hp
  | mark hu hmono ha => exact h.mark hu hmono ha
  | skip hu => exact h.skip hu fun heq => hc (heq ▸ hk)
  | expire m => exact ⟨h.once, fun hpos => (h.settled hpos).imp_right (hc k hk)⟩
  | crash =>
      have honce := h.once
      refine ⟨?_, fun hpos => .inr ?_⟩
      · rw [Multiset.countP_zero, Nat.zero_add]
        exact Nat.le_trans (Nat.le_add_left _ _) honce
      · cases h.settled hpos with
        | inl hin =>
            obtain ⟨a, ha, heq⟩ := hin
            exact absurd (heq ▸ hk) (hc a ha)
        | inr hmarked => exact hmarked

end Outbox

end RtcEgress.Lib
