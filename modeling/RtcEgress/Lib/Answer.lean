import Mathlib.Logic.Basic

/-!
# 一つの依頼に一度だけ答えること

依頼を読んだ者が、それを表の一つの場所に載せる。答える者は、それを引き受け、表から除いて答える。引き受けるのは、表にあって
誰も引き受けていないときに限る。このとき、答えは多くとも一つであり、読んだ依頼は、表にあるか、誰かが引き受けているか、
答えを得ている。
-/

namespace RtcEgress.Lib

/-- 一つの依頼についての役割。`Place` は表の場所である。 -/
inductive Role (Place : Type) where
  | idle
  /-- 読んで、まだ載せていない。 -/
  | starting
  /-- 載せた。 -/
  | registered (place : Place)
  /-- 載せた後で、答えずに除こうとしている。 -/
  | abandoned (place : Place)
  /-- 答えることになり、まだ探していない。 -/
  | due
  /-- 答えることになり、場所を見つけた。 -/
  | found (place : Place)
  /-- 答えることになり、表から除いた。 -/
  | released

/-- 引き受けている。 -/
def Role.holds {Place : Type} : Role Place → Bool
  | .starting | .due | .found _ | .released => true
  | .idle | .registered _ | .abandoned _ => false

@[simp] theorem Role.holds_idle {Place : Type} : (Role.idle : Role Place).holds = false := rfl

@[simp] theorem Role.holds_starting {Place : Type} : (Role.starting : Role Place).holds = true := rfl

/-- 一つの依頼の様子。答える者は番号で表す。 -/
structure Desk (Place : Type) where
  role : Nat → Role Place
  listed : Place → Prop
  answers : Nat
  requests : Nat

/-- 依頼の段階。`taken` と `removed` の番号は、引き受けた者である。 -/
inductive Stage (Place : Type) where
  | unread
  | starting (i : Nat)
  | listed (place : Place)
  | taken (i : Nat) (place : Place)
  | removed (i : Nat)
  | answered

namespace Stage

variable {Place : Type}

def place : Stage Place → Option Place
  | .listed p | .taken _ p => some p
  | _ => none

def holder : Stage Place → Option Nat
  | .starting i | .taken i _ | .removed i => some i
  | _ => none

def answers : Stage Place → Nat
  | .answered => 1
  | _ => 0

def requests : Stage Place → Nat
  | .unread => 0
  | _ => 1

/-- この段階で `j` が持ちうる役割。 -/
def Allows (j : Nat) (r : Role Place) : Stage Place → Prop
  | .unread => r = .idle
  | .starting i => r = if j = i then .starting else .idle
  | .listed p => r = .idle ∨ r = .registered p
  | .taken i p => if j = i then r = .due ∨ r = .found p else r = .idle ∨ r = .registered p ∨ r = .abandoned p
  | .removed i => if j = i then r = .due ∨ (∃ p, r = .found p) ∨ r = .released else r.holds = false
  | .answered => r.holds = false

theorem Allows.holds_iff {j : Nat} {r : Role Place} : {st : Stage Place} → st.Allows j r →
    (r.holds = true ↔ st.holder = some j)
  | .unread, h => by
      cases h
      simp [Role.holds, holder]
  | .starting i, h => by
      cases h
      by_cases hj : j = i
      · simp [hj, Role.holds, holder]
      · simp [hj, Ne.symm hj, Role.holds, holder]
  | .listed p, h => by rcases h with rfl | rfl <;> simp [Role.holds, holder]
  | .taken i p, h => by
      by_cases hj : j = i
      · simp only [Allows, hj, if_true] at h
        rcases h with rfl | rfl <;> simp [hj, Role.holds, holder]
      · simp only [Allows, hj, if_false] at h
        rcases h with rfl | rfl | rfl <;> simp [Ne.symm hj, Role.holds, holder]
  | .removed i, h => by
      by_cases hj : j = i
      · simp only [Allows, hj, if_true] at h
        rcases h with rfl | ⟨p, rfl⟩ | rfl <;> simp [hj, Role.holds, holder]
      · simp only [Allows, hj, if_false] at h
        simp [h, Ne.symm hj, holder]
  | .answered, h => by
      have h' : r.holds = false := h
      simp [h', holder]

end Stage

namespace Desk

variable {Place : Type} {d d' : Desk Place} {i : Nat} {p : Place}

def Held (d : Desk Place) : Prop := ∃ i, (d.role i).holds = true

/-- 依頼が段階 `st` にある。 -/
structure At (st : Stage Place) (d : Desk Place) : Prop where
  role : ∀ j, st.Allows j (d.role j)
  listed : ∀ p, d.listed p ↔ st.place = some p
  answers : d.answers = st.answers
  requests : d.requests = st.requests

/-- 依頼が、どれかの段階にある。 -/
def Sound (d : Desk Place) : Prop := ∃ st : Stage Place, At st d

/-- `i` の役割が `r` に変わり、答えも依頼も増えない。 -/
structure Turns (d d' : Desk Place) (i : Nat) (r : Role Place) : Prop where
  role : ∀ j, d'.role j = if j = i then r else d.role j
  answers : d'.answers = d.answers
  requests : d'.requests = d.requests

theorem At.held_iff {st : Stage Place} (h : At st d) : d.Held ↔ st.holder.isSome := by
  simp only [Held, (h.role _).holds_iff, Option.isSome_iff_exists]

/-- 読んだ依頼が表になく、誰も引き受けていなければ、答えは一つである。 -/
theorem Sound.answers (h : d.Sound) : d.answers ≤ 1 ∧
    (d.requests ≠ 0 → (∀ p, ¬d.listed p) → ¬d.Held → d.answers = 1) := by
  obtain ⟨st, h⟩ := h
  rw [h.held_iff, h.answers, h.requests]
  simp only [h.listed]
  cases st <;> simp [Stage.answers, Stage.requests, Stage.place, Stage.holder]

/-! ## 一つの動き -/

/-- 段階が変わらなければ、`i` の役割だけを調べればよい。 -/
theorem At.turn {st st' : Stage Place} {r : Role Place} (h : At st d) (ht : d.Turns d' i r)
    (hself : st'.Allows i r) (hother : ∀ j r', j ≠ i → st.Allows j r' → st'.Allows j r')
    (hlisted : ∀ q, d'.listed q ↔ st'.place = some q) (hanswers : st'.answers = st.answers)
    (hrequests : st'.requests = st.requests) : At st' d' := by
  refine ⟨fun j => ?_, hlisted, ?_, ?_⟩
  · rw [ht.role]
    by_cases hj : j = i
    · rw [if_pos hj, hj]
      exact hself
    · rw [if_neg hj]
      exact hother j _ hj (h.role j)
  · rw [ht.answers, h.answers, hanswers]
  · rw [ht.requests, h.requests, hrequests]

/-- 引き受けていない者は、役割を離れてよい。 -/
theorem Sound.rest (h : d.Sound) (hi : (d.role i).holds = false) (ht : d.Turns d' i .idle)
    (hlisted : ∀ q, d'.listed q ↔ d.listed q) : d'.Sound := by
  obtain ⟨st, h⟩ := h
  have hst := h.role i
  refine ⟨st, h.turn ht ?_ (fun _ _ _ h => h) (fun q => (hlisted q).trans (h.listed q)) rfl rfl⟩
  cases st <;> grind [Stage.Allows, Role.holds]

/-- 最初の依頼を読む。 -/
theorem Sound.request (h : d.Sound) (hr : d.requests = 0) (hrole : ∀ j, d'.role j = if j = i then .starting else d.role j)
    (hlisted : ∀ q, d'.listed q ↔ d.listed q) (hanswers : d'.answers = d.answers) (hrequests : d'.requests = 1) :
    d'.Sound := by
  obtain ⟨st, h⟩ := h
  obtain rfl : st = .unread := by
    have := h.requests
    cases st <;> simp_all [Stage.requests]
  refine ⟨.starting i, fun j => ?_, fun q => (hlisted q).trans (h.listed q), hanswers.trans h.answers, hrequests⟩
  have hj : d.role j = .idle := h.role j
  rw [hrole, hj]
  rfl

/-- 読んだ者がいれば、依頼はその者が読んだ段階にある。 -/
theorem At.starting {st : Stage Place} (h : At st d) (hi : d.role i = .starting) : st = .starting i := by
  have hst := h.role i
  rw [hi] at hst
  cases st <;> grind [Stage.Allows, Role.holds]

/-- 読んだ依頼を載せる。 -/
theorem Sound.register (h : d.Sound) (hi : d.role i = .starting) (ht : d.Turns d' i (.registered p))
    (hlisted : ∀ q, d'.listed q ↔ d.listed q ∨ q = p) : d'.Sound := by
  obtain ⟨st, h⟩ := h
  obtain rfl := h.starting hi
  refine ⟨.listed p, h.turn ht (.inr rfl) (fun j r hj hr => ?_) (fun q => ?_) rfl rfl⟩
  · simp only [Stage.Allows, hj, if_false] at hr
    exact .inl hr
  · rw [hlisted, h.listed]
    simp [Stage.place, eq_comm]

/-- 誰も引き受けていない依頼が表にあれば、依頼は、載っている段階にある。 -/
theorem At.free {st : Stage Place} (h : At st d) (hp : d.listed p) (hfree : ¬d.Held) : st = .listed p := by
  have hplace := (h.listed p).mp hp
  have hholder := h.held_iff.not.mp hfree
  cases st <;> simp_all [Stage.place, Stage.holder]

/-- 依頼は、二つの場所には載らない。 -/
theorem Sound.listed_eq {q : Place} (h : d.Sound) (hp : d.listed p) (hq : d.listed q) : p = q := by
  obtain ⟨st, h⟩ := h
  have hplace := (h.listed p).mp hp
  rw [(h.listed q).mp hq] at hplace
  exact (Option.some.inj hplace).symm

/-- 誰も引き受けていない依頼は、載せた場所にある。 -/
theorem Sound.registered_eq {q : Place} (h : d.Sound) (hi : d.role i = .registered p) (hq : d.listed q) (hfree : ¬d.Held) :
    p = q := by
  obtain ⟨st, h⟩ := h
  have hst := h.role i
  rw [h.free hq hfree, hi] at hst
  rcases hst with hst | hst
  · cases hst
  · exact Role.registered.inj hst

/-- 表にあり、誰も引き受けていない依頼を引き受ける。 -/
theorem Sound.take {r : Role Place} (h : d.Sound) (hp : d.listed p) (hfree : ¬d.Held) (hr : r = .due ∨ r = .found p)
    (ht : d.Turns d' i r) (hlisted : ∀ q, d'.listed q ↔ d.listed q) : d'.Sound := by
  obtain ⟨st, h⟩ := h
  obtain rfl := h.free hp hfree
  refine ⟨.taken i p, h.turn ht ?_ (fun j r hj hr => ?_) (fun q => (hlisted q).trans (h.listed q)) rfl rfl⟩
  · simpa [Stage.Allows] using hr
  · simp only [Stage.Allows, hj, if_false]
    exact hr.imp_right .inl

/-- 表にあり、誰も引き受けていない依頼を、引き受けて除く。 -/
theorem Sound.takeOut (h : d.Sound) (hp : d.listed p) (hfree : ¬d.Held) (ht : d.Turns d' i .released)
    (hlisted : ∀ q, d'.listed q ↔ d.listed q ∧ q ≠ p) : d'.Sound := by
  obtain ⟨st, h⟩ := h
  obtain rfl := h.free hp hfree
  refine ⟨.removed i, h.turn ht ?_ (fun j r hj hr => ?_) (fun q => ?_) rfl rfl⟩
  · simp [Stage.Allows]
  · simp only [Stage.Allows, hj, if_false]
    rcases hr with rfl | rfl <;> rfl
  · rw [hlisted, h.listed]
    simp [Stage.place, eq_comm]

/-- 答えることになった者がいれば、依頼は、その者が引き受けている。 -/
theorem At.held {st : Stage Place} (h : At st d) (hi : (d.role i).holds = true) :
    st = .starting i ∨ (∃ p, st = .taken i p) ∨ st = .removed i := by
  have hst := (h.role i).holds_iff.mp hi
  cases st <;> simp_all [Stage.holder]

/-- 答えることになった者が、表を探して見つける。 -/
theorem Sound.find (h : d.Sound) (hi : d.role i = .due) (hp : d.listed p) (ht : d.Turns d' i (.found p))
    (hlisted : ∀ q, d'.listed q ↔ d.listed q) : d'.Sound := by
  obtain ⟨st, h⟩ := h
  have hplace := (h.listed p).mp hp
  refine ⟨st, h.turn ht ?_ (fun _ _ _ h => h) (fun q => (hlisted q).trans (h.listed q)) rfl rfl⟩
  obtain rfl | ⟨q, rfl⟩ | rfl := h.held (by rw [hi]; rfl)
  · cases hplace
  · cases hplace
    simp [Stage.Allows]
  · cases hplace

/-- 答えることになった者が、表を探して見つけない。 -/
theorem Sound.miss (h : d.Sound) (hi : d.role i = .due) (hnone : ∀ q, ¬d.listed q) (ht : d.Turns d' i .released)
    (hlisted : ∀ q, d'.listed q ↔ d.listed q) : d'.Sound := by
  obtain ⟨st, h⟩ := h
  refine ⟨st, h.turn ht ?_ (fun _ _ _ h => h) (fun q => (hlisted q).trans (h.listed q)) rfl rfl⟩
  have hst := h.role i
  rw [hi] at hst
  obtain rfl | ⟨q, rfl⟩ | rfl := h.held (by rw [hi]; rfl)
  · simp [Stage.Allows] at hst
  · exact absurd ((h.listed q).mpr rfl) (hnone q)
  · simp [Stage.Allows]

/-- 答えることになった者が、見つけた場所から除く。 -/
theorem Sound.release (h : d.Sound) (hi : d.role i = .found p) (ht : d.Turns d' i .released)
    (hlisted : ∀ q, d'.listed q ↔ d.listed q ∧ q ≠ p) : d'.Sound := by
  obtain ⟨st, h⟩ := h
  have hst := h.role i
  rw [hi] at hst
  refine ⟨.removed i, ?_⟩
  obtain rfl | ⟨q, rfl⟩ | rfl := h.held (by rw [hi]; rfl)
  · simp [Stage.Allows] at hst
  · obtain rfl : p = q := by simpa [Stage.Allows] using hst
    refine h.turn ht ?_ (fun j r hj hr => ?_) (fun q => ?_) rfl rfl
    · simp [Stage.Allows]
    · simp only [Stage.Allows, hj, if_false] at hr ⊢
      rcases hr with rfl | rfl | rfl <;> rfl
    · rw [hlisted, h.listed]
      simp [Stage.place, eq_comm]
  · refine h.turn ht ?_ (fun _ _ _ h => h) (fun q => ?_) rfl rfl
    · simp [Stage.Allows]
    · rw [hlisted, h.listed]
      simp [Stage.place]

/-- 載せた後で除こうとする者がいて、依頼がまだ表にあれば、ほかの者が引き受けている。 -/
theorem Sound.held_of_abandoned (h : d.Sound) (hi : d.role i = .abandoned p) {q : Place} (hq : d.listed q) : d.Held := by
  obtain ⟨st, h⟩ := h
  have hst := h.role i
  have hplace := (h.listed q).mp hq
  rw [h.held_iff]
  rw [hi] at hst
  cases st with
  | listed p' => simp [Stage.Allows] at hst
  | taken j p' => rfl
  | unread | starting _ | removed _ | answered => cases hplace

/-- 引き受けられた依頼は、表から消えてよい。 -/
theorem Sound.drop (h : d.Sound) (hp : d.listed p → d.Held) (hrole : ∀ j, d'.role j = d.role j)
    (hlisted : ∀ q, d'.listed q ↔ d.listed q ∧ q ≠ p) (hanswers : d'.answers = d.answers)
    (hrequests : d'.requests = d.requests) : d'.Sound := by
  obtain ⟨st, h⟩ := h
  by_cases hmem : d.listed p
  · obtain ⟨j, rfl⟩ : ∃ j, st = .taken j p := by
      have hplace := (h.listed p).mp hmem
      have hholder := h.held_iff.mp (hp hmem)
      cases st <;> simp_all [Stage.place, Stage.holder]
    refine ⟨.removed j, fun k => ?_, fun q => ?_, hanswers.trans h.answers, hrequests.trans h.requests⟩
    · have hk := h.role k
      rw [hrole]
      simp only [Stage.Allows] at hk ⊢
      split at hk
      · rename_i hkj
        rw [if_pos hkj]
        exact hk.imp_right fun hf => .inl ⟨p, hf⟩
      · rename_i hkj
        rw [if_neg hkj]
        rcases hk with hk | hk | hk <;> rw [hk] <;> rfl
    · rw [hlisted, h.listed]
      simp [Stage.place, eq_comm]
  · refine ⟨st, fun k => by rw [hrole]; exact h.role k, fun q => ?_, hanswers.trans h.answers, hrequests.trans h.requests⟩
    rw [hlisted, ← h.listed]
    exact ⟨And.left, fun hq => ⟨hq, fun heq => hmem (heq ▸ hq)⟩⟩

/-- 何も変わらない。 -/
theorem Sound.same (h : d.Sound) (hrole : ∀ j, d'.role j = d.role j) (hlisted : ∀ q, d'.listed q ↔ d.listed q)
    (hanswers : d'.answers = d.answers) (hrequests : d'.requests = d.requests) : d'.Sound := by
  obtain ⟨st, h⟩ := h
  exact ⟨st, fun j => by rw [hrole]; exact h.role j, fun q => (hlisted q).trans (h.listed q), hanswers.trans h.answers,
    hrequests.trans h.requests⟩

/-- 載せた者が、始められずに除こうとする。 -/
theorem Sound.abandon (h : d.Sound) (hi : d.role i = .registered p) (hfree : (∀ q, ¬d.listed q) ∨ d.Held)
    (ht : d.Turns d' i (.abandoned p)) (hlisted : ∀ q, d'.listed q ↔ d.listed q) : d'.Sound := by
  obtain ⟨st, h⟩ := h
  have hst := h.role i
  rw [hi] at hst
  refine ⟨st, h.turn ht ?_ (fun _ _ _ h => h) (fun q => (hlisted q).trans (h.listed q)) rfl rfl⟩
  rw [h.held_iff] at hfree
  simp only [h.listed] at hfree
  cases st with
  | starting j =>
      simp only [Stage.Allows] at hst
      split at hst <;> cases hst
  | taken j q =>
      simp only [Stage.Allows] at hst ⊢
      split <;> simp_all
  | unread | listed _ => simp_all [Stage.Allows, Stage.place, Stage.holder]
  | removed j =>
      simp only [Stage.Allows] at hst ⊢
      split <;> simp_all [Role.holds]
  | answered => rfl

/-- 引き受けた者が答える。 -/
theorem Sound.answer (h : d.Sound) (hi : d.role i = .starting ∨ d.role i = .released)
    (hrole : ∀ j, d'.role j = if j = i then .idle else d.role j) (hlisted : ∀ q, d'.listed q ↔ d.listed q)
    (hanswers : d'.answers = d.answers + 1) (hrequests : d'.requests = d.requests) : d'.Sound := by
  obtain ⟨st, h⟩ := h
  have hst : st = .starting i ∨ st = .removed i := by
    have hallow := h.role i
    rcases hi with hi | hi
    · exact .inl (h.starting hi)
    · rw [hi] at hallow
      cases st <;> grind [Stage.Allows, Role.holds]
  have hother (j : Nat) (hj : j ≠ i) : (d.role j).holds = false := by
    have hallow := h.role j
    rcases hst with rfl | rfl
    · simp only [Stage.Allows, hj, if_false] at hallow
      rw [hallow]
      rfl
    · simpa [Stage.Allows, hj] using hallow
  refine ⟨.answered, fun j => ?_, fun q => ?_, ?_, ?_⟩
  · rw [hrole]
    by_cases hj : j = i
    · rw [if_pos hj]
      rfl
    · rw [if_neg hj]
      exact hother j hj
  · rw [hlisted, h.listed]
    rcases hst with rfl | rfl <;> rfl
  · rw [hanswers, h.answers]
    rcases hst with rfl | rfl <;> rfl
  · rw [hrequests, h.requests]
    rcases hst with rfl | rfl <;> rfl

/-- 表にある依頼のすべてに答え、表を空にする。 -/
theorem Sound.answerAll (h : d.Sound) (hfree : ∀ q, d.listed q → ¬d.Held) (hrole : ∀ j, d'.role j = d.role j)
    (hlisted : ∀ q, ¬d'.listed q) (hone : ∀ q, d.listed q → d'.answers = d.answers + 1)
    (hnone : (∀ q, ¬d.listed q) → d'.answers = d.answers) (hrequests : d'.requests = d.requests) : d'.Sound := by
  by_cases hq : ∃ q, d.listed q
  · obtain ⟨q, hq⟩ := hq
    obtain ⟨st, h⟩ := h
    obtain rfl := h.free hq (hfree q hq)
    refine ⟨.answered, fun j => ?_, fun q' => ?_, ?_, hrequests.trans h.requests⟩
    · have hj := h.role j
      rw [hrole]
      rcases hj with hj | hj <;> rw [hj] <;> rfl
    · simp [hlisted, Stage.place]
    · rw [hone q hq, h.answers]
      rfl
  · have hq' : ∀ q, ¬d.listed q := fun q hmem => hq ⟨q, hmem⟩
    exact h.same hrole (fun q => by simp [hlisted, hq']) (hnone hq') hrequests

/-- まだ誰も読んでいない。 -/
theorem Sound.unread (hrole : ∀ j, d.role j = .idle) (hlisted : ∀ q, ¬d.listed q) (hanswers : d.answers = 0)
    (hrequests : d.requests = 0) : d.Sound :=
  ⟨.unread, hrole, fun q => by simp [hlisted, Stage.place], hanswers, hrequests⟩

end Desk

end RtcEgress.Lib
