import RtcEgress.Lib.Prog

/-!
# 状態を変えない命令の前置き

呼び出しの種類を取り替えた機械を考える。新しい呼び出しの本体が、状態を変えない命令を出した後に、元の呼び出しの本体になるか
終わるならば、新しい機械が到達する状態には、元の機械も到達する。
-/

namespace RtcEgress.Lib

variable {C : Type} {R : C → Type} {M : Machine C R} {K : Type} {body : K → Prog C R Unit}

theorem Prog.bind_assoc {α β γ : Type} {f : α → Prog C R β} {g : β → Prog C R γ} :
    (p : Prog C R α) → (p >>= f) >>= g = p >>= fun a => f a >>= g
  | .ret _ => rfl
  | .call c k => congrArg (Prog.call c) (funext fun r => bind_assoc (k r))

/-- 呼び出しだけを取り替えた機械。 -/
abbrev Machine.withCalls (M : Machine C R) (body : K → Prog C R Unit) : Machine C R where
  State := M.State
  Oracle := M.Oracle
  exec := M.exec
  Env := M.Env
  env := M.env
  Call := K
  body := body

/-- 状態を変えない命令。 -/
def Machine.Quiet (M : Machine C R) (c : C) : Prop :=
  ∀ o s r s', M.exec o c s = some (r, s') → s' = s

/-- 状態を変えない命令の後に、`allowed` の呼び出しの本体になるか、終わる。 -/
inductive Prelude (M : Machine C R) (allowed : M.Call → Prop) : Prog C R Unit → Prop where
  | stop : Prelude M allowed (.ret ())
  | enter {k} : allowed k → Prelude M allowed (M.body k)
  | quiet {c next} : M.Quiet c → (∀ r, Prelude M allowed (next r)) → Prelude M allowed (.call c next)

variable {allowed : M.Call → Prop}

/-- 元の機械のスレッドとの対応。`f` は、本体に入ったスレッドの番号を、元の機械での番号に移す。 -/
structure Covers (allowed : M.Call → Prop) (f : Nat → Option Nat) (s : M.State) (ts : List (Prog C R Unit))
    (q : Pool M) : Prop where
  state : q.state = s
  fresh : ∀ i, ts.length ≤ i → f i = none
  before : ∀ i t, ts[i]? = some t → f i = none → Prelude M allowed t
  entered : ∀ i t j, ts[i]? = some t → f i = some j → q.threads[j]? = some t
  injective : ∀ i i' j, f i = some j → f i' = some j → i = i'

namespace Covers

variable {f : Nat → Option Nat} {s s' : M.State} {ts : List (Prog C R Unit)} {q : Pool M}

theorem lt (h : Covers allowed f s ts q) {i j : Nat} (hi : f i = some j) : i < ts.length := by
  refine Nat.lt_of_not_le fun hle => ?_
  rw [h.fresh i hle] at hi
  cases hi

theorem lt_target (h : Covers allowed f s ts q) {i j : Nat} (hi : f i = some j) : j < q.threads.length := by
  have hget := h.entered i _ j (List.getElem?_eq_getElem (h.lt hi)) hi
  exact (List.getElem?_eq_some_iff.mp hget).1

/-- 呼び出しを始める。 -/
theorem spawn (h : Covers allowed f s ts q) {t : Prog C R Unit} (ht : Prelude M allowed t) :
    Covers allowed f s (ts ++ [t]) q where
  state := h.state
  fresh i hi := h.fresh i (Nat.le_trans (by simp) hi)
  before i t' hget hnone := by
    by_cases hlt : i < ts.length
    · rw [List.getElem?_append_left hlt] at hget
      exact h.before i t' hget hnone
    · rw [List.getElem?_append_right (Nat.le_of_not_lt hlt)] at hget
      obtain ⟨_, rfl⟩ := List.getElem?_eq_some_iff.mp hget
      rwa [List.getElem_singleton]
  entered i t' j hget hsome := by
    rw [List.getElem?_append_left (h.lt hsome)] at hget
    exact h.entered i t' j hget hsome
  injective := h.injective

/-- 前置きの命令を出す。 -/
theorem quiet (h : Covers allowed f s ts q) {i : Nat} (hnone : f i = none) {t : Prog C R Unit}
    (ht : Prelude M allowed t) : Covers allowed f s (ts.set i t) q where
  state := h.state
  fresh j hj := h.fresh j (by simpa using hj)
  before j t' hget hj := by
    by_cases hij : i = j
    · subst hij
      obtain ⟨hlt, rfl⟩ := List.getElem?_eq_some_iff.mp hget
      rwa [List.getElem_set_self]
    · rw [List.getElem?_set_ne hij] at hget
      exact h.before j t' hget hj
  entered j t' j' hget hj := by
    have hij : i ≠ j := by
      rintro rfl
      cases hnone.symm.trans hj
    rw [List.getElem?_set_ne hij] at hget
    exact h.entered j t' j' hget hj
  injective := h.injective

/-- 本体に入る。 -/
theorem enter (h : Covers allowed f s ts q) {i : Nat} (hnone : f i = none) {t : Prog C R Unit}
    (hget : ts[i]? = some t) :
    Covers allowed (fun j => if j = i then some q.threads.length else f j) s ts
      ⟨q.state, q.threads ++ [t], q.trace⟩ where
  state := h.state
  fresh j hj := by
    have hne : j ≠ i := by
      rintro rfl
      have hlt := (List.getElem?_eq_some_iff.mp hget).1
      exact absurd hlt (Nat.not_lt.mpr hj)
    rw [if_neg hne]
    exact h.fresh j hj
  before j t' hget' hj := by
    by_cases hji : j = i
    · rw [if_pos hji] at hj
      cases hj
    · rw [if_neg hji] at hj
      exact h.before j t' hget' hj
  entered j t' j' hget' hj := by
    by_cases hji : j = i
    · subst hji
      rw [if_pos rfl] at hj
      cases hj
      cases hget.symm.trans hget'
      simp
    · rw [if_neg hji] at hj
      rw [List.getElem?_append_left (h.lt_target hj)]
      exact h.entered j t' j' hget' hj
  injective j j' k hj hj' := by
    by_cases hji : j = i <;> by_cases hji' : j' = i
    · exact hji.trans hji'.symm
    · simp only [hji, hji', if_true, if_false, Option.some.injEq] at hj hj'
      exact absurd (h.lt_target hj') (by simp [hj])
    · simp only [hji, hji', if_true, if_false, Option.some.injEq] at hj hj'
      exact absurd (h.lt_target hj) (by simp [hj'])
    · rw [if_neg hji] at hj
      rw [if_neg hji'] at hj'
      exact h.injective j j' k hj hj'

/-- 本体に入ったスレッドが、両方の機械で同じ命令を出す。 -/
theorem advance (h : Covers allowed f s ts q) {i j : Nat} (hi : f i = some j) {t : Prog C R Unit} {tr : List (Event M)} :
    Covers allowed f s' (ts.set i t) ⟨s', q.threads.set j t, tr⟩ where
  state := rfl
  fresh k hk := h.fresh k (by simpa using hk)
  before k t' hget hk := by
    have hik : i ≠ k := by
      rintro rfl
      cases hi.symm.trans hk
    rw [List.getElem?_set_ne hik] at hget
    exact h.before k t' hget hk
  entered k t' j' hget hk := by
    by_cases hik : i = k
    · subst hik
      obtain ⟨hlt, rfl⟩ := List.getElem?_eq_some_iff.mp hget
      cases hi.symm.trans hk
      rw [List.getElem?_set_self (h.lt_target hi), List.getElem_set_self]
    · rw [List.getElem?_set_ne hik] at hget
      have hjj : j ≠ j' := by
        rintro rfl
        exact hik (h.injective i k j hi hk)
      rw [List.getElem?_set_ne hjj]
      exact h.entered k t' j' hget hk
  injective := h.injective

/-- 一つの遷移を、元の機械の遷移の列で追う。 -/
theorem step {call : K → Prop} (hbody : ∀ k, call k → Prelude M allowed (body k)) {p p' : Pool (M.withCalls body)}
    (h : Covers allowed f p.state p.threads q) (hs : Step (.ofCalls call) p p') :
    ∃ f' q', Run (.ofCalls allowed) q q' ∧ Covers allowed f' p'.state p'.threads q' := by
  cases hs with
  | spawn hk => exact ⟨f, q, .refl, h.spawn (hbody _ hk)⟩
  | env he =>
      obtain ⟨_, ts₀, tr₀⟩ := q
      obtain rfl := h.state
      exact ⟨f, ⟨_, ts₀, tr₀⟩, .single (.env he), ⟨rfl, h.fresh, h.before, h.entered, h.injective⟩⟩
  | @run s ts tr i c next o r s' hget _ he =>
      -- 本体に入った後の命令は、両方の機械で同じに実行する
      have hrun {f : Nat → Option Nat} {q : Pool M} (h : Covers allowed f s ts q) {j : Nat} (hi : f i = some j) :
          ∃ q', Step (.ofCalls allowed) q q' ∧ Covers allowed f s' (ts.set i (next r)) q' := by
        obtain ⟨_, ts₀, tr₀⟩ := q
        obtain rfl := h.state
        exact ⟨_, .run (h.entered i _ j hget hi) trivial he, h.advance hi⟩
      cases hi : f i with
      | some j =>
          obtain ⟨q', hstep, hcovers⟩ := hrun h hi
          exact ⟨f, q', .single hstep, hcovers⟩
      | none =>
          have hprelude := h.before i _ hget hi
          generalize ht : Prog.call c next = t at hprelude
          cases hprelude with
          | stop => cases ht
          | quiet hquiet hnext =>
              cases ht
              obtain rfl := hquiet o s r s' he
              exact ⟨f, q, .refl, h.quiet hi (hnext r)⟩
          | @enter k hk =>
              have hentered := h.enter hi (ht ▸ hget)
              obtain ⟨q', hstep, hcovers⟩ := hrun hentered (if_pos rfl)
              exact ⟨_, q', .head (.spawn hk) (.single hstep), hcovers⟩

end Covers

/-- 新しい機械が到達する状態には、元の機械も到達する。 -/
theorem Run.withoutPrelude {call : K → Prop} (hbody : ∀ k, call k → Prelude M allowed (body k)) {s : M.State}
    {p : Pool (M.withCalls body)} (h : Run (.ofCalls call) (Pool.start (M := M.withCalls body) s) p) :
    ∃ q : Pool M, Run (.ofCalls allowed) (Pool.start s) q ∧ q.state = p.state := by
  have hcovers : ∃ f q, Run (.ofCalls allowed) (Pool.start s) q ∧ Covers allowed f p.state p.threads q := by
    induction h with
    | refl => exact ⟨fun _ => none, Pool.start s, .refl, ⟨rfl, by simp, by simp [Pool.start], by simp, by simp⟩⟩
    | tail _ hs ih =>
        obtain ⟨f, q, hrun, hcovers⟩ := ih
        obtain ⟨f', q', hrun', hcovers'⟩ := hcovers.step hbody hs
        exact ⟨f', q', hrun.trans hrun', hcovers'⟩
  obtain ⟨_, q, hrun, hcovers⟩ := hcovers
  exact ⟨q, hrun, hcovers.state⟩

end RtcEgress.Lib
