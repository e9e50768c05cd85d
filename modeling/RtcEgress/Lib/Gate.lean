import Mathlib.Logic.Function.Basic

/-!
# 一つの旗で守る区間

旗が下りていることを確かめて立てる一歩で入り、旗を下ろす一歩で出る区間を、スレッドの表の上に定める。区間にいるスレッドは
高々一つである。誰もいないときの共有の状態の条件と、区間にいるスレッドの段階ごとの条件とを、一つの不変条件にまとめる。
-/

namespace RtcEgress.Lib

/-- スレッドの番号 `I`、段階 `T`、共有の状態 `σ` の上の区間。 -/
structure Gate (I T σ : Type) where
  flag : σ → Bool
  inside : T → Bool
  /-- 誰もいないときに成り立つ。 -/
  Rest : σ → Prop
  /-- スレッド `i` が段階 `t` で区間にいるときに成り立つ。 -/
  Holds : I → T → σ → Prop

namespace Gate

variable {I T σ : Type} (G : Gate I T σ)

def In (threads : I → Option T) (i : I) : Prop := ∃ t, threads i = some t ∧ G.inside t = true

/-- 不変条件。誰もいないか、ちょうど一つのスレッドがいる。 -/
inductive Inv (threads : I → Option T) (x : σ) : Prop where
  | rest : G.flag x = false → (∀ i, ¬G.In threads i) → G.Rest x → Inv threads x
  | held {i t} : G.flag x = true → threads i = some t → G.inside t = true → (∀ j, G.In threads j → j = i) →
      G.Holds i t x → Inv threads x

/-- 区間にいるスレッドとその段階は、二つの表で等しい。 -/
def Same (threads threads' : I → Option T) : Prop :=
  ∀ i t, G.inside t = true → (threads' i = some t ↔ threads i = some t)

/-- `i` の他に、新しく区間にいるスレッドはない。 -/
def OnlyEnters (i : I) (threads threads' : I → Option T) : Prop :=
  ∀ j, j ≠ i → G.In threads' j → G.In threads j

variable {G} {threads threads' : I → Option T} {x x' : σ} {i j : I} {t t' : T}

/-! ## 表の更新 -/

section update
variable [DecidableEq I] {o : Option T}

/-- 区間の外での更新。 -/
theorem same_update (hold : ¬G.In threads i) (hnew : ∀ t, o = some t → G.inside t = false) :
    G.Same threads (Function.update threads i o) := by
  intro j t hin
  by_cases hj : j = i
  · subst hj
    rw [Function.update_self]
    constructor
    · intro ht
      rw [hnew t ht] at hin
      cases hin
    · exact fun ht => absurd ⟨t, ht, hin⟩ hold
  · rw [Function.update_of_ne hj]

theorem onlyEnters_update : G.OnlyEnters i threads (Function.update threads i o) := by
  intro j hj hin
  rwa [In, Function.update_of_ne hj] at hin

end update

theorem Same.refl : G.Same threads threads := fun _ _ _ => Iff.rfl

theorem Same.in_iff (h : G.Same threads threads') : G.In threads' i ↔ G.In threads i := by
  constructor
  · intro hi
    obtain ⟨t, ht, hin⟩ := hi
    exact ⟨t, (h i t hin).mp ht, hin⟩
  · intro hi
    obtain ⟨t, ht, hin⟩ := hi
    exact ⟨t, (h i t hin).mpr ht, hin⟩

/-! ## 不変条件からの帰結 -/

theorem Inv.rest_of_flag (h : G.Inv threads x) (hflag : G.flag x = false) : G.Rest x := by
  cases h with
  | rest _ _ hrest => exact hrest
  | held htrue => rw [hflag] at htrue; cases htrue

theorem Inv.holds (h : G.Inv threads x) (hi : threads i = some t) (hin : G.inside t = true) : G.Holds i t x := by
  cases h with
  | rest _ hout => exact absurd ⟨t, hi, hin⟩ (hout i)
  | held _ hj _ honly hholds =>
      obtain rfl := honly i ⟨t, hi, hin⟩
      obtain rfl := Option.some.inj (hi.symm.trans hj)
      exact hholds

theorem Inv.flag_of_in (h : G.Inv threads x) (hi : G.In threads i) : G.flag x = true := by
  cases h with
  | rest _ hout => exact absurd hi (hout i)
  | held htrue => exact htrue

theorem Inv.exists_of_flag (h : G.Inv threads x) (hflag : G.flag x = true) :
    ∃ i t, threads i = some t ∧ G.inside t = true ∧ G.Holds i t x := by
  cases h with
  | rest hfalse => rw [hflag] at hfalse; cases hfalse
  | held _ hi hin _ hholds => exact ⟨_, _, hi, hin, hholds⟩

/-- 区間にいるスレッドは高々一つである。 -/
theorem Inv.unique (h : G.Inv threads x) (hi : G.In threads i) (hj : G.In threads j) : i = j := by
  cases h with
  | rest _ hout => exact absurd hi (hout i)
  | held _ _ _ honly => exact (honly i hi).trans (honly j hj).symm

/-! ## 一歩の規則 -/

/-- 区間の外の一歩。 -/
theorem Inv.aside (h : G.Inv threads x) (hsame : G.Same threads threads') (hflag : G.flag x' = G.flag x)
    (hrest : G.Rest x → G.Rest x') (hholds : ∀ i t, G.Holds i t x → G.Holds i t x') : G.Inv threads' x' := by
  cases h with
  | rest hfalse hout h => exact .rest (hflag.trans hfalse) (fun i hi => hout i (hsame.in_iff.mp hi)) (hrest h)
  | held htrue hi hin honly h =>
      exact .held (hflag.trans htrue) ((hsame _ _ hin).mpr hi) hin (fun j hj => honly j (hsame.in_iff.mp hj)) (hholds _ _ h)

/-- 区間に入る一歩。 -/
theorem Inv.enter (h : G.Inv threads x) (hfalse : G.flag x = false) (hflag : G.flag x' = true) (hi : threads' i = some t)
    (hin : G.inside t = true) (honly : G.OnlyEnters i threads threads') (hholds : G.Rest x → G.Holds i t x') :
    G.Inv threads' x' := by
  cases h with
  | rest _ hout h =>
      refine .held hflag hi hin ?_ (hholds h)
      intro j hj
      by_contra hne
      exact hout j (honly j hne hj)
  | held htrue => rw [hfalse] at htrue; cases htrue

/-- 区間の中の一歩。 -/
theorem Inv.move (h : G.Inv threads x) (hi : threads i = some t) (hin : G.inside t = true) (hflag : G.flag x' = true)
    (hi' : threads' i = some t') (hin' : G.inside t' = true) (honly : G.OnlyEnters i threads threads')
    (hholds : G.Holds i t x → G.Holds i t' x') : G.Inv threads' x' := by
  refine .held hflag hi' hin' ?_ (hholds (h.holds hi hin))
  intro j hj
  by_contra hne
  exact hne (h.unique (honly j hne hj) ⟨t, hi, hin⟩)

/-- 区間を出る一歩。 -/
theorem Inv.leave (h : G.Inv threads x) (hi : threads i = some t) (hin : G.inside t = true) (hflag : G.flag x' = false)
    (hout : ¬G.In threads' i) (honly : G.OnlyEnters i threads threads') (hrest : G.Holds i t x → G.Rest x') :
    G.Inv threads' x' := by
  refine .rest hflag ?_ (hrest (h.holds hi hin))
  intro j hj
  by_cases hne : j = i
  · subst hne
    exact hout hj
  · exact hne (h.unique (honly j hne hj) ⟨t, hi, hin⟩)

end Gate

end RtcEgress.Lib
