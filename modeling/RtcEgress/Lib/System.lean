import Mathlib.Logic.Relation

/-!
# 操作を一つずつ行う状態機械

操作の列による実行と、操作に課す条件のもとでの到達可能性を定める。
-/

namespace RtcEgress.Lib

/-- 操作 `Op` で進む状態機械。 -/
structure System (Op : Type) where
  State : Type
  step : Op → State → State

namespace System

variable {Op : Type} (S : System Op)

/-- 操作に課す条件。操作の直前の状態について求める。 -/
abbrev Condition := Op → S.State → Prop

/-- 条件 `g` を満たす操作だけで到達できる。 -/
abbrev Reach (g : S.Condition) : S.State → S.State → Prop :=
  Relation.ReflTransGen fun s s' => ∃ op, g op s ∧ S.step op s = s'

variable {S}

/-- 各操作が保つ性質は、到達できるすべての状態で成り立つ。 -/
theorem Reach.invariant {g : S.Condition} {I : S.State → Prop} {s s' : S.State} (hr : S.Reach g s s') (hi : I s)
    (hs : ∀ op s, I s → g op s → I (S.step op s)) : I s' := by
  induction hr with
  | refl => exact hi
  | tail _ hstep ih =>
      obtain ⟨op, hg, rfl⟩ := hstep
      exact hs op _ ih hg

variable (S)

/-- 操作の列を順に行う。 -/
def run : List Op → S.State → S.State
  | [], s => s
  | op :: ops, s => run ops (S.step op s)

theorem run_append (s : S.State) (ops ops' : List Op) : S.run (ops ++ ops') s = S.run ops' (S.run ops s) := by
  induction ops generalizing s with
  | nil => rfl
  | cons op ops ih => exact ih (S.step op s)

/-- 列の各操作が条件を満たす。 -/
def AllMeet (g : S.Condition) : List Op → S.State → Prop
  | [], _ => True
  | op :: ops, s => g op s ∧ AllMeet g ops (S.step op s)

instance {g : S.Condition} [∀ op s, Decidable (g op s)] : (ops : List Op) → (s : S.State) → Decidable (S.AllMeet g ops s)
  | [], _ => .isTrue trivial
  | op :: ops, s => @instDecidableAnd _ _ inferInstance (instDecidableAllMeet ops (S.step op s))

variable {S}

/-- すべての操作を認める条件は、どの列も満たす。 -/
theorem allMeet_of_forall {g : S.Condition} (h : ∀ op s, g op s) : (ops : List Op) → (s : S.State) → S.AllMeet g ops s
  | [], _ => trivial
  | op :: ops, s => ⟨h op s, allMeet_of_forall h ops (S.step op s)⟩

/-- 一つの操作の後の `P` が、前の `P` と条件とに分かれるならば、列の後の `P` も、始めの `P` と列の条件とに分かれる。 -/
theorem run_iff {P : S.State → Prop} {g : S.Condition} (h : ∀ op s, P (S.step op s) ↔ P s ∧ g op s) :
    (ops : List Op) → (s : S.State) → (P (S.run ops s) ↔ P s ∧ S.AllMeet g ops s)
  | [], _ => (and_iff_left trivial).symm
  | op :: ops, s => (run_iff h ops (S.step op s)).trans ((and_congr_left' (h op s)).trans and_assoc)

/-- 不変条件のもとで、同じことが成り立つ。 -/
theorem run_iff_of_invariant {I P : S.State → Prop} {g : S.Condition} (hI : ∀ op s, I s → I (S.step op s))
    (h : ∀ op s, I s → (P (S.step op s) ↔ P s ∧ g op s)) (ops : List Op) {s : S.State} (hs : I s) :
    P (S.run ops s) ↔ P s ∧ S.AllMeet g ops s := by
  induction ops generalizing s with
  | nil => exact (and_iff_left trivial).symm
  | cons op ops ih => exact (ih (hI op s hs)).trans ((and_congr_left' (h op s hs)).trans and_assoc)

theorem run_invariant {I : S.State → Prop} (hI : ∀ op s, I s → I (S.step op s)) (ops : List Op) {s : S.State} (hs : I s) :
    I (S.run ops s) := by
  induction ops generalizing s with
  | nil => exact hs
  | cons op ops ih => exact ih (hI op s hs)

/-- 不変条件を保ち、別の条件を導く条件。 -/
theorem AllMeet.imp {I : S.State → Prop} {g g' : S.Condition} (h : ∀ op s, I s → g op s → I (S.step op s) ∧ g' op s)
    {ops : List Op} {s : S.State} (hs : I s) (hg : S.AllMeet g ops s) : S.AllMeet g' ops s := by
  induction ops generalizing s with
  | nil => exact trivial
  | cons op ops ih =>
      obtain ⟨hnext, hop⟩ := h op s hs hg.1
      exact ⟨hop, ih hnext hg.2⟩

/-- 二つの条件を合わせても、それぞれを認めるのと同じである。 -/
theorem allMeet_and {g g' : S.Condition} {ops : List Op} {s : S.State} :
    S.AllMeet (fun op s => g op s ∧ g' op s) ops s ↔ S.AllMeet g ops s ∧ S.AllMeet g' ops s := by
  induction ops generalizing s with
  | nil => exact (and_self_iff (a := True)).symm
  | cons op ops ih => exact (and_congr_right fun _ => ih).trans and_and_and_comm

/-- 不変条件のもとで同値な二つの条件は、同じ列を認める。 -/
theorem allMeet_congr {I : S.State → Prop} {g g' : S.Condition} (hI : ∀ op s, I s → I (S.step op s))
    (h : ∀ op s, I s → (g op s ↔ g' op s)) (ops : List Op) {s : S.State} (hs : I s) :
    S.AllMeet g ops s ↔ S.AllMeet g' ops s := by
  induction ops generalizing s with
  | nil => exact Iff.rfl
  | cons op ops ih => exact and_congr (h op s hs) (ih (hI op s hs))

/-- `P` が前に成り立てば、後の `P` が条件と同値であるとき、`P` が成り立ち続けることは、列の各操作が条件を満たすことと同値である。 -/
theorem allMeet_step_iff_of_invariant {I P : S.State → Prop} {g : S.Condition} (hI : ∀ op s, I s → I (S.step op s))
    (h : ∀ op s, I s → P s → (P (S.step op s) ↔ g op s)) (ops : List Op) {s : S.State} (hs : I s) (hp : P s) :
    S.AllMeet (fun op s => P (S.step op s)) ops s ↔ S.AllMeet g ops s := by
  induction ops generalizing s with
  | nil => exact Iff.rfl
  | cons op ops ih =>
      constructor
      · rintro ⟨hstep, hrest⟩
        exact ⟨(h op s hs hp).mp hstep, (ih (hI op s hs) hstep).mp hrest⟩
      · rintro ⟨hg, hrest⟩
        have hstep := (h op s hs hp).mpr hg
        exact ⟨hstep, (ih (hI op s hs) hstep).mpr hrest⟩

theorem allMeet_step_iff {P : S.State → Prop} {g : S.Condition} (h : ∀ op s, P s → (P (S.step op s) ↔ g op s))
    (ops : List Op) {s : S.State} (hs : P s) : S.AllMeet (fun op s => P (S.step op s)) ops s ↔ S.AllMeet g ops s :=
  allMeet_step_iff_of_invariant (I := fun _ => True) (fun _ _ _ => trivial) (fun op s _ => h op s) ops trivial hs

/-- 成り立ち続ける性質は、列の後にも成り立つ。 -/
theorem AllMeet.run {P : S.State → Prop} {ops : List Op} {s : S.State}
    (h : S.AllMeet (fun op s => P (S.step op s)) ops s) (hs : P s) : P (S.run ops s) := by
  induction ops generalizing s with
  | nil => exact hs
  | cons op ops ih => exact ih h.2 h.1

theorem reach_run {g : S.Condition} : {ops : List Op} → {s : S.State} → S.AllMeet g ops s → S.Reach g s (S.run ops s)
  | [], _, _ => .refl
  | op :: _, _, h => .head ⟨op, h.1, rfl⟩ (reach_run h.2)

end System

end RtcEgress.Lib
