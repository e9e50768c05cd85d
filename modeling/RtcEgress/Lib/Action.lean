import Mathlib.Logic.Basic

/-!
# 途中で止まることのある処理

状態を読み書きする処理のうち、戻らないことのあるものを表す。止まった処理の結果はないが、それまでの書き込みは残る。
-/

namespace RtcEgress.Lib

/-- 状態 `σ` の上の処理。`none` は、止まって戻らないことを表す。 -/
structure Action (σ α : Type) where
  run : σ → Option α × σ

namespace Action

variable {σ α β : Type}

instance : Monad (Action σ) where
  pure a := ⟨fun s => (some a, s)⟩
  bind a f := ⟨fun s =>
    match a.run s with
    | (some x, s') => (f x).run s'
    | (none, s') => (none, s')⟩

def get : Action σ σ := ⟨fun s => (some s, s)⟩

def modify (f : σ → σ) : Action σ Unit := ⟨fun s => (some (), f s)⟩

def block : Action σ α := ⟨fun s => (none, s)⟩

/-- 終わったか止まった後の状態。 -/
def after (a : Action σ α) (s : σ) : σ := (a.run s).2

/-- 処理は、終われば `Q`、止まれば `B` を満たす。 -/
def Ends (B : σ → Prop) (Q : α → σ → Prop) (a : Action σ α) (s : σ) : Prop :=
  match a.run s with
  | (some x, s') => Q x s'
  | (none, s') => B s'

section Ends

variable {B : σ → Prop} {Q : α → σ → Prop} {s : σ}

@[simp] theorem ends_pure {x : α} : (pure x : Action σ α).Ends B Q s ↔ Q x s := Iff.rfl

@[simp] theorem ends_bind {Q : β → σ → Prop} {a : Action σ α} {f : α → Action σ β} :
    (a >>= f).Ends B Q s ↔ a.Ends B (fun x s' => (f x).Ends B Q s') s := by
  simp only [Ends, bind]
  rcases a.run s with ⟨_ | x, s'⟩ <;> rfl

@[simp] theorem ends_get {Q : σ → σ → Prop} : (get : Action σ σ).Ends B Q s ↔ Q s s := Iff.rfl

@[simp] theorem ends_modify {f : σ → σ} {Q : Unit → σ → Prop} : (modify f).Ends B Q s ↔ Q () (f s) := Iff.rfl

@[simp] theorem ends_block : (block : Action σ α).Ends B Q s ↔ B s := Iff.rfl

@[simp] theorem ends_ite {b : Prop} [Decidable b] {a a' : Action σ α} :
    (if b then a else a').Ends B Q s ↔ (b → a.Ends B Q s) ∧ (¬b → a'.Ends B Q s) := by
  by_cases hb : b
  · simp [hb]
  · simp [hb]

theorem Ends.mono {B' : σ → Prop} {Q' : α → σ → Prop} {a : Action σ α} (h : a.Ends B Q s) (hB : ∀ s, B s → B' s)
    (hQ : ∀ x s, Q x s → Q' x s) : a.Ends B' Q' s := by
  revert h
  unfold Ends
  rcases a.run s with ⟨_ | x, s'⟩
  · exact hB s'
  · exact hQ x s'

theorem Ends.after {I : σ → Prop} {a : Action σ α} (h : a.Ends I (fun _ => I) s) : I (a.after s) := by
  revert h
  unfold Ends Action.after
  rcases a.run s with ⟨_ | x, s'⟩
  · exact id
  · exact id

end Ends

/-- 処理は、終わっても止まっても性質 `I` を保つ。 -/
def Keeps (I : σ → Prop) (a : Action σ α) : Prop := ∀ s, I s → a.Ends I (fun _ => I) s

section Keeps

variable {I : σ → Prop}

theorem Keeps.pure {x : α} : Keeps I (Pure.pure x : Action σ α) := by
  intro s h
  exact h

theorem Keeps.bind {a : Action σ α} {f : α → Action σ β} (ha : Keeps I a) (hf : ∀ x, Keeps I (f x)) :
    Keeps I (a >>= f) := by
  intro s h
  rw [ends_bind]
  exact (ha s h).mono (fun _ h => h) fun x s' h' => hf x s' h'

theorem Keeps.get : Keeps I (get : Action σ σ) := by
  intro s h
  exact h

theorem Keeps.modify {f : σ → σ} (hf : ∀ s, I s → I (f s)) : Keeps I (modify f) := hf

theorem Keeps.ite {b : Prop} [Decidable b] {a a' : Action σ α} (ha : Keeps I a) (ha' : Keeps I a') :
    Keeps I (if b then a else a') := by
  split
  · exact ha
  · exact ha'

end Keeps

end Action

end RtcEgress.Lib
