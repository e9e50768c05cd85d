import Mathlib.Logic.Relation

/-!
# 命令を一つずつ出すプログラムと、その並行な実行

共有の状態に対する命令の列を、応答ごとに枝分かれする木 `Prog` で表す。命令の間の局所変数は、
続きの関数の引数として残る。複数のプログラムを一つの状態の上で実行する状態機械 `Pool` を定め、
一つの命令を一つの遷移として、任意の順に交互に実行する。
-/

namespace RtcEgress.Lib

/-- 命令の型 `C` と、命令ごとの応答の型 `R` の上のプログラム。 -/
inductive Prog (C : Type) (R : C → Type) (α : Type) : Type where
  | ret (a : α) : Prog C R α
  | call (c : C) (k : R c → Prog C R α) : Prog C R α

namespace Prog

variable {C : Type} {R : C → Type} {α β γ : Type}

/-- 逐次の合成。`p` の結果を `f` に渡す。 -/
def bind : Prog C R α → (α → Prog C R β) → Prog C R β
  | .ret a, f => f a
  | .call c k, f => .call c (fun r => (k r).bind f)

instance : Monad (Prog C R) where
  pure := .ret
  bind := Prog.bind

/-- 命令を一つ出し、その応答を返す。 -/
def perform (c : C) : Prog C R (R c) := .call c .ret

@[simp] theorem pure_eq (a : α) : (pure a : Prog C R α) = .ret a := rfl

@[simp] theorem ret_bind (a : α) (f : α → Prog C R β) : (Prog.ret a >>= f) = f a := rfl

@[simp] theorem call_bind (c : C) (k : R c → Prog C R α) (f : α → Prog C R β) :
    (Prog.call c k >>= f) = .call c (fun r => k r >>= f) := rfl

@[simp] theorem perform_bind (c : C) (f : R c → Prog C R β) : (perform c >>= f) = .call c f := rfl

/-- 列の各要素について、順にプログラムを実行する。 -/
def forEach (f : α → Prog C R Unit) : List α → Prog C R Unit
  | [] => .ret ()
  | x :: xs => (f x).bind fun _ => forEach f xs

end Prog

/-- 共有の状態と、その上の命令の意味。`exec` が `none` を返す命令は、その状態では実行できない。
応答のうち状態から決まらないもの（生成した名前など）は `Oracle` が与える。 -/
structure Machine (C : Type) (R : C → Type) where
  State : Type
  Oracle : Type
  exec : Oracle → (c : C) → State → Option (R c × State)
  /-- プログラムによらない状態の変化（時間の経過など）。 -/
  Env : Type
  env : Env → State → Option State
  /-- 実行を始められる呼び出しと、その本体。 -/
  Call : Type
  body : Call → Prog C R Unit

variable {C : Type} {R : C → Type}

/-- スレッド `tid` が、状態 `before` で実行した命令とその応答。 -/
structure Event (M : Machine C R) where
  tid : Nat
  cmd : C
  resp : R cmd
  before : M.State

/-- 共有の状態、実行中のプログラムの列、および実行した命令の列。プログラムの列の中の位置がスレッドの
番号であり、命令の列は新しいものが先頭である。 -/
structure Pool (M : Machine C R) where
  state : M.State
  threads : List (Prog C R Unit)
  trace : List (Event M)

/-- どのプログラムも始まっていない。 -/
def Pool.start {M : Machine C R} (s : M.State) : Pool M := ⟨s, [], []⟩

/-- 遷移に課す条件。命令の条件は、実行の直前の状態とそれまでの命令の列について求める。 -/
structure Guard (M : Machine C R) where
  call : M.Call → Prop
  cmd : Nat → C → M.State → List (Event M) → Prop

/-- 呼び出しだけを制限し、命令の順序には条件を課さない。 -/
def Guard.ofCalls {M : Machine C R} (call : M.Call → Prop) : Guard M := ⟨call, fun _ _ _ _ => True⟩

/-- 一つの遷移。呼び出しの開始、スレッド `i` の次の命令の実行、環境の変化のいずれかである。 -/
inductive Step {M : Machine C R} (g : Guard M) : Pool M → Pool M → Prop where
  | spawn {s ts tr k} : g.call k → Step g ⟨s, ts, tr⟩ ⟨s, ts ++ [M.body k], tr⟩
  | run {s ts tr i c k o r s'} : ts[i]? = some (.call c k) → g.cmd i c s tr →
      M.exec o c s = some (r, s') → Step g ⟨s, ts, tr⟩ ⟨s', ts.set i (k r), ⟨i, c, r, s⟩ :: tr⟩
  | env {s ts tr e s'} : M.env e s = some s' → Step g ⟨s, ts, tr⟩ ⟨s', ts, tr⟩

/-- 遷移の列。 -/
abbrev Run {M : Machine C R} (g : Guard M) : Pool M → Pool M → Prop := Relation.ReflTransGen (Step g)

/-! ## 遷移の計算 -/

/-- 遷移の指定。 -/
inductive Move (M : Machine C R) where
  | spawn (k : M.Call)
  | run (i : Nat) (o : M.Oracle)
  | env (e : M.Env)

def Move.call? {M : Machine C R} : Move M → Option M.Call
  | .spawn k => some k
  | _ => none

namespace Pool

variable {M : Machine C R}

/-- 指定した遷移を計算する。 -/
def step (p : Pool M) : Move M → Option (Pool M)
  | .spawn k => some ⟨p.state, p.threads ++ [M.body k], p.trace⟩
  | .run i o =>
      match p.threads[i]? with
      | some (.call c k) =>
          (M.exec o c p.state).map fun rs => ⟨rs.2, p.threads.set i (k rs.1), ⟨i, c, rs.1, p.state⟩ :: p.trace⟩
      | _ => none
  | .env e => (M.env e p.state).map fun s => ⟨s, p.threads, p.trace⟩

/-- 指定の列を順に計算する。 -/
def play : List (Move M) → Pool M → Option (Pool M)
  | [], p => some p
  | m :: ms, p => (p.step m).bind (play ms)

/-- 指定した遷移が条件 `g` を満たす。 -/
def Meets (g : Guard M) (p : Pool M) : Move M → Prop
  | .spawn k => g.call k
  | .run i _ =>
      match p.threads[i]? with
      | some (.call c _) => g.cmd i c p.state p.trace
      | _ => True
  | .env _ => True

/-- 指定の列の各遷移が条件 `g` を満たす。 -/
def AllMeet (g : Guard M) : List (Move M) → Pool M → Prop
  | [], _ => True
  | m :: ms, p => p.Meets g m ∧ ∀ p', p.step m = some p' → AllMeet g ms p'

instance {g : Guard M} [∀ k, Decidable (g.call k)] [∀ i c s tr, Decidable (g.cmd i c s tr)] (p : Pool M) :
    (m : Move M) → Decidable (p.Meets g m)
  | .spawn k => inferInstanceAs (Decidable (g.call k))
  | .run i _ =>
      match h : p.threads[i]? with
      | some (.call c _) => decidable_of_iff (g.cmd i c p.state p.trace) (by simp [Meets, h])
      | some (.ret _) => .isTrue (by simp [Meets, h])
      | none => .isTrue (by simp [Meets, h])
  | .env _ => .isTrue trivial

instance decidableAllMeet {g : Guard M} [∀ k, Decidable (g.call k)] [∀ i c s tr, Decidable (g.cmd i c s tr)] :
    (ms : List (Move M)) → (p : Pool M) → Decidable (p.AllMeet g ms)
  | [], _ => .isTrue trivial
  | m :: ms, p =>
      match h : p.step m with
      | some p' => @decidable_of_iff _ (p.Meets g m ∧ p'.AllMeet g ms) (by simp [AllMeet, h])
          (@instDecidableAnd _ _ inferInstance (decidableAllMeet ms p'))
      | none => decidable_of_iff (p.Meets g m) (by simp [AllMeet, h])

theorem step_sound {g : Guard M} {p p' : Pool M} {m : Move M} (hg : p.Meets g m)
    (h : p.step m = some p') : Step g p p' := by
  cases m with
  | spawn k =>
      simp only [step, Option.some.injEq] at h
      subst h
      exact .spawn hg
  | run i o =>
      simp only [step] at h
      split at h
      · rename_i c k ht
        obtain ⟨⟨r, s'⟩, he, rfl⟩ := Option.map_eq_some_iff.mp h
        simp only [Meets, ht] at hg
        exact .run ht hg he
      · cases h
  | env e =>
      obtain ⟨s', he, rfl⟩ := Option.map_eq_some_iff.mp h
      exact .env he

/-- 計算した遷移の列は、条件を満たすなら `Run` である。 -/
theorem play_sound {g : Guard M} {ms : List (Move M)} {p p' : Pool M} (hg : p.AllMeet g ms)
    (h : play ms p = some p') : Run g p p' := by
  induction ms generalizing p with
  | nil => cases h; exact .refl
  | cons m ms ih =>
      obtain ⟨p₁, h₁, h₂⟩ := Option.bind_eq_some_iff.mp h
      exact .head (step_sound hg.1 h₁) (ih (hg.2 p₁ h₁) h₂)

/-- 呼び出しだけの条件は、指定の列の中の呼び出しで決まる。 -/
theorem allMeet_ofCalls {call : M.Call → Prop} {ms : List (Move M)} {p : Pool M}
    (h : ∀ k ∈ ms.filterMap Move.call?, call k) : p.AllMeet (.ofCalls call) ms := by
  induction ms generalizing p with
  | nil => trivial
  | cons m ms ih =>
      cases m with
      | spawn k => exact ⟨h k (by simp [Move.call?]), fun p' _ => ih fun k' hk => h k' (by simp [Move.call?, hk])⟩
      | run i o =>
          refine ⟨?_, fun p' _ => ih fun k' hk => h k' (by simpa [Move.call?] using hk)⟩
          simp only [Meets, Guard.ofCalls]
          split <;> trivial
      | env e => exact ⟨trivial, fun p' _ => ih fun k' hk => h k' (by simpa [Move.call?] using hk)⟩

end Pool

end RtcEgress.Lib
