import Mathlib.Order.Defs.Unbundled
import RtcEgress.Lib.Prog

/-!
# 命令の列による並行な実行の証明

`Pool` のスレッドは、自分の命令の間に他のスレッドの命令を挟まれるが、自分がこれまでに出した命令と
受け取った応答は変わらない。プログラムごとの仕事を、各命令を出すときに自分の命令の列が満たすこと
（`Prog.Follows`）の証明に限り、並行性に関わる仕事を、状態と全体の命令の列についての不変条件の証明に移す。
-/

namespace RtcEgress.Lib

variable {C : Type} {R : C → Type}

/-- 命令とその応答。 -/
abbrev Act (C : Type) (R : C → Type) := (c : C) × R c

/-- 記録した命令とその応答。 -/
def Event.act {M : Machine C R} (e : Event M) : Act C R := ⟨e.cmd, e.resp⟩

/-! ## 一つのプログラム -/

namespace Prog

variable {α β : Type} {E : C → List (Act C R) → Prop}

/-- 自分の命令の列が `h` であるプログラムが、どの応答のもとでも、各命令を `E` を満たす列で出し、`Q` で終わる。 -/
def Follows (E : C → List (Act C R) → Prop) (Q : α → List (Act C R) → Prop) :
    Prog C R α → List (Act C R) → Prop
  | .ret a, h => Q a h
  | .call c k, h => E c h ∧ ∀ r, Follows E Q (k r) (⟨c, r⟩ :: h)

theorem Follows.mono {E E' : C → List (Act C R) → Prop} {Q Q' : α → List (Act C R) → Prop}
    (hE : ∀ c h, E c h → E' c h) (hQ : ∀ a h, Q a h → Q' a h) :
    {p : Prog C R α} → {h : List (Act C R)} → p.Follows E Q h → p.Follows E' Q' h
  | .ret _, _, hp => hQ _ _ hp
  | .call _ _, _, hp => ⟨hE _ _ hp.1, fun r => (hp.2 r).mono hE hQ⟩

theorem Follows.bind {Q : α → List (Act C R) → Prop} {Q' : β → List (Act C R) → Prop} {f : α → Prog C R β}
    (hf : ∀ a h, Q a h → (f a).Follows E Q' h) :
    {p : Prog C R α} → {h : List (Act C R)} → p.Follows E Q h → (p >>= f).Follows E Q' h
  | .ret _, _, hp => hf _ _ hp
  | .call _ _, _, hp => ⟨hp.1, fun r => (hp.2 r).bind hf⟩

theorem Follows.perform {c : C} {Q : β → List (Act C R) → Prop} {f : R c → Prog C R β} {h}
    (hc : E c h) (hf : ∀ r, (f r).Follows E Q (⟨c, r⟩ :: h)) : (Prog.perform c >>= f).Follows E Q h :=
  ⟨hc, hf⟩

theorem Follows.ite {b : Prop} [Decidable b] {p q : Prog C R α} {Q : α → List (Act C R) → Prop} {h}
    (hp : b → p.Follows E Q h) (hq : ¬b → q.Follows E Q h) : (if b then p else q).Follows E Q h := by
  by_cases hb : b
  · rw [if_pos hb]; exact hp hb
  · rw [if_neg hb]; exact hq hb

theorem Follows.and {E' : C → List (Act C R) → Prop} {Q Q' : α → List (Act C R) → Prop} :
    {p : Prog C R α} → {h : List (Act C R)} → p.Follows E Q h → p.Follows E' Q' h →
      p.Follows (fun c h => E c h ∧ E' c h) (fun a h => Q a h ∧ Q' a h) h
  | .ret _, _, hp, hp' => ⟨hp, hp'⟩
  | .call _ _, _, hp, hp' => ⟨⟨hp.1, hp'.1⟩, fun r => (hp.2 r).and (hp'.2 r)⟩

/-- `E` に従う命令が `I` を保ち、`I` のもとで `E'` を満たすなら、プログラムは `E'` にも従う。 -/
theorem Follows.strengthen {E' : C → List (Act C R) → Prop} {I : List (Act C R) → Prop}
    {Q : α → List (Act C R) → Prop} (hI : ∀ c h, I h → E c h → E' c h ∧ ∀ r, I (⟨c, r⟩ :: h)) :
    {p : Prog C R α} → {h : List (Act C R)} → I h → p.Follows E Q h → p.Follows E' (fun a h' => Q a h' ∧ I h') h
  | .ret _, _, hi, hp => ⟨hp, hi⟩
  | .call c _, h, hi, hp => ⟨(hI c h hi hp.1).1, fun r => (hp.2 r).strengthen hI ((hI c h hi hp.1).2 r)⟩

/-- 自分の命令の列は伸びるだけである。 -/
theorem Follows.extends {Q : α → List (Act C R) → Prop} :
    {p : Prog C R α} → {h : List (Act C R)} → p.Follows E Q h → p.Follows E (fun a h' => Q a h' ∧ h ⊆ h') h
  | .ret _, _, hp => ⟨hp, fun _ ha => ha⟩
  | .call _ _, _, hp =>
      ⟨hp.1, fun r => (hp.2 r).extends.mono (fun _ _ hE => hE)
        fun _ _ hQ => ⟨hQ.1, fun _ ha => hQ.2 (List.mem_cons_of_mem _ ha)⟩⟩

/-- 列の各要素のプログラムが `P` を保つなら、列の全体も保つ。 -/
theorem Follows.forEach {P : List (Act C R) → Prop} {f : α → Prog C R Unit} {xs : List α}
    (hf : ∀ x ∈ xs, ∀ h, P h → (f x).Follows E (fun _ => P) h) {h} (hp : P h) :
    (Prog.forEach f xs).Follows E (fun _ => P) h := by
  induction xs generalizing h with
  | nil => exact hp
  | cons x xs ih =>
      refine Follows.bind (fun _ h' hp' => ?_) (hf x (by simp) h hp)
      exact ih (fun y hy => hf y (by simp [hy])) hp'

/-! ### 列の要約 -/

/-- 自分の命令の列を、命令ごとに `next` で進めた値。 -/
def summary {σ : Type} (init : σ) (next : (c : C) → R c → σ → σ) : List (Act C R) → σ
  | [] => init
  | ⟨c, r⟩ :: h => next c r (summary init next h)

/-- 要約が `s` であるプログラムが、各命令を `ok` を満たす要約で出し、`Q` で終わる。 -/
def Tracks {σ : Type} (ok : C → σ → Prop) (next : (c : C) → R c → σ → σ) (Q : α → σ → Prop) : Prog C R α → σ → Prop
  | .ret a, s => Q a s
  | .call c k, s => ok c s ∧ ∀ r, Tracks ok next Q (k r) (next c r s)

variable {σ : Type} {ok : C → σ → Prop} {next : (c : C) → R c → σ → σ}

@[simp] theorem tracks_ret {Q : α → σ → Prop} {a : α} {s : σ} : (Prog.ret a : Prog C R α).Tracks ok next Q s ↔ Q a s :=
  Iff.rfl

@[simp] theorem tracks_call {Q : α → σ → Prop} {c : C} {k : R c → Prog C R α} {s : σ} :
    (Prog.call c k).Tracks ok next Q s ↔ ok c s ∧ ∀ r, (k r).Tracks ok next Q (next c r s) := Iff.rfl

@[simp] theorem tracks_ite {b : Prop} [Decidable b] {p q : Prog C R α} {Q : α → σ → Prop} {s : σ} :
    (if b then p else q).Tracks ok next Q s ↔ (b → p.Tracks ok next Q s) ∧ (¬b → q.Tracks ok next Q s) := by
  by_cases hb : b
  · simp [hb]
  · simp [hb]

/-- 条件のない要約は、どのプログラムにもある。 -/
theorem Tracks.any : (p : Prog C R α) → (s : σ) → p.Tracks (fun _ _ => True) next (fun _ _ => True) s
  | .ret _, _ => trivial
  | .call c k, s => ⟨trivial, fun r => Tracks.any (k r) (next c r s)⟩

theorem Tracks.mono {Q Q' : α → σ → Prop} (hQ : ∀ a s, Q a s → Q' a s) :
    {p : Prog C R α} → {s : σ} → p.Tracks ok next Q s → p.Tracks ok next Q' s
  | .ret _, _, hp => hQ _ _ hp
  | .call _ _, _, hp => ⟨hp.1, fun r => (hp.2 r).mono hQ⟩

theorem Tracks.bind {Q : α → σ → Prop} {Q' : β → σ → Prop} {f : α → Prog C R β}
    (hf : ∀ a s, Q a s → (f a).Tracks ok next Q' s) :
    {p : Prog C R α} → {s : σ} → p.Tracks ok next Q s → (p >>= f).Tracks ok next Q' s
  | .ret _, _, hp => hf _ _ hp
  | .call _ _, _, hp => ⟨hp.1, fun r => (hp.2 r).bind hf⟩

theorem Tracks.forEach {P : σ → Prop} {f : α → Prog C R Unit} {xs : List α}
    (hf : ∀ x s, P s → (f x).Tracks ok next (fun _ => P) s) {s} (hp : P s) :
    (Prog.forEach f xs).Tracks ok next (fun _ => P) s := by
  induction xs generalizing s with
  | nil => exact hp
  | cons x xs ih => exact Tracks.bind (fun _ s' hp' => ih hp') (hf x s hp)

/-- 要約についての証明は、命令の列についての証明である。 -/
theorem Tracks.follows {init : σ} {Q : α → σ → Prop} :
    {p : Prog C R α} → {h : List (Act C R)} → p.Tracks ok next Q (summary init next h) →
      p.Follows (fun c h => ok c (summary init next h)) (fun a h => Q a (summary init next h)) h
  | .ret _, _, hp => hp
  | .call c _, h, hp => ⟨hp.1, fun r => Tracks.follows (h := ⟨c, r⟩ :: h) (hp.2 r)⟩

end Prog

/-! ## スレッドごとの命令の列 -/

section Own

variable {M : Machine C R}

/-- スレッド `i` が出した命令と応答の列。新しいものが先頭である。 -/
def own (i : Nat) : List (Event M) → List (Act C R)
  | [] => []
  | e :: tr => if e.tid = i then ⟨e.cmd, e.resp⟩ :: own i tr else own i tr

@[simp] theorem own_nil (i : Nat) : own i ([] : List (Event M)) = [] := rfl

@[simp] theorem own_cons_self {i c r s} {tr : List (Event M)} :
    own i (⟨i, c, r, s⟩ :: tr) = ⟨c, r⟩ :: own i tr := if_pos rfl

theorem own_cons_ne {i j c r s} {tr : List (Event M)} (h : j ≠ i) :
    own j (⟨i, c, r, s⟩ :: tr) = own j tr := if_neg (Ne.symm h)

theorem own_eq_nil {i : Nat} : {tr : List (Event M)} → (∀ e ∈ tr, e.tid ≠ i) → own i tr = []
  | [], _ => rfl
  | e :: tr, h => by
      rw [own, if_neg (h e (by simp))]
      exact own_eq_nil fun e' he => h e' (by simp [he])

theorem exists_fresh_tid (tr : List (Event M)) : ∃ i, ∀ e ∈ tr, e.tid < i := by
  induction tr with
  | nil => exact ⟨0, by simp⟩
  | cons e tr ih =>
      obtain ⟨i, hi⟩ := ih
      refine ⟨max i (e.tid + 1), fun e' he => ?_⟩
      rcases List.mem_cons.mp he with rfl | he
      · omega
      · have := hi e' he
        omega

/-- どのスレッドについても成り立つかは、命令を出したスレッドと、まだ出していないスレッドで決まる。 -/
theorem forall_own {tr : List (Event M)} {P : List (Act C R) → Prop} :
    (∀ i, P (own i tr)) ↔ P [] ∧ ∀ e ∈ tr, P (own e.tid tr) := by
  constructor
  · intro h
    refine ⟨?_, fun e _ => h e.tid⟩
    obtain ⟨i, hi⟩ := exists_fresh_tid tr
    rw [← own_eq_nil fun e he => Nat.ne_of_lt (hi e he)]
    exact h i
  · rintro ⟨hnil, hcons⟩ i
    by_cases hi : ∃ e ∈ tr, e.tid = i
    · obtain ⟨e, he, rfl⟩ := hi
      exact hcons e he
    · rw [own_eq_nil fun e he heq => hi ⟨e, he, heq⟩]
      exact hnil

theorem own_append {i : Nat} {tr₁ tr₂ : List (Event M)} : own i (tr₁ ++ tr₂) = own i tr₁ ++ own i tr₂ := by
  induction tr₁ with
  | nil => rfl
  | cons e tr₁ ih =>
      simp only [List.cons_append, own]
      split
      · rw [ih, List.cons_append]
      · exact ih

/-- 自分の列に現れる命令は、全体の列にも、その番号で現れる。 -/
theorem mem_of_own {i : Nat} {c : C} {r : R c} :
    {tr : List (Event M)} → ⟨c, r⟩ ∈ own i tr → ∃ s, ⟨i, c, r, s⟩ ∈ tr
  | [], h => by simp at h
  | ⟨j, c', r', s⟩ :: tr, h => by
      by_cases hj : i = j
      · subst hj
        rw [own_cons_self, List.mem_cons] at h
        rcases h with h | h
        · cases h
          exact ⟨s, List.mem_cons_self⟩
        · obtain ⟨s', hs⟩ := mem_of_own h
          exact ⟨s', List.mem_cons_of_mem _ hs⟩
      · rw [own_cons_ne hj] at h
        obtain ⟨s', hs⟩ := mem_of_own h
        exact ⟨s', List.mem_cons_of_mem _ hs⟩

/-- 自分の列の先頭の命令で、全体の列を分ける。間には他のスレッドの命令だけがある。 -/
theorem split_own {i : Nat} {c : C} {r : R c} {h : List (Act C R)} :
    {tr : List (Event M)} → own i tr = ⟨c, r⟩ :: h →
      ∃ tr₁ s tr₂, tr = tr₁ ++ ⟨i, c, r, s⟩ :: tr₂ ∧ own i tr₂ = h ∧ ∀ e ∈ tr₁, e.tid ≠ i
  | [], ho => by simp at ho
  | ⟨j, c', r', s⟩ :: tr, ho => by
      by_cases hj : i = j
      · subst hj
        rw [own_cons_self, List.cons.injEq] at ho
        obtain ⟨heq, hh⟩ := ho
        cases heq
        exact ⟨[], s, tr, rfl, hh, by simp⟩
      · rw [own_cons_ne hj] at ho
        obtain ⟨tr₁, s', tr₂, rfl, hh, hne⟩ := split_own ho
        refine ⟨⟨j, c', r', s⟩ :: tr₁, s', tr₂, rfl, hh, fun e he => ?_⟩
        rcases List.mem_cons.mp he with rfl | he
        · exact Ne.symm hj
        · exact hne e he

/-- スレッド `i` の最近の `n` 個の命令と、それらの間に挟まれた命令。 -/
def since (i : Nat) : Nat → List (Event M) → List (Event M)
  | 0, _ => []
  | _ + 1, [] => []
  | n + 1, e :: tr => e :: since i (if e.tid = i then n else n + 1) tr

theorem since_split {i n c r s} {tr₂ : List (Event M)} :
    {tr₁ : List (Event M)} → (∀ e ∈ tr₁, e.tid ≠ i) →
      since i (n + 1) (tr₁ ++ ⟨i, c, r, s⟩ :: tr₂) = tr₁ ++ ⟨i, c, r, s⟩ :: since i n tr₂
  | [], _ => by simp [since]
  | e :: tr₁, h => by
      have he : e.tid ≠ i := h e List.mem_cons_self
      rw [List.cons_append, since, if_neg he, since_split fun e' h' => h e' (List.mem_cons_of_mem _ h'),
        List.cons_append]

end Own

/-! ## 全体の実行 -/

section Invariant

variable {M : Machine C R} {g : Guard M} {E : C → List (Act C R) → Prop}

/-- 始められる呼び出しの本体が、最初から `E` に従う。 -/
def Bodies (g : Guard M) (E : C → List (Act C R) → Prop) : Prop :=
  ∀ k, g.call k → (M.body k).Follows E (fun _ _ => True) []

/-- すべてのスレッドが、自分の命令の列から `E` に従って進む。 -/
structure Pool.Follows (E : C → List (Act C R) → Prop) (p : Pool M) : Prop where
  tid : ∀ e ∈ p.trace, e.tid < p.threads.length
  thread : ∀ i (t : Prog C R Unit), p.threads[i]? = some t → t.Follows E (fun _ _ => True) (own i p.trace)

theorem Pool.follows_start (s : M.State) : (Pool.start s).Follows E :=
  ⟨by simp [start], by simp [start]⟩

/-- 本体が `Q` で終わるなら、どのスレッドも `Q` で終わる。 -/
theorem Step.threads {Q : Unit → List (Act C R) → Prop} (hb : ∀ k, g.call k → (M.body k).Follows E Q [])
    {p p' : Pool M} (htid : ∀ e ∈ p.trace, e.tid < p.threads.length)
    (hthread : ∀ i (t : Prog C R Unit), p.threads[i]? = some t → t.Follows E Q (own i p.trace)) (h : Step g p p') :
    (∀ e ∈ p'.trace, e.tid < p'.threads.length) ∧
      ∀ i (t : Prog C R Unit), p'.threads[i]? = some t → t.Follows E Q (own i p'.trace) := by
  cases h with
  | @spawn s ts tr k hk =>
      refine ⟨fun e he => Nat.lt_of_lt_of_le (htid e he) (by simp), fun i t ht => ?_⟩
      by_cases hlt : i < ts.length
      · rw [List.getElem?_append_left hlt] at ht
        exact hthread i t ht
      · rw [List.getElem?_append_right (by omega)] at ht
        obtain ⟨_, rfl⟩ := List.getElem?_eq_some_iff.mp ht
        -- 新しい番号の命令はまだない。
        have hnew : own i tr = [] := own_eq_nil fun e he heq => hlt (by rw [← heq]; exact htid e he)
        simp only [hnew, List.getElem_singleton]
        exact hb k hk
  | @run s ts tr i c k o r s' ht hg he =>
      have hlt : i < ts.length := (List.getElem?_eq_some_iff.mp ht).1
      refine ⟨fun e he => ?_, fun j t hj => ?_⟩
      · rw [List.length_set]
        rcases List.mem_cons.mp he with rfl | he
        · exact hlt
        · exact htid e he
      · by_cases hij : j = i
        · subst hij
          rw [List.getElem?_set_self hlt] at hj
          cases hj
          rw [own_cons_self]
          exact (hthread j _ ht).2 r
        · rw [List.getElem?_set_ne (Ne.symm hij)] at hj
          rw [own_cons_ne hij]
          exact hthread j t hj
  | env he => exact ⟨htid, hthread⟩

theorem Pool.Follows.step (hb : Bodies g E) {p p' : Pool M} (hp : p.Follows E) (h : Step g p p') :
    p'.Follows E := by
  obtain ⟨htid, hthread⟩ := Step.threads hb hp.tid hp.thread h
  exact ⟨htid, hthread⟩

theorem Run.thread {Q : Unit → List (Act C R) → Prop} (hb : ∀ k, g.call k → (M.body k).Follows E Q []) {s : M.State}
    {p : Pool M} (h : Run g (Pool.start s) p) {i : Nat} {t : Prog C R Unit} (ht : p.threads[i]? = some t) :
    t.Follows E Q (own i p.trace) := by
  have hall : (∀ e ∈ p.trace, e.tid < p.threads.length) ∧
      ∀ i (t : Prog C R Unit), p.threads[i]? = some t → t.Follows E Q (own i p.trace) := by
    clear ht
    induction h with
    | refl => exact ⟨by simp [Pool.start], by simp [Pool.start]⟩
    | tail _ hs ih => exact hs.threads hb ih.1 ih.2
  exact hall.2 i t ht

/-- 命令の列は伸びるだけである。 -/
theorem Run.trace_suffix {p p' : Pool M} (h : Run g p p') : p.trace <:+ p'.trace := by
  induction h with
  | refl => exact List.suffix_rfl
  | tail _ hs ih =>
      cases hs with
      | spawn => exact ih
      | run => exact ih.trans (List.suffix_cons _ _)
      | env => exact ih

theorem Run.mem_own {p p' : Pool M} (h : Run g p p') {i : Nat} {a : Act C R} (ha : a ∈ own i p.trace) :
    a ∈ own i p'.trace := by
  obtain ⟨later, hlater⟩ := h.trace_suffix
  rw [← hlater, own_append]
  exact List.mem_append_right _ ha

/-- 状態と命令の列についての性質 `I` が、`E` に従う命令と環境の変化で保たれる。 -/
structure Inductive (g : Guard M) (E : C → List (Act C R) → Prop)
    (I : M.State → List (Event M) → Prop) : Prop where
  cmd : ∀ {i c o s tr r s'}, I s tr → g.cmd i c s tr → E c (own i tr) → M.exec o c s = some (r, s') →
    I s' (⟨i, c, r, s⟩ :: tr)
  env : ∀ {e s tr s'}, I s tr → M.env e s = some s' → I s' tr

/-- 帰納的な性質は、実行の全体で保たれる。 -/
theorem Inductive.run {I : M.State → List (Event M) → Prop} (hI : Inductive g E I) (hb : Bodies g E)
    {p p' : Pool M} (hp : p.Follows E) (hi : I p.state p.trace) (h : Run g p p') :
    p'.Follows E ∧ I p'.state p'.trace := by
  induction h with
  | refl => exact ⟨hp, hi⟩
  | tail _ hs ih =>
      obtain ⟨hp', hi'⟩ := ih
      refine ⟨hp'.step hb hs, ?_⟩
      cases hs with
      | spawn hk => exact hi'
      | run ht hg he => exact hI.cmd hi' hg (hp'.thread _ _ ht).1 he
      | env he => exact hI.env hi' he

/-- 最初の状態からの実行では、帰納的な性質が常に成り立つ。 -/
theorem Inductive.of_start {I : M.State → List (Event M) → Prop} (hI : Inductive g E I) (hb : Bodies g E)
    {s : M.State} (hi : I s []) {p : Pool M} (h : Run g (Pool.start s) p) : I p.state p.trace :=
  (hI.run hb (Pool.follows_start s) hi h).2

theorem Inductive.mono {E' : C → List (Act C R) → Prop} {I : M.State → List (Event M) → Prop} (hI : Inductive g E I)
    (hE : ∀ c h, E' c h → E c h) : Inductive g E' I :=
  ⟨fun h hg hE' he => hI.cmd h hg (hE _ _ hE') he, hI.env⟩

/-- すでに示した性質 `I` を使って、性質 `J` を加える。 -/
theorem Inductive.extend {I J : M.State → List (Event M) → Prop} (hI : Inductive g E I)
    (cmd : ∀ {i c o s tr r s'}, I s tr → J s tr → g.cmd i c s tr → E c (own i tr) →
      M.exec o c s = some (r, s') → J s' (⟨i, c, r, s⟩ :: tr))
    (env : ∀ {e s tr s'}, I s tr → J s tr → M.env e s = some s' → J s' tr) :
    Inductive g E fun s tr => I s tr ∧ J s tr :=
  ⟨fun h hg hE he => ⟨hI.cmd h.1 hg hE he, cmd h.1 h.2 hg hE he⟩,
    fun h he => ⟨hI.env h.1 he, env h.1 h.2 he⟩⟩

/-! ## 状態の移り変わり -/

/-- 実行した命令の応答は、その直前の状態で実際に得られるものである。 -/
def Recorded (tr : List (Event M)) : Prop := ∀ e ∈ tr, ∃ o s', M.exec o e.cmd e.before = some (e.resp, s')

theorem recorded_inductive : Inductive g E fun _ tr => Recorded tr := by
  refine ⟨fun {i c o s tr r s'} h _ _ he e hmem => ?_, fun h _ => h⟩
  rcases List.mem_cons.mp hmem with rfl | hmem
  · exact ⟨o, s', he⟩
  · exact h e hmem

/-- どの命令も、その直前の自分の命令の列について `E` を満たす。 -/
def Obeyed (E : C → List (Act C R) → Prop) (tr : List (Event M)) : Prop :=
  ∀ tr₁ e tr₂, tr = tr₁ ++ e :: tr₂ → E e.cmd (own e.tid tr₂)

theorem obeyed_inductive : Inductive g E fun _ tr => Obeyed E tr := by
  refine ⟨fun {i c o s tr r s'} h _ hE _ tr₁ e tr₂ heq => ?_, fun h _ => h⟩
  cases tr₁ with
  | nil =>
      obtain ⟨rfl, rfl⟩ := List.cons.inj heq
      exact hE
  | cons e' tr₁ =>
      obtain ⟨-, rfl⟩ := List.cons.inj heq
      exact h tr₁ e tr₂ rfl

theorem Obeyed.of_append {tr₁ tr₂ : List (Event M)} (h : Obeyed E (tr₁ ++ tr₂)) : Obeyed E tr₂ := by
  rintro tr₃ e tr₄ rfl
  exact h (tr₁ ++ tr₃) e tr₄ (by simp)

/-- 関係 `Le` が、これまでの命令の直前の状態から、より後の状態へ向かって成り立つ。 -/
def Ordered (Le : M.State → M.State → Prop) (s : M.State) (tr : List (Event M)) : Prop :=
  (s :: tr.map Event.before).Pairwise fun later earlier => Le earlier later

variable {Le : M.State → M.State → Prop}

theorem Ordered.le {s : M.State} {tr : List (Event M)} (h : Ordered Le s tr) {e} (he : e ∈ tr) :
    Le e.before s :=
  (List.pairwise_cons.mp h).1 _ (List.mem_map_of_mem he)

theorem Ordered.le_of_append {s : M.State} {tr₁ tr₂ : List (Event M)} {e : Event M}
    (h : Ordered Le s (tr₁ ++ e :: tr₂)) {d} (he : d ∈ tr₂) : Le d.before e.before := by
  have h' := (List.pairwise_cons.mp h).2
  rw [List.map_append, List.pairwise_append] at h'
  exact (List.pairwise_cons.mp h'.2.1).1 _ (List.mem_map_of_mem he)

variable [IsTrans M.State Le]

theorem Ordered.env {s s' : M.State} {tr : List (Event M)} (h : Ordered Le s tr) (hs : Le s s') :
    Ordered Le s' tr := by
  obtain ⟨h₁, h₂⟩ := List.pairwise_cons.mp h
  exact List.pairwise_cons.mpr ⟨fun x hx => IsTrans.trans _ _ _ (h₁ x hx) hs, h₂⟩

theorem Ordered.cmd {s s' : M.State} {tr : List (Event M)} (h : Ordered Le s tr) (hs : Le s s') {i c r} :
    Ordered Le s' (⟨i, c, r, s⟩ :: tr) := by
  refine List.pairwise_cons.mpr ⟨fun x hx => ?_, h⟩
  rcases List.mem_cons.mp hx with rfl | hx
  · exact hs
  · exact IsTrans.trans _ _ _ ((List.pairwise_cons.mp h).1 x hx) hs

/-- 量 `f` は、`bad` に当たる命令でしか変わらない。 -/
def OnlyBy {β : Type} (bad : Event M → Prop) (f : M.State → β) (s : M.State) (tr : List (Event M)) : Prop :=
  ∀ tr₁ e tr₂, tr = tr₁ ++ e :: tr₂ → ¬bad e → (∀ e' ∈ tr₁, ¬bad e') → f e.before = f s

theorem OnlyBy.cmd {β : Type} {bad : Event M → Prop} {f : M.State → β} {s s' : M.State}
    {tr : List (Event M)} (h : OnlyBy bad f s tr) {i c r}
    (hs : ¬bad ⟨i, c, r, s⟩ → f s = f s') : OnlyBy bad f s' (⟨i, c, r, s⟩ :: tr) := by
  intro tr₁ e tr₂ heq he htr₁
  cases tr₁ with
  | nil =>
      obtain ⟨rfl, rfl⟩ := List.cons.inj heq
      exact hs he
  | cons e' tr₁ =>
      obtain ⟨rfl, rfl⟩ := List.cons.inj heq
      have hbad := htr₁ _ List.mem_cons_self
      rw [h tr₁ e tr₂ rfl he fun e'' he'' => htr₁ e'' (List.mem_cons_of_mem _ he''), hs hbad]

end Invariant

end RtcEgress.Lib
