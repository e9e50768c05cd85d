import RtcEgress.Lib.History

/-!
# 他のプログラムを挟まない実行

一つのプログラムが、他のプログラムの命令を挟まずに終わりまで実行されることを、関係 `Alone` で表す。
時間の経過などの環境の変化は、命令の前に挟まる。
-/

namespace RtcEgress.Lib

variable {C : Type} {R : C → Type} {M : Machine C R} {α β : Type}

/-- 環境の変化の列。 -/
abbrev EnvSteps (M : Machine C R) : M.State → M.State → Prop :=
  Relation.ReflTransGen fun s s' => ∃ e, M.env e s = some s'

/-- `s` から始めたプログラムが、単独で実行され、`a` を返して `s'` で終わる。 -/
inductive Alone (M : Machine C R) : Prog C R α → M.State → α → M.State → Prop where
  | ret {a s} : Alone M (.ret a) s a s
  | call {c k o r s s₁ s₂ a s'} : EnvSteps M s s₁ → M.exec o c s₁ = some (r, s₂) → Alone M (k r) s₂ a s' →
      Alone M (.call c k) s a s'

namespace Alone

theorem ret_inv {a b : α} {s s' : M.State} (h : Alone M (.ret a) s b s') : b = a ∧ s' = s := by
  cases h
  exact ⟨rfl, rfl⟩

theorem call_inv {c : C} {k : R c → Prog C R α} {s s' : M.State} {a : α} (h : Alone M (.call c k) s a s') :
    ∃ o r s₁ s₂, EnvSteps M s s₁ ∧ M.exec o c s₁ = some (r, s₂) ∧ Alone M (k r) s₂ a s' := by
  cases h with
  | call henv hexec hrest => exact ⟨_, _, _, _, henv, hexec, hrest⟩

theorem bind_inv {f : α → Prog C R β} {s s' : M.State} {b : β} :
    (p : Prog C R α) → Alone M (p >>= f) s b s' → ∃ a s₁, Alone M p s a s₁ ∧ Alone M (f a) s₁ b s'
  | .ret a, h => ⟨a, s, .ret, h⟩
  | .call c k, h => by
      obtain ⟨o, r, s₁, s₂, henv, hexec, hrest⟩ := call_inv h
      obtain ⟨a, s₃, hk, hf⟩ := bind_inv (k r) hrest
      exact ⟨a, s₃, .call henv hexec hk, hf⟩

/-- プログラムが出す命令と環境の変化が保つ性質は、実行の全体で保たれる。 -/
theorem keeps {I : M.State → Prop} {E : C → Prop} (hcmd : ∀ o c s r s', E c → I s → M.exec o c s = some (r, s') → I s')
    (henv : ∀ e s s', I s → M.env e s = some s' → I s') {p : Prog C R α} {s s' : M.State} {a : α}
    {h : List (Act C R)} {Q : α → List (Act C R) → Prop} (hp : p.Follows (fun c _ => E c) Q h) (hs : I s)
    (hrun : Alone M p s a s') : I s' := by
  induction hrun generalizing h with
  | ret => exact hs
  | @call c k o r s s₁ s₂ a s' hsteps hexec _ ih =>
      have hs₁ : I s₁ := by
        clear hexec
        induction hsteps with
        | refl => exact hs
        | tail _ he ih' =>
            obtain ⟨e, he⟩ := he
            exact henv e _ _ ih' he
      exact ih (hp.2 r) (hcmd o c s₁ r s₂ hp.1 hs₁ hexec)

/-- 各要素の本体が保つ性質は、全体でも保たれる。 -/
theorem forEach_keeps {I : M.State → Prop} {f : β → Prog C R Unit} (hf : ∀ x s s', I s → Alone M (f x) s () s' → I s') :
    (xs : List β) → ∀ {s s'}, I s → Alone M (Prog.forEach f xs) s () s' → I s'
  | [], _, _, hI, h => (ret_inv h).2 ▸ hI
  | x :: xs, _, _, hI, h => by
      obtain ⟨_, s₁, hx, hxs⟩ := bind_inv (f x) h
      exact forEach_keeps hf xs (hf x _ s₁ hI hx) hxs

/-- ある要素の本体が成り立たせ、どの本体も保つ性質は、全体のあとで成り立つ。 -/
theorem forEach_reaches {I Q : M.State → Prop} {f : β → Prog C R Unit} {y : β}
    (hI : ∀ x s s', I s → Alone M (f x) s () s' → I s') (hQ : ∀ x s s', Q s → Alone M (f x) s () s' → Q s')
    (hy : ∀ s s', I s → Alone M (f y) s () s' → Q s') :
    (xs : List β) → y ∈ xs → ∀ {s s'}, I s → Alone M (Prog.forEach f xs) s () s' → Q s'
  | x :: xs, hm, _, _, hs, h => by
      obtain ⟨_, s₁, hx, hxs⟩ := bind_inv (f x) h
      rcases List.mem_cons.mp hm with rfl | hm
      · exact forEach_keeps hQ xs (hy _ s₁ hs hx) hxs
      · exact forEach_reaches hI hQ hy xs hm (hI x _ s₁ hs hx) hxs

/-- どの命令も実行できるなら、どのプログラムも終わる。 -/
theorem exists_of_total (htotal : ∀ c s, ∃ o r s', M.exec o c s = some (r, s')) (p : Prog C R α) (s : M.State) :
    ∃ a s', Alone M p s a s' := by
  induction p generalizing s with
  | ret a => exact ⟨a, s, .ret⟩
  | call c k ih =>
      obtain ⟨o, r, s₁, hexec⟩ := htotal c s
      obtain ⟨a, s', hk⟩ := ih r s₁
      exact ⟨a, s', .call .refl hexec hk⟩

theorem runs_env {g : Guard M} {s s' : M.State} (h : EnvSteps M s s') (ts : List (Prog C R Unit))
    (tr : List (Event M)) : Run g ⟨s, ts, tr⟩ ⟨s', ts, tr⟩ := by
  induction h with
  | refl => exact .refl
  | tail _ henv ih =>
      obtain ⟨e, he⟩ := henv
      exact ih.tail (.env he)

/-- 単独の実行は、並行な実行の一つである。 -/
theorem run {p : Prog C R Unit} {s s' : M.State} {a : Unit} (h : Alone M p s a s') {ts : List (Prog C R Unit)}
    {i : Nat} (hi : ts[i]? = some p) (tr : List (Event M)) :
    ∃ tr', Run (.ofCalls fun _ => True) ⟨s, ts, tr⟩ ⟨s', ts.set i (.ret ()), tr'⟩ := by
  induction h generalizing ts tr with
  | ret =>
      obtain ⟨hlt, hget⟩ := List.getElem?_eq_some_iff.mp hi
      refine ⟨tr, ?_⟩
      rw [← hget, List.set_getElem_self]
  | call henv hexec _ ih =>
      obtain ⟨hlt, -⟩ := List.getElem?_eq_some_iff.mp hi
      obtain ⟨tr', hrun⟩ := ih (List.getElem?_set_self hlt) _
      rw [List.set_set] at hrun
      exact ⟨tr', ((runs_env henv ts tr).tail (.run hi trivial hexec)).trans hrun⟩

end Alone

/-! ## 出した命令を添えた実行 -/

/-- 単独の実行が、命令と応答 `acts` をこの順に出す。 -/
inductive Traced (M : Machine C R) : Prog C R α → M.State → List (Act C R) → α → M.State → Prop where
  | ret {a s} : Traced M (.ret a) s [] a s
  | call {c k o r s s₁ s₂ acts a s'} : EnvSteps M s s₁ → M.exec o c s₁ = some (r, s₂) →
      Traced M (k r) s₂ acts a s' → Traced M (.call c k) s (⟨c, r⟩ :: acts) a s'

/-- 状態 `s` から、命令と応答 `acts` がこの順に出て、状態 `s'` に至る。プログラムには依らない。 -/
inductive Executes (M : Machine C R) : M.State → List (Act C R) → M.State → Prop where
  | env {s s'} : EnvSteps M s s' → Executes M s [] s'
  | call {c o r s s₁ s₂ acts s'} : EnvSteps M s s₁ → M.exec o c s₁ = some (r, s₂) →
      Executes M s₂ acts s' → Executes M s (⟨c, r⟩ :: acts) s'

namespace Executes

theorem trans {s s₁ s' : M.State} {acts acts' : List (Act C R)} (h : Executes M s acts s₁) (h' : Executes M s₁ acts' s') :
    Executes M s (acts ++ acts') s' := by
  induction h with
  | env henv =>
      cases h' with
      | env henv' => exact .env (henv.trans henv')
      | call henv' hexec hrest => exact .call (henv.trans henv') hexec hrest
  | call henv hexec _ ih => exact .call henv hexec (ih h')

end Executes

/-- 環境の変化も挟まずに、状態から決まらない応答を `o` で選んで実行した結果。命令の列と返した値と終わりの状態である。 -/
def Prog.evaluate (M : Machine C R) (o : M.Oracle) : Prog C R α → M.State → Option (List (Act C R) × α × M.State)
  | .ret a, s => some ([], a, s)
  | .call c k, s => (M.exec o c s).bind fun rs =>
      ((k rs.1).evaluate M o rs.2).map fun x => (⟨c, rs.1⟩ :: x.1, x.2)

namespace Traced

theorem ret_inv {a b : α} {s s' : M.State} {acts : List (Act C R)} (h : Traced M (.ret a) s acts b s') :
    b = a ∧ s' = s ∧ acts = [] := by
  cases h
  exact ⟨rfl, rfl, rfl⟩

theorem call_inv {c : C} {k : R c → Prog C R α} {s s' : M.State} {acts : List (Act C R)} {a : α}
    (h : Traced M (.call c k) s acts a s') :
    ∃ o r s₁ s₂ rest, acts = ⟨c, r⟩ :: rest ∧ EnvSteps M s s₁ ∧ M.exec o c s₁ = some (r, s₂) ∧
      Traced M (k r) s₂ rest a s' := by
  cases h with
  | call henv hexec hrest => exact ⟨_, _, _, _, _, rfl, henv, hexec, hrest⟩

theorem bind_inv {f : α → Prog C R β} {s s' : M.State} {b : β} : (p : Prog C R α) → {acts : List (Act C R)} →
    Traced M (p >>= f) s acts b s' →
    ∃ a s₁ acts₁ acts₂, acts = acts₁ ++ acts₂ ∧ Traced M p s acts₁ a s₁ ∧ Traced M (f a) s₁ acts₂ b s'
  | .ret a, acts, h => ⟨a, s, [], acts, rfl, .ret, h⟩
  | .call c k, _, h => by
      obtain ⟨o, r, s₁, s₂, rest, rfl, henv, hexec, hrest⟩ := call_inv h
      obtain ⟨a, s₃, acts₁, acts₂, rfl, hk, hf⟩ := bind_inv (k r) hrest
      exact ⟨a, s₃, ⟨c, r⟩ :: acts₁, acts₂, rfl, .call henv hexec hk, hf⟩

theorem alone {p : Prog C R α} {s s' : M.State} {acts : List (Act C R)} {a : α} (h : Traced M p s acts a s') :
    Alone M p s a s' := by
  induction h with
  | ret => exact .ret
  | call henv hexec _ ih => exact .call henv hexec ih

/-- 出した命令の列だけを残す。 -/
theorem executes {p : Prog C R α} {s s' : M.State} {acts : List (Act C R)} {a : α} (h : Traced M p s acts a s') :
    Executes M s acts s' := by
  induction h with
  | ret => exact .env .refl
  | call henv hexec _ ih => exact .call henv hexec ih

/-- 環境の変化のない実行も、単独の実行である。 -/
theorem of_evaluate {o : M.Oracle} {p : Prog C R α} {s s' : M.State} {acts : List (Act C R)} {a : α}
    (h : p.evaluate M o s = some (acts, a, s')) : Traced M p s acts a s' := by
  induction p generalizing s acts with
  | ret b =>
      cases h
      exact .ret
  | call c k ih =>
      obtain ⟨⟨r, s₁⟩, hexec, hrest⟩ := Option.bind_eq_some_iff.mp h
      obtain ⟨⟨rest, b, s₂⟩, heval, heq⟩ := Option.map_eq_some_iff.mp hrest
      cases heq
      exact .call .refl hexec (ih r heval)

/-- どの命令も `E` を満たすプログラムの命令は、`E` を満たす。 -/
theorem forall_acts {E : C → Prop} {p : Prog C R α} {s s' : M.State} {acts : List (Act C R)} {a : α}
    {h : List (Act C R)} {Q : α → List (Act C R) → Prop} (hp : p.Follows (fun c _ => E c) Q h)
    (hrun : Traced M p s acts a s') : ∀ x ∈ acts, E x.1 := by
  induction hrun generalizing h with
  | ret => simp
  | call _ _ _ ih =>
      intro x hx
      rcases List.mem_cons.mp hx with rfl | hx
      · exact hp.1
      · exact ih (hp.2 _) x hx

/-- 単独の実行は、出した命令の列を `Q` の成り立つところで終える。 -/
theorem of_follows {E : C → List (Act C R) → Prop} {Q : α → List (Act C R) → Prop} {p : Prog C R α}
    {h : List (Act C R)} {s s' : M.State} {acts : List (Act C R)} {a : α} (hp : p.Follows E Q h)
    (hrun : Traced M p s acts a s') : Q a (acts.reverse ++ h) := by
  induction hrun generalizing h with
  | ret => exact hp
  | call _ _ _ ih =>
      have hq := ih (hp.2 _)
      rwa [List.reverse_cons, List.append_assoc]

/-- 命令だけに課した条件は、要約のないときの条件である。 -/
theorem forall_tracks {E : C → Prop} {p : Prog C R α} {s s' : M.State} {acts : List (Act C R)} {a : α}
    (hp : p.Tracks (fun c (_ : Unit) => E c) (fun _ _ u => u) (fun _ _ => True) ()) (hrun : Traced M p s acts a s') :
    ∀ x ∈ acts, E x.1 := by
  induction hrun with
  | ret => simp
  | call _ _ _ ih =>
      intro x hx
      rcases List.mem_cons.mp hx with rfl | hx
      · exact hp.1
      · exact ih (hp.2 _) x hx

/-- 要約についての証明は、実行が出した命令の要約についての証明である。 -/
theorem of_tracks {σ : Type} {ok : C → σ → Prop} {next : (c : C) → R c → σ → σ} {Q : α → σ → Prop} {p : Prog C R α}
    {u : σ} {s s' : M.State} {acts : List (Act C R)} {a : α} (hp : p.Tracks ok next Q u)
    (hrun : Traced M p s acts a s') : Q a (acts.foldl (fun u x => next x.1 x.2 u) u) := by
  induction hrun generalizing u with
  | ret => exact hp
  | call _ _ _ ih => exact ih (hp.2 _)

/-- 命令と環境の変化のそれぞれに成り立つ推移的な関係は、実行の前後にも成り立つ。 -/
theorem relates {r : M.State → M.State → Prop} (hrefl : ∀ s, r s s) (htrans : ∀ {s₁ s₂ s₃}, r s₁ s₂ → r s₂ s₃ → r s₁ s₃)
    (hexec : ∀ o c s x s', M.exec o c s = some (x, s') → r s s') (henv : ∀ e s s', M.env e s = some s' → r s s')
    {p : Prog C R α} {s s' : M.State} {acts : List (Act C R)} {a : α} (hrun : Traced M p s acts a s') : r s s' := by
  have hsteps : ∀ {s s'}, EnvSteps M s s' → r s s' := by
    intro s s' h
    induction h with
    | refl => exact hrefl _
    | tail _ he ih =>
        obtain ⟨e, he⟩ := he
        exact htrans ih (henv e _ _ he)
  induction hrun with
  | ret => exact hrefl _
  | call henv hrun _ ih => exact htrans (htrans (hsteps henv) (hexec _ _ _ _ _ hrun)) ih

end Traced

end RtcEgress.Lib
