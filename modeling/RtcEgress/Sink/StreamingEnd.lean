import Mathlib.Data.List.Chain
import RtcEgress.Sink.StreamingSink

/-!
# 配信の終わり方

配信のスレッドが終わるのは、止められたか、失敗したか、期限が来たときだけであり、登録された関数は、最後の検査で止められて
いないときに限り、一度だけ呼ばれる。これらの変数はどこで読んでも変わり得るが、真になったあとは偽に戻らない。
-/

namespace RtcEgress.Sink.StreamingSink

open RtcEgress.Lib

abbrev Acts := List (Act Cmd Cmd.Resp)

variable {muxer : Protocol → Bool} {c : Initialized muxer} {α β : Type} {s s₁ s' : State} {acts : Acts}

abbrev Ran (c : Initialized muxer) (p : P α) (s : State) (acts : Acts) (a : α) (s' : State) : Prop :=
  Traced (machine c) p s acts a s'

/-! ## 主張 -/

/-- 止められたか、失敗したか、期限が来た。 -/
def State.Ended (s : State) : Prop := s.stopping = true ∨ s.failed = true ∨ s.durationReached = true

/-- 呼んだ関数と、渡した状態。 -/
def completions (acts : Acts) : List (Nat × String) :=
  acts.filterMap fun x => match x.1 with
    | .complete callback _ status _ => some (callback, status)
    | _ => none

/-- 終わりに、状態 `s₁` で登録された関数を読み、そのあとの状態 `s₂` で止められたかを調べた。 -/
def FinalCheck (c : Initialized muxer) (s : State) (acts : Acts) (s' s₁ s₂ : State) : Prop :=
  ∃ before after : Acts, acts = before ++ ⟨.getCallback, s₁.callback⟩ :: ⟨.stopping .final, s₂.stopping⟩ :: after ∧
    Executes (machine c) s before s₁ ∧ EnvSteps (machine c) s₁ s₂ ∧ Executes (machine c) s₂ after s'

/-- 呼ぶのは登録された関数だけであり、最後の検査で止められていないときに限り、一度だけ呼ぶ。 -/
structure Reports (acts : Acts) (s₁ s₂ : State) : Prop where
  registered : ∀ x ∈ completions acts, s₁.callback = some x.1
  once : s₁.callback.isSome = true → ((completions acts).length = 1 ↔ s₂.stopping = false)

/-- 配信は、一つの終わり方をして、一度だけそれを通知する。 -/
structure EndsOnce (c : Initialized muxer) (s : State) (acts : Acts) (returned : Bool) (s' : State) : Prop where
  ended : returned = true → s'.Ended
  atMostOnce : (completions acts).length ≤ 1
  reported : returned = true → ∃ s₁ s₂, FinalCheck c s acts s' s₁ s₂ ∧ Reports acts s₁ s₂
  status : ∀ x ∈ completions acts, ⟨.getCallback, some x.1⟩ ∈ acts ∧
    (x.2 = "failed" ∧ ⟨.failed .status, true⟩ ∈ acts ∧ s'.failed = true ∨
      x.2 = "success" ∧ ⟨.failed .status, false⟩ ∈ acts ∧ ⟨.durationReached .final, true⟩ ∈ acts)

/-- `openSession` の呼び出しの数。どの呼び出しも、止められたかを一度だけ読む。 -/
def openings (acts : Acts) : Nat := acts.countP fun x => x.1 = .stopping .openSession

/-- 順に待った長さ。 -/
def waits (acts : Acts) : List Int :=
  acts.filterMap fun x => match x.1 with
    | .waitUntil delayMs => some delayMs
    | _ => none

/-- 三つの終わりの条件。 -/
inductive Flag where
  | stopping | failed | durationReached
  deriving DecidableEq

/-- 読んだ条件と、その値。 -/
def reads : Act Cmd Cmd.Resp → Option (Flag × Bool)
  | ⟨.stopping _, r⟩ => some (.stopping, r)
  | ⟨.failed _, r⟩ => some (.failed, r)
  | ⟨.durationReached _, r⟩ => some (.durationReached, r)
  | _ => none

/-- 終わりの条件を真と読んだ。 -/
def sawEnd (x : Act Cmd Cmd.Resp) : Bool := (reads x).any Prod.snd

/-- 接続のやり直しは、決まった回数と間隔の中で行われる。`openSession` は、接続できたときに限り、最後にミキサーを空にする。 -/
structure ReconnectsWithin (config : StreamingSink.Config) (acts : Acts) (opened : Bool) (x : Publisher) : Prop where
  attempts : openings acts ≤ config.reconnectAttempts
  firstWait : ∀ delayMs ∈ (waits acts).head?, delayMs = config.reconnectDelayMs
  doubling : (waits acts).IsChain fun delayMs next => next ≤ 2 * delayMs
  bounded : ∀ delayMs ∈ waits acts, delayMs ≤ 10000
  succeeded : opened = true ↔ ⟨.resetMixer, ()⟩ ∈ acts
  exhausted : ⟨.setFailed, ()⟩ ∈ acts → (∀ a ∈ acts, sawEnd a = false) ∧ opened = false ∧
    x.failureMessage = if x.outputFailed then StreamingSink.exhausted config else restartFailed

/-- どの実行でも、配信は一つの終わり方をし、接続のやり直しは限られる。 -/
def EndsInOneWay (muxer : Protocol → Bool) : Prop :=
  ∀ c : Initialized muxer,
    (∀ frameSize statusFirst n x s acts returned s', Ran c (run c frameSize statusFirst n x) s acts returned s' →
      EndsOnce c s acts returned s') ∧
    ∀ x s acts r s', Ran c (reconnect c.config x) s acts r s' → ReconnectsWithin c.config acts r.1 r.2

/-! ## 変わり得る向き -/

/-- 終わりの条件は、成り立ったあとも成り立つ。 -/
structure Grows (s s' : State) : Prop where
  stopping : s.stopping = true → s'.stopping = true
  failed : s.failed = true → s'.failed = true
  now : s.now ≤ s'.now
  taskDeadline : s'.taskDeadline = s.taskDeadline

theorem Grows.refl (s : State) : Grows s s := ⟨id, id, le_rfl, rfl⟩

theorem Grows.trans (h : Grows s s₁) (h' : Grows s₁ s') : Grows s s' :=
  ⟨h'.stopping ∘ h.stopping, h'.failed ∘ h.failed, h.now.trans h'.now, h'.taskDeadline.trans h.taskDeadline⟩

theorem Grows.durationReached (h : Grows s s') (hs : s.durationReached = true) : s'.durationReached = true := by
  have hnow := h.now
  simp only [State.durationReached, decide_eq_true_eq] at hs ⊢
  rw [h.taskDeadline]
  omega

theorem Grows.ended (h : Grows s s') : s.Ended → s'.Ended
  | .inl hs => .inl (h.stopping hs)
  | .inr (.inl hs) => .inr (.inl (h.failed hs))
  | .inr (.inr hs) => .inr (.inr (h.durationReached hs))

theorem exec_grows {o : Outcome} {cmd : Cmd} {r : cmd.Resp} (h : cmd.exec o s = some (r, s')) : Grows s s' := by
  cases cmd with
  | setFailed | setReconnecting | setActive =>
      cases h
      exact ⟨id, by simp, le_rfl, rfl⟩
  | wake | takeVideo =>
      simp only [Cmd.exec, Option.ite_none_right_eq_some, Option.some.injEq, Prod.mk.injEq] at h
      obtain ⟨-, -, rfl⟩ := h
      exact ⟨id, id, le_rfl, rfl⟩
  | _ =>
      cases h
      exact .refl s

theorem apply_grows : (e : Change) → Grows s (e.apply s)
  | .stop => ⟨fun _ => rfl, id, le_rfl, rfl⟩
  | .fail => ⟨id, fun _ => rfl, le_rfl, rfl⟩
  | .composed _ | .setCompletionCallback _ => ⟨id, id, le_rfl, rfl⟩
  | .tick ms => ⟨id, id, Int.le_add_of_nonneg_right (Int.natCast_nonneg ms), rfl⟩

theorem Ran.grows {p : P α} {a : α} (h : Ran c p s acts a s') : Grows s s' := by
  refine Traced.relates (r := Grows) Grows.refl Grows.trans (fun _ _ _ _ _ h => exec_grows h) ?_ h
  intro e s s' he
  cases he
  exact apply_grows e

theorem EnvSteps.grows (h : EnvSteps (machine c) s s') : Grows s s' := by
  induction h with
  | refl => exact .refl s
  | tail _ he ih =>
      obtain ⟨e, he⟩ := he
      cases he
      exact ih.trans (apply_grows e)

/-! ## 読んだ値 -/

def Flag.holds (f : Flag) (s : State) : Bool :=
  match f with
  | .stopping => s.stopping
  | .failed => s.failed
  | .durationReached => s.durationReached

theorem Grows.holds (h : Grows s s') : {f : Flag} → f.holds s = true → f.holds s' = true
  | .stopping, hs => h.stopping hs
  | .failed, hs => h.failed hs
  | .durationReached, hs => h.durationReached hs

theorem Flag.ended : {f : Flag} → f.holds s = true → s.Ended
  | .stopping, h => .inl h
  | .failed, h => .inr (.inl h)
  | .durationReached, h => .inr (.inr h)

theorem State.Ended.exists_holds : s.Ended → ∃ f : Flag, f.holds s = true
  | .inl h => ⟨.stopping, h⟩
  | .inr (.inl h) => ⟨.failed, h⟩
  | .inr (.inr h) => ⟨.durationReached, h⟩

variable {f : Flag} {b : Bool} {x : Act Cmd Cmd.Resp}

/-- 読んだ値は、そのときの状態の値である。 -/
theorem reads_exec {o : Outcome} {cmd : Cmd} {r : cmd.Resp} (h : cmd.exec o s = some (r, s'))
    (hread : reads ⟨cmd, r⟩ = some (f, b)) : f.holds s = b := by
  cases cmd with
  | stopping | failed | durationReached =>
      cases h
      cases hread
      rfl
  | _ => cases hread

/-- 真と読んだ条件は、それから先でも成り立つ。 -/
theorem Ran.holds_of_reads {p : P α} {a : α} {s s' : (machine c).State} (h : Ran c p s acts a s') (hx : x ∈ acts)
    (hread : reads x = some (f, true)) : f.holds s' = true := by
  induction h with
  | ret => simp at hx
  | call _ hexec hrest ih =>
      rcases List.mem_cons.mp hx with rfl | hx
      · exact (Ran.grows hrest).holds ((exec_grows hexec).holds (reads_exec hexec hread))
      · exact ih hx

/-- 成り立っている条件は、真と読む。 -/
theorem Ran.reads_of_holds {p : P α} {a : α} {s s' : (machine c).State} (h : Ran c p s acts a s')
    (hs : f.holds s = true) (hx : x ∈ acts) (hread : reads x = some (f, b)) : b = true := by
  induction h with
  | ret => simp at hx
  | call henv hexec _ ih =>
      have hs₁ := (EnvSteps.grows henv).holds hs
      rcases List.mem_cons.mp hx with rfl | hx
      · exact (reads_exec hexec hread).symm.trans hs₁
      · exact ih ((exec_grows hexec).holds hs₁) hx

/-- 終わりの条件を真と読んだか、自分で失敗とした。 -/
def ends (x : Act Cmd Cmd.Resp) : Bool := sawEnd x || x.1 = .setFailed

theorem Ran.ended_of_sawEnd {p : P α} {a : α} (h : Ran c p s acts a s') (hx : x ∈ acts) (hsaw : sawEnd x = true) :
    s'.Ended := by
  obtain ⟨⟨f, b⟩, hread, rfl⟩ := (Option.any_eq_true _ _).mp hsaw
  exact Flag.ended (h.holds_of_reads hx hread)

theorem Ran.failed_of_setFailed {p : P α} {a : α} {s s' : (machine c).State} (h : Ran c p s acts a s')
    (hx : ⟨.setFailed, ()⟩ ∈ acts) : State.failed s' = true := by
  induction h with
  | ret => simp at hx
  | call _ hexec hrest ih =>
      rcases List.mem_cons.mp hx with heq | hx
      · cases heq
        cases hexec
        exact (Ran.grows hrest).failed rfl
      · exact ih hx

/-- 終わりの条件を一度知れば、それから先でも成り立つ。 -/
theorem Ran.ended_of_ends {p : P α} {a : α} (h : Ran c p s acts a s') (hends : ∃ x ∈ acts, ends x = true) :
    s'.Ended := by
  obtain ⟨⟨cmd, r⟩, hx, htrue⟩ := hends
  rcases (Bool.or_eq_true _ _).mp htrue with hsaw | hset
  · exact h.ended_of_sawEnd hx hsaw
  · cases of_decide_eq_true hset
    exact .inr (.inl (h.failed_of_setFailed hx))

/-! ## 終わりの条件を知って終わる -/

/-- 命令の列のどこかで、終わりの条件を知った。 -/
def noticed (cmd : Cmd) (r : cmd.Resp) (known : Bool) : Bool := known || ends ⟨cmd, r⟩

theorem foldl_noticed (acts : Acts) (known : Bool) :
    acts.foldl (fun known x => noticed x.1 x.2 known) known = (known || acts.any ends) := by
  induction acts generalizing known with
  | nil => simp
  | cons x acts ih => rw [List.foldl_cons, ih, noticed, List.any_cons, Bool.or_assoc]

/-- `Q` の成り立つ結果で終わるときには、終わりの条件を知っている。 -/
abbrev Notices (Q : α → Prop) (p : P α) (known : Bool) : Prop :=
  p.Tracks (fun _ _ => True) noticed (fun a known => Q a → known = true) known

theorem Notices.ended {Q : α → Prop} {p : P α} {a : α} (hp : Notices Q p false) (h : Ran c p s acts a s') (ha : Q a) :
    s'.Ended := by
  have hknown := Traced.of_tracks hp h ha
  rw [foldl_noticed, Bool.false_or, List.any_eq_true] at hknown
  exact h.ended_of_ends hknown

section Programs

attribute [local simp] noticed ends sawEnd reads Prog.perform

variable {config : StreamingSink.Config} {known : Bool}

theorem notices_ended {place : Place} : Notices (· = true) (ended place) known := by
  simp [ended]

theorem notices_goesOn {place : Place} : Notices (· = false) (goesOn place) known := by
  simp [goesOn]

theorem notices_giveUp {x : Publisher} : Notices (fun _ => True) (giveUp config x) known := by
  simp [giveUp, goesOn]

theorem notices_reconnect {x : Publisher} : Notices (·.1 = false) (reconnect config x) known := by
  simp only [reconnect, Prog.perform_bind, Prog.tracks_call, true_and]
  intro _ _ _
  refine Prog.Tracks.bind ?_ (Prog.Tracks.any _ _)
  rintro ⟨opened, x⟩ known -
  cases opened with
  | true => simp
  | false =>
      refine Prog.Tracks.bind ?_ notices_giveUp
      intro x known hknown _
      exact hknown trivial

theorem notices_recover {mediaOk : Bool} {x : Publisher} : Notices (·.1 = false) (recover config mediaOk x) known := by
  unfold recover
  cases mediaOk with
  | true => simp
  | false =>
      refine Prog.Tracks.bind ?_ (Prog.Tracks.any _ _)
      intro goesOn known _
      cases goesOn with
      | false => simp
      | true =>
          simp only [Bool.not_true, Bool.false_eq_true, if_false]
          split
          · exact notices_reconnect
          · simp

theorem notices_publishOnce {frameSize : Nat} {x : Publisher} :
    Notices (·.1 = false) (publishOnce config frameSize x) known := by
  refine Prog.Tracks.bind ?_ notices_ended
  intro finished known hknown
  cases finished with
  | true => simpa using hknown
  | false =>
      simp only [Bool.false_eq_true, if_false, Prog.perform_bind, Prog.tracks_call, true_and]
      intro limit frame stopping
      cases stopping with
      | true => simp
      | false =>
          simp only [Bool.false_eq_true, if_false, Prog.tracks_call, true_and]
          intro failed
          cases failed with
          | true => simp
          | false =>
              refine Prog.Tracks.bind (fun _ _ _ => ?_) (Prog.Tracks.any _ _)
              refine Prog.Tracks.bind (fun _ _ _ => ?_) (Prog.Tracks.any _ _)
              refine Prog.Tracks.bind (fun _ _ _ => ?_) (Prog.Tracks.any _ _)
              exact notices_recover

theorem notices_publish {frameSize : Nat} :
    (n : Nat) → {x : Publisher} → {known : Bool} → Notices (·.isSome = true) (publish config frameSize n x) known
  | 0, _, _ => by simp [publish]
  | n + 1, x, known => by
      refine Prog.Tracks.bind ?_ notices_publishOnce
      rintro ⟨again, x⟩ known hknown
      cases again with
      | true => exact notices_publish n
      | false => simpa using hknown

end Programs

/-! ## 接続のやり直し -/

/-- 待つ長さの列。 -/
def backoff : Nat → Int → List Int
  | 0, _ => []
  | n + 1, delayMs => delayMs :: backoff n (min (delayMs * 2) 10000)

theorem backoff_le (n : Nat) (delayMs : Int) (h : delayMs ≤ 10000) : ∀ d ∈ backoff n delayMs, d ≤ 10000 := by
  induction n generalizing delayMs with
  | zero => simp [backoff]
  | succ n ih =>
      intro d hd
      rcases List.mem_cons.mp hd with rfl | hd
      · exact h
      · exact ih _ (min_le_right _ _) d hd

theorem backoff_chain (n : Nat) (delayMs : Int) : (backoff n delayMs).IsChain fun d next => next ≤ 2 * d := by
  induction n generalizing delayMs with
  | zero => exact .nil
  | succ n ih =>
      refine List.IsChain.cons (ih _) fun next hnext => ?_
      cases n with
      | zero => simp [backoff] at hnext
      | succ n =>
          simp only [backoff, List.head?_cons, Option.mem_some_iff] at hnext
          omega

theorem head?_backoff {n : Nat} {delayMs : Int} {ws : List Int} (h : ws <+: backoff n delayMs) : ∀ d ∈ ws.head?, d = delayMs := by
  intro d hd
  cases ws with
  | nil => simp at hd
  | cons w ws =>
      cases n with
      | zero => simp [backoff] at h
      | succ n =>
          obtain ⟨rfl, -⟩ := List.cons_prefix_cons.mp h
          simpa using hd.symm

/-- 接続のやり直しの記録。 -/
structure Retries where
  openings : Nat
  waits : List Int
  reset : Bool

def Retries.next (cmd : Cmd) (_ : cmd.Resp) (u : Retries) : Retries where
  openings := if cmd = .stopping .openSession then u.openings + 1 else u.openings
  waits := match cmd with
    | .waitUntil delayMs => u.waits ++ [delayMs]
    | _ => u.waits
  reset := u.reset || cmd = .resetMixer

theorem foldl_retries (acts : Acts) (u : Retries) : acts.foldl (fun u x => u.next x.1 x.2) u =
    ⟨u.openings + openings acts, u.waits ++ waits acts, u.reset || acts.any fun x => x.1 = .resetMixer⟩ := by
  induction acts generalizing u with
  | nil => simp [openings, waits]
  | cons x acts ih =>
      obtain ⟨cmd, r⟩ := x
      rw [List.foldl_cons, ih]
      cases cmd with
      | stopping place =>
          simp only [Retries.next, openings, waits, List.countP_cons, Cmd.stopping.injEq, decide_eq_true_eq]
          split <;> simp [Nat.add_assoc, Nat.add_comm]
      | _ => simp [Retries.next, openings, waits]

theorem tracks_openSession {x : Publisher} {u : Retries} :
    (openSession x).Tracks (fun _ _ => True) Retries.next
      (fun r u' => u' = { u with openings := u.openings + 1, reset := u.reset || r.1 }) u := by
  simp [openSession, Retries.next, Prog.perform]

theorem tracks_ended {u : Retries} :
    (ended .reconnect).Tracks (fun _ _ => True) Retries.next (fun _ u' => u' = u) u := by
  simp [ended, Retries.next, Prog.perform]

/-- 高々 `n` 回、`delayMs` から始まる間隔で試した。 -/
structure Retried (n : Nat) (delayMs : Int) (u : Retries) (opened : Bool) (u' : Retries) : Prop where
  openings : u'.openings ≤ u.openings + n
  waits : ∃ ws, ws <+: backoff n delayMs ∧ u'.waits = u.waits ++ ws
  reset : u'.reset = (u.reset || opened)

/-- 待っただけで終わるか、待ってから一度接続した。 -/
theorem Retried.once {n openings : Nat} {delayMs : Int} {u : Retries} {opened : Bool} (h : openings ≤ u.openings + 1) :
    Retried (n + 1) delayMs u opened ⟨openings, u.waits ++ [delayMs], u.reset || opened⟩ :=
  ⟨by simp only; omega, ⟨[delayMs], ⟨_, rfl⟩, rfl⟩, rfl⟩

theorem Retried.next {n : Nat} {delayMs : Int} {u u' : Retries} {opened : Bool}
    (h : Retried n (min (delayMs * 2) 10000) ⟨u.openings + 1, u.waits ++ [delayMs], u.reset⟩ opened u') :
    Retried (n + 1) delayMs u opened u' := by
  obtain ⟨ws, hbackoff, hwaits⟩ := h.waits
  refine ⟨?_, ⟨delayMs :: ws, ?_, ?_⟩, h.reset⟩
  · have hle := h.openings
    simp only at hle
    omega
  · exact (List.prefix_cons_inj delayMs).mpr hbackoff
  · rw [hwaits, List.append_assoc, List.singleton_append]

/-- 一回ごとに、待ってから高々一度だけ接続する。 -/
theorem tracks_attempts : (n : Nat) → {delayMs : Int} → {x : Publisher} → {u : Retries} →
    (attempts n delayMs x).Tracks (fun _ _ => True) Retries.next (fun r u' => Retried n delayMs u r.1 u') u
  | 0, _, _, u => ⟨le_rfl, ⟨[], List.prefix_rfl, by simp⟩, by simp⟩
  | n + 1, delayMs, x, u => by
      simp only [attempts, Prog.perform_bind, Prog.tracks_call, true_and]
      intro limit _
      have hwait : Retries.next (.wake limit) () (Retries.next (.waitUntil delayMs) limit u) =
          ⟨u.openings, u.waits ++ [delayMs], u.reset⟩ := by
        simp [Retries.next]
      rw [hwait]
      refine Prog.Tracks.bind ?_ tracks_ended
      rintro finished u₁ rfl
      cases finished with
      | true =>
          have hover : Retried (n + 1) delayMs u false ⟨u.openings, u.waits ++ [delayMs], u.reset || false⟩ :=
            .once (Nat.le_succ _)
          simpa using hover
      | false =>
          refine Prog.Tracks.bind ?_ tracks_openSession
          rintro ⟨opened, x⟩ u₂ rfl
          have hopened : Retried (n + 1) delayMs u opened ⟨u.openings + 1, u.waits ++ [delayMs], u.reset || opened⟩ :=
            .once le_rfl
          cases opened with
          | true => simpa [Retries.next] using hopened
          | false =>
              simp only [Bool.false_eq_true, if_false, Prog.tracks_call, true_and]
              intro _ _
              split
              · simpa [Retries.next] using hopened
              · refine (tracks_attempts n).mono fun r u' h => Retried.next ?_
                simpa [Retries.next] using h

theorem tracks_giveUp {config : StreamingSink.Config} {x : Publisher} {u : Retries} :
    (giveUp config x).Tracks (fun _ _ => True) Retries.next (fun _ u' => u' = u) u := by
  simp [giveUp, goesOn, Retries.next, Prog.perform]

theorem tracks_reconnect {config : StreamingSink.Config} {x : Publisher} {u : Retries} :
    (reconnect config x).Tracks (fun _ _ => True) Retries.next
      (fun r u' => Retried config.reconnectAttempts.toNat config.reconnectDelayMs u r.1 u') u := by
  simp only [reconnect, Prog.perform_bind, Prog.tracks_call, true_and]
  intro _ _ _
  have hclosed :
      Retries.next .releaseCodecs () (Retries.next .closeOutput () (Retries.next (.setReconnecting true) () u)) = u := by
    simp [Retries.next]
  rw [hclosed]
  refine Prog.Tracks.bind ?_ (tracks_attempts _)
  rintro ⟨opened, x⟩ u' h
  cases opened with
  | true => simpa using h
  | false =>
      refine Prog.Tracks.bind ?_ tracks_giveUp
      rintro x _ rfl
      exact h

/-- 自分で失敗としたなら、どの条件も偽と読み、理由を残した。 -/
theorem follows_giveUp {config : StreamingSink.Config} {x : Publisher} :
    (giveUp config x).Follows (fun _ _ => True) (fun x' acts => ⟨.setFailed, ()⟩ ∈ acts →
      (∀ f, ∃ a ∈ acts, reads a = some (f, false)) ∧ (∀ a ∈ acts, sawEnd a = false) ∧
        x'.failureMessage = if x'.outputFailed then exhausted config else restartFailed) [] := by
  refine ⟨trivial, fun _ => ⟨trivial, fun stopping => ?_⟩⟩
  cases stopping with
  | true => exact fun h => by simp at h
  | false =>
      refine ⟨trivial, fun reached => ?_⟩
      cases reached with
      | true => exact fun h => by simp at h
      | false =>
          refine ⟨trivial, fun failed => ?_⟩
          cases failed with
          | true => exact fun h => by simp at h
          | false =>
              refine ⟨trivial, fun _ _ => ⟨fun f => ?_, by simp [sawEnd, reads], rfl⟩⟩
              cases f with
              | stopping => exact ⟨_, .tail _ (.tail _ (.tail _ (.head _))), rfl⟩
              | durationReached => exact ⟨_, .tail _ (.tail _ (.head _)), rfl⟩
              | failed => exact ⟨_, .tail _ (.head _), rfl⟩

/-- 命令がどれも `E` を満たす。 -/
abbrev Uses (E : Cmd → Prop) (p : P α) : Prop := p.Tracks (fun cmd (_ : Unit) => E cmd) (fun _ _ u => u) (fun _ _ => True) ()

theorem Uses.bind {E : Cmd → Prop} {p : P α} {g : α → P β} (hp : Uses E p) (hg : ∀ a, Uses E (g a)) : Uses E (p >>= g) :=
  Prog.Tracks.bind (fun a _ _ => hg a) hp

theorem uses_openSession {E : Cmd → Prop} {x : Publisher} (hE : E (.stopping .openSession) ∧ E (.durationReached .openSession) ∧
    E .openVideo ∧ E .openAudio ∧ E .openOutput ∧ E .resetMixer) : Uses E (openSession x) := by
  simp [openSession, Prog.perform, hE]

theorem uses_ended {E : Cmd → Prop} {place : Place} (hE : E (.stopping place) ∧ E (.failed place) ∧ E (.durationReached place)) :
    Uses E (ended place) := by
  simp [ended, Prog.perform, hE]

theorem uses_attempts : (n : Nat) → {delayMs : Int} → {x : Publisher} → Uses (· ≠ .setFailed) (attempts n delayMs x)
  | 0, _, _ => trivial
  | n + 1, delayMs, x => by
      refine ⟨by simp, fun limit => ⟨by simp, fun _ => ?_⟩⟩
      have hended : Uses (· ≠ .setFailed) (ended .reconnect) := uses_ended (by simp)
      refine hended.bind fun finished => ?_
      cases finished with
      | true => trivial
      | false =>
          have hopen : Uses (· ≠ .setFailed) (openSession x) := uses_openSession (by simp)
          refine hopen.bind fun r => ?_
          simp [uses_attempts n, Prog.perform]

/-- 試したあとで失敗としたのなら、それまでにどの条件も成り立っていない。 -/
theorem Ran.exhausted {x : Publisher} {r : Bool × Publisher} (h : Ran c (reconnect c.config x) s acts r s')
    (hset : ⟨.setFailed, ()⟩ ∈ acts) : (∀ a ∈ acts, sawEnd a = false) ∧ r.1 = false ∧
      r.2.failureMessage = if r.2.outputFailed then StreamingSink.exhausted c.config else restartFailed := by
  simp only [reconnect, Prog.perform_bind] at h
  obtain ⟨_, _, _, _, _, rfl, -, -, h⟩ := Traced.call_inv h
  obtain ⟨_, _, _, _, _, rfl, -, -, h⟩ := Traced.call_inv h
  obtain ⟨_, _, _, _, _, rfl, -, -, h⟩ := Traced.call_inv h
  obtain ⟨⟨opened, x₁⟩, s₁, tried, rest, rfl, htried, h⟩ := Traced.bind_inv _ h
  have hnone := Traced.forall_tracks (uses_attempts _) htried
  have hset' : ⟨.setFailed, ()⟩ ∈ rest := by
    simp only [List.mem_cons, List.mem_append] at hset
    rcases hset with hset | hset | hset | hset | hset
    · cases hset
    · cases hset
    · cases hset
    · exact absurd rfl (hnone _ hset)
    · exact hset
  cases opened with
  | true =>
      obtain ⟨-, -, rfl⟩ := Traced.ret_inv h
      simp at hset'
  | false =>
      obtain ⟨x₂, s₂, gave, last, rfl, hgave, h⟩ := Traced.bind_inv _ h
      obtain ⟨rfl, -, rfl⟩ := Traced.ret_inv h
      rw [List.append_nil] at hset' ⊢
      have hfollows := Traced.of_follows follows_giveUp hgave
      simp only [List.append_nil, List.mem_reverse] at hfollows
      obtain ⟨hreads, hsaw, hmessage⟩ := hfollows hset'
      refine ⟨fun a ha => ?_, rfl, hmessage⟩
      simp only [List.mem_cons, List.mem_append] at ha
      rcases ha with rfl | rfl | rfl | ha | ha
      · rfl
      · rfl
      · rfl
      · refine Bool.eq_false_iff.mpr fun htrue => ?_
        obtain ⟨f, hf⟩ := (Ran.ended_of_sawEnd htried ha htrue).exists_holds
        obtain ⟨a', ha', hread⟩ := hreads f
        exact absurd (Ran.reads_of_holds hgave hf ha' hread) (by simp)
      · exact hsaw a ha

theorem reconnectsWithin {x : Publisher} {r : Bool × Publisher} (h : Ran c (reconnect c.config x) s acts r s') :
    ReconnectsWithin c.config acts r.1 r.2 := by
  have hvalid := c.valid
  simp only [StreamingSink.validate, Bool.and_eq_true, decide_eq_true_eq] at hvalid
  obtain ⟨⟨⟨⟨-, hattempts⟩, -⟩, -⟩, hdelay⟩ := hvalid
  have hretried := Traced.of_tracks (tracks_reconnect (u := ⟨0, [], false⟩)) h
  rw [foldl_retries] at hretried
  obtain ⟨ws, hbackoff, hwaits⟩ := hretried.waits
  simp only [List.nil_append] at hwaits
  refine ⟨?_, ?_, ?_, ?_, ?_, h.exhausted⟩
  · have hle := hretried.openings
    simp only at hle
    omega
  · rw [hwaits]
    exact head?_backoff hbackoff
  · rw [hwaits]
    obtain ⟨rest, hrest⟩ := hbackoff
    exact List.IsChain.left_of_append (hrest ▸ backoff_chain _ _)
  · rw [hwaits]
    exact fun d hd => backoff_le _ _ hdelay d (hbackoff.subset hd)
  · have hreset := hretried.reset
    simp only [Bool.false_or] at hreset
    rw [← hreset, List.any_eq_true]
    constructor
    · rintro ⟨⟨cmd, u⟩, hx, heq⟩
      cases of_decide_eq_true heq
      exact hx
    · intro hx
      exact ⟨_, hx, rfl⟩

/-! ## 終わるまでの命令 -/

/-- 完了の通知に関わらない命令。 -/
def Cmd.Internal : Cmd → Prop
  | .stopping place | .failed place | .durationReached place => place = .openSession ∨ place = .reconnect ∨ place = .run
  | .getCallback | .complete _ _ _ _ => False
  | _ => True

abbrev Quiet (p : P α) : Prop := Uses Cmd.Internal p

section Programs

attribute [local simp] Cmd.Internal Prog.perform

variable {config : StreamingSink.Config} {frameSize : Nat} {x : Publisher}

theorem quiet_openSession : Quiet (openSession x) := uses_openSession (by simp)

theorem quiet_goesOn {place : Place} (h : place = .reconnect ∨ place = .run) : Quiet (goesOn place) := by
  simp [goesOn, h]

theorem quiet_ended {place : Place} (h : place = .reconnect ∨ place = .run) : Quiet (ended place) :=
  uses_ended (by simp [h])

theorem quiet_running : Quiet running := by
  simp [running]

theorem quiet_attempts : (n : Nat) → {delayMs : Int} → {x : Publisher} → Quiet (attempts n delayMs x)
  | 0, _, _ => trivial
  | n + 1, delayMs, x => by
      refine ⟨trivial, fun limit => ⟨trivial, fun _ => ?_⟩⟩
      refine (quiet_ended (.inl rfl)).bind fun finished => ?_
      cases finished with
      | true => trivial
      | false =>
          refine quiet_openSession.bind ?_
          rintro ⟨opened, x⟩
          cases opened with
          | true => exact ⟨trivial, fun _ => trivial⟩
          | false =>
              refine ⟨trivial, fun _ => ⟨trivial, fun _ => Prog.tracks_ite.mpr ⟨fun _ => trivial, fun _ => ?_⟩⟩⟩
              exact quiet_attempts n

theorem quiet_giveUp : Quiet (giveUp config x) := by
  simp [giveUp, goesOn]

theorem quiet_reconnect : Quiet (reconnect config x) := by
  refine ⟨trivial, fun _ => ⟨trivial, fun _ => ⟨trivial, fun _ => ?_⟩⟩⟩
  refine (quiet_attempts _).bind ?_
  rintro ⟨opened, x⟩
  cases opened with
  | true => trivial
  | false => exact quiet_giveUp.bind fun _ => trivial

theorem quiet_writePackets {track : Track} {ok : Bool} : (n : Nat) → {x : Publisher} → Quiet (writePackets track ok x n)
  | 0, _ => trivial
  | n + 1, _ => ⟨trivial, fun _ => Prog.tracks_ite.mpr ⟨fun _ => trivial, fun _ => quiet_writePackets n⟩⟩

theorem quiet_encode {track : Track} {pts : Int} : Quiet (encode track pts x) :=
  ⟨trivial, fun _ => quiet_writePackets _⟩

theorem quiet_encodeAudio {timestamp : Int} : Quiet (encodeAudio frameSize timestamp x) := by
  refine ⟨trivial, fun frame => Prog.tracks_ite.mpr ⟨fun _ => trivial, fun _ => ?_⟩⟩
  exact ⟨trivial, fun buffer => Prog.tracks_ite.mpr ⟨fun _ => trivial, fun _ => quiet_encode⟩⟩

theorem quiet_encodeDrained {ok : Bool} :
    (timestamps : List Int) → {x : Publisher} → Quiet (encodeDrained frameSize ok x timestamps)
  | [], _ => trivial
  | timestamp :: timestamps, x => by
      refine ⟨by simp, fun stopping => Prog.tracks_ite.mpr ⟨fun _ => trivial, fun _ => ?_⟩⟩
      refine quiet_encodeAudio.bind ?_
      rintro ⟨encoded, x⟩
      exact Prog.tracks_ite.mpr ⟨fun _ => trivial, fun _ => quiet_encodeDrained timestamps⟩

theorem quiet_pumpVideo {frame : Option Int} : Quiet (pumpVideo frame x) := by
  cases frame with
  | none => trivial
  | some timestamp => exact quiet_encode

theorem quiet_pumpAudio {mediaOk : Bool} : Quiet (pumpAudio frameSize mediaOk x) := by
  refine Prog.tracks_ite.mpr ⟨fun _ => trivial, fun _ => quiet_running.bind fun running => ?_⟩
  exact Prog.tracks_ite.mpr ⟨fun _ => trivial, fun _ => ⟨trivial, fun drained => quiet_encodeDrained _⟩⟩

theorem quiet_pumpPoll {mediaOk : Bool} : Quiet (pumpPoll mediaOk x) := by
  refine Prog.tracks_ite.mpr ⟨fun _ => trivial, fun _ => quiet_running.bind fun running => ?_⟩
  refine Prog.tracks_ite.mpr ⟨fun _ => trivial, fun _ => ⟨trivial, fun polled => ?_⟩⟩
  exact Prog.tracks_ite.mpr ⟨fun _ => trivial, fun _ => trivial⟩

theorem quiet_recover {mediaOk : Bool} : Quiet (recover config mediaOk x) := by
  refine Prog.tracks_ite.mpr ⟨fun _ => trivial, fun _ => (quiet_goesOn (.inr rfl)).bind fun goesOn => ?_⟩
  refine Prog.tracks_ite.mpr ⟨fun _ => trivial, fun _ => Prog.tracks_ite.mpr ⟨fun _ => quiet_reconnect, fun _ => ?_⟩⟩
  exact ⟨trivial, fun _ => trivial⟩

theorem quiet_publishOnce : Quiet (publishOnce config frameSize x) := by
  refine (quiet_ended (.inr rfl)).bind fun finished => Prog.tracks_ite.mpr ⟨fun _ => trivial, fun _ => ?_⟩
  refine ⟨trivial, fun limit => ⟨trivial, fun frame => ⟨by simp, fun stopping => ?_⟩⟩⟩
  refine Prog.tracks_ite.mpr ⟨fun _ => trivial, fun _ => ⟨by simp, fun failed => ?_⟩⟩
  refine Prog.tracks_ite.mpr ⟨fun _ => trivial, fun _ => quiet_pumpVideo.bind fun video => ?_⟩
  refine quiet_pumpAudio.bind fun audio => ?_
  exact quiet_pumpPoll.bind fun poll => quiet_recover

theorem quiet_publish : (n : Nat) → {x : Publisher} → Quiet (publish config frameSize n x)
  | 0, _ => trivial
  | n + 1, _ => quiet_publishOnce.bind fun _ => Prog.tracks_ite.mpr ⟨fun _ => quiet_publish n, fun _ => trivial⟩

theorem quiet_connect : Quiet (connect config x) := by
  refine quiet_openSession.bind fun r => Prog.tracks_ite.mpr ⟨fun _ => trivial, fun _ => ?_⟩
  refine (quiet_goesOn (.inr rfl)).bind fun goesOn => Prog.tracks_ite.mpr ⟨fun _ => quiet_reconnect, fun _ => trivial⟩

end Programs

theorem completions_append {acts₁ acts₂ : Acts} : completions (acts₁ ++ acts₂) = completions acts₁ ++ completions acts₂ :=
  List.filterMap_append

theorem completions_of_internal (h : ∀ x ∈ acts, x.1.Internal) : completions acts = [] := by
  refine List.filterMap_eq_nil_iff.mpr fun x hx => ?_
  obtain ⟨cmd, r⟩ := x
  cases cmd with
  | complete => exact (h _ hx).elim
  | _ => rfl

/-! ## 通知 -/

theorem reportable_inv {r : Bool} (h : Ran c reportable s acts r s') : completions acts = [] ∧
    (r = true → s'.failed = true ∨ ⟨.durationReached .final, true⟩ ∈ acts) ∧
      (r = false → ⟨.failed .final, false⟩ ∈ acts ∧ ⟨.durationReached .final, false⟩ ∈ acts) := by
  have hrun := h
  simp only [reportable, Prog.perform_bind] at h
  obtain ⟨_, failed, _, _, _, rfl, -, -, h⟩ := Traced.call_inv h
  cases failed with
  | true =>
      obtain ⟨rfl, -, rfl⟩ := Traced.ret_inv h
      have hfailed : s'.failed = true := Ran.holds_of_reads (f := .failed) hrun (List.mem_singleton_self _) rfl
      exact ⟨rfl, fun _ => .inl hfailed, by simp⟩
  | false =>
      obtain ⟨_, reached, _, _, _, rfl, -, -, h⟩ := Traced.call_inv h
      obtain ⟨rfl, -, rfl⟩ := Traced.ret_inv h
      exact ⟨rfl, fun hr => .inr (by simp [hr]), fun hr => by simp [hr]⟩

/-- 通知する状態は、`status` のために読んだ値で決まる。 -/
theorem completion_inv {statusFirst : Bool} {x : Publisher} {r : String × String}
    (h : Ran c (completion statusFirst x) s acts r s') : completions acts = [] ∧
      ∃ failed : Bool, ⟨.failed .status, failed⟩ ∈ acts ∧ r.1 = if failed then "failed" else "success" := by
  cases statusFirst with
  | true =>
      obtain ⟨_, failed, _, _, _, rfl, -, -, h⟩ := Traced.call_inv h
      obtain ⟨_, _, _, _, _, rfl, -, -, h⟩ := Traced.call_inv h
      obtain ⟨rfl, -, rfl⟩ := Traced.ret_inv h
      exact ⟨rfl, failed, by simp, rfl⟩
  | false =>
      obtain ⟨_, _, _, _, _, rfl, -, -, h⟩ := Traced.call_inv h
      obtain ⟨_, failed, _, _, _, rfl, -, -, h⟩ := Traced.call_inv h
      obtain ⟨rfl, -, rfl⟩ := Traced.ret_inv h
      exact ⟨rfl, failed, by simp, rfl⟩

/-- 通知した状態が、読んだ値に合っている。 -/
def Told (acts : Acts) (status : String) : Prop :=
  status = "failed" ∧ ⟨.failed .status, true⟩ ∈ acts ∨
    status = "success" ∧ ⟨.failed .status, false⟩ ∈ acts ∧ ⟨.durationReached .final, true⟩ ∈ acts

theorem notify_inv {taskId : String} {statusFirst : Bool} {x : Publisher} {callback : Nat} {u : Unit}
    (h : Ran c (notify taskId statusFirst x (some callback)) s acts u s') :
    (⟨.failed .final, false⟩ ∈ acts ∧ ⟨.durationReached .final, false⟩ ∈ acts) ∨
      ∃ status, completions acts = [(callback, status)] ∧ Told acts status := by
  obtain ⟨reportable, s₁, asked, rest, rfl, hasked, h⟩ := Traced.bind_inv _ h
  obtain ⟨hnone, htrue, hfalse⟩ := reportable_inv hasked
  cases reportable with
  | false => exact .inl ⟨List.mem_append_left _ (hfalse rfl).1, List.mem_append_left _ (hfalse rfl).2⟩
  | true =>
      obtain ⟨⟨status, message⟩, s₂, wrote, last, rfl, hwrote, h⟩ := Traced.bind_inv _ h
      obtain ⟨_, _, _, _, _, rfl, -, -, h⟩ := Traced.call_inv h
      obtain ⟨-, -, rfl⟩ := Traced.ret_inv h
      obtain ⟨hnone', failed, hread, hstatus⟩ := completion_inv hwrote
      refine .inr ⟨status, ?_, ?_⟩
      · rw [completions_append, completions_append, hnone, hnone']
        rfl
      · cases failed with
        | true => exact .inl ⟨hstatus, by simp [hread]⟩
        | false =>
            refine .inr ⟨hstatus, by simp [hread], ?_⟩
            rcases htrue rfl with hfailed | hreached
            · exact absurd (Ran.reads_of_holds (f := .failed) hwrote hfailed hread rfl) (by simp)
            · simp [hreached]

/-- 繰り返しのあとには、登録された関数を読み、止められていなければ通知する。 -/
theorem finish_inv {taskId : String} {statusFirst : Bool} {x : Publisher} {u : Unit}
    (h : Ran c (finish taskId statusFirst x) s acts u s') : ∃ s₁ s₂ after,
      acts = [⟨.closeOutput, ()⟩, ⟨.releaseCodecs, ()⟩, ⟨.setActive false, ()⟩] ++
        ⟨.getCallback, s₁.callback⟩ :: ⟨.stopping .final, s₂.stopping⟩ :: after ∧
      FinalCheck c s acts s' s₁ s₂ ∧
      (s₂.stopping = true ∧ after = [] ∨
        s₂.stopping = false ∧ Ran c (notify taskId statusFirst x s₁.callback) s₂ after u s') := by
  simp only [finish, Prog.perform_bind] at h
  obtain ⟨_, _, _, _, _, rfl, henv₁, hexec₁, h⟩ := Traced.call_inv h
  obtain ⟨_, _, _, _, _, rfl, henv₂, hexec₂, h⟩ := Traced.call_inv h
  obtain ⟨_, _, _, _, _, rfl, henv₃, hexec₃, h⟩ := Traced.call_inv h
  obtain ⟨_, _, s₁, _, _, rfl, henv₄, hexec₄, h⟩ := Traced.call_inv h
  obtain ⟨_, _, s₂, _, after, rfl, henv, hexec₅, h⟩ := Traced.call_inv h
  cases hexec₄
  cases hexec₅
  have hbefore := Executes.call henv₁ hexec₁ (.call henv₂ hexec₂ (.call henv₃ hexec₃ (.env henv₄)))
  split at h
  next hstopping =>
    obtain ⟨-, hlast, rfl⟩ := Traced.ret_inv h
    rw [hlast]
    exact ⟨s₁, s₂, [], rfl, ⟨_, [], rfl, hbefore, henv, .env .refl⟩, .inl ⟨hstopping, rfl⟩⟩
  next hstopping =>
    exact ⟨s₁, s₂, after, rfl, ⟨_, after, rfl, hbefore, henv, h.executes⟩, .inr ⟨Bool.eq_false_iff.mpr hstopping, h⟩⟩

/-- 登録された関数がないか、最後の検査で止められていたときは、何も呼ばない。 -/
theorem EndsOnce.silent {s₁ s₂ : State} (hended : s'.Ended) (hfinal : FinalCheck c s acts s' s₁ s₂)
    (hnone : completions acts = []) (hsilent : s₁.callback = none ∨ s₂.stopping = true) : EndsOnce c s acts true s' := by
  refine ⟨fun _ => hended, by simp [hnone], fun _ => ⟨s₁, s₂, hfinal, by simp [hnone], ?_⟩, by simp [hnone]⟩
  intro hregistered
  rcases hsilent with hcallback | hstopping
  · simp [hcallback] at hregistered
  · simp [hnone, hstopping]

/-- 登録された関数を、止められていないときに一度呼んだ。 -/
theorem EndsOnce.told {s₁ s₂ : State} {callback : Nat} {status : String} (hended : s'.Ended)
    (hfinal : FinalCheck c s acts s' s₁ s₂) (hone : completions acts = [(callback, status)])
    (hcallback : s₁.callback = some callback) (hstopping : s₂.stopping = false) (hget : ⟨.getCallback, some callback⟩ ∈ acts)
    (hstatus : status = "failed" ∧ ⟨.failed .status, true⟩ ∈ acts ∧ s'.failed = true ∨
      status = "success" ∧ ⟨.failed .status, false⟩ ∈ acts ∧ ⟨.durationReached .final, true⟩ ∈ acts) :
    EndsOnce c s acts true s' := by
  have hcalled : ∀ x ∈ completions acts, x = (callback, status) := by simp [hone]
  refine ⟨fun _ => hended, by simp [hone], fun _ => ⟨s₁, s₂, hfinal, ?_, ?_⟩, ?_⟩
  · intro x hx
    rw [hcalled x hx, hcallback]
  · intro _
    simp [hone, hstopping]
  · intro x hx
    rw [hcalled x hx]
    exact ⟨hget, hstatus⟩

/-- 終わりの条件が成り立ってから始めた通知は、止められていなければ、ちょうど一度である。 -/
theorem finish_once {taskId : String} {statusFirst : Bool} {x : Publisher} {u : Unit}
    (h : Ran c (finish taskId statusFirst x) s acts u s') (hs : s.Ended) : EndsOnce c s acts true s' := by
  have hended : s'.Ended := h.grows.ended hs
  obtain ⟨s₁, s₂, after, hacts, hfinal, hafter⟩ := finish_inv h
  have hsame : completions acts = completions after := by rw [hacts]; rfl
  rcases hafter with ⟨hstopping, hafter⟩ | ⟨hstopping, hafter⟩
  · exact .silent hended hfinal (by rw [hsame, hafter]; rfl) (.inr hstopping)
  · cases hcallback : s₁.callback with
    | none =>
        rw [hcallback] at hafter
        obtain ⟨-, -, rfl⟩ := Traced.ret_inv hafter
        exact .silent hended hfinal hsame (.inl hcallback)
    | some callback =>
        rw [hcallback] at hafter
        have hlast : ∀ {x : Act Cmd Cmd.Resp}, x ∈ after → x ∈ acts := fun hx => by simp [hacts, hx]
        rcases notify_inv hafter with ⟨hfailed, hreached⟩ | ⟨status, hone, htold⟩
        · obtain ⟨f, hf⟩ := hs.exists_holds
          cases f with
          | stopping =>
              have hread : ⟨.stopping .final, false⟩ ∈ acts := by simp [hacts, hstopping]
              exact absurd (Ran.reads_of_holds h hf hread rfl) (by simp)
          | failed => exact absurd (Ran.reads_of_holds h hf (hlast hfailed) rfl) (by simp)
          | durationReached => exact absurd (Ran.reads_of_holds h hf (hlast hreached) rfl) (by simp)
        · refine .told hended hfinal (hsame.trans hone) hcallback hstopping (by simp [hacts, hcallback]) ?_
          rcases htold with ⟨hstatus, hread⟩ | ⟨hstatus, hread, hreached⟩
          · exact .inl ⟨hstatus, hlast hread, Ran.holds_of_reads (f := .failed) h (hlast hread) rfl⟩
          · exact .inr ⟨hstatus, hlast hread, hlast hreached⟩

/-! ## 全体 -/

theorem FinalCheck.after {acts₁ acts₂ : Acts} {s₀ s₁ s₂ : State} (h₀ : Executes (machine c) s₀ acts₁ s)
    (h : FinalCheck c s acts₂ s' s₁ s₂) : FinalCheck c s₀ (acts₁ ++ acts₂) s' s₁ s₂ := by
  obtain ⟨before, after, rfl, hbefore, henv, hafter⟩ := h
  exact ⟨acts₁ ++ before, after, (List.append_assoc _ _ _).symm, h₀.trans hbefore, henv, hafter⟩

theorem EndsOnce.after_internal {acts₁ acts₂ : Acts} {s₀ : State} {returned : Bool}
    (h₀ : Executes (machine c) s₀ acts₁ s) (hinternal : ∀ x ∈ acts₁, x.1.Internal)
    (h : EndsOnce c s acts₂ returned s') : EndsOnce c s₀ (acts₁ ++ acts₂) returned s' := by
  have hsame : completions (acts₁ ++ acts₂) = completions acts₂ := by
    rw [completions_append, completions_of_internal hinternal, List.nil_append]
  refine ⟨h.ended, ?_, ?_, ?_⟩
  · rw [hsame]
    exact h.atMostOnce
  · intro hreturned
    obtain ⟨s₁, s₂, hfinal, hregistered, honce⟩ := h.reported hreturned
    exact ⟨s₁, s₂, hfinal.after h₀, by rwa [hsame], by rwa [hsame]⟩
  · rw [hsame]
    intro x hx
    obtain ⟨hget, hstatus⟩ := h.status x hx
    refine ⟨List.mem_append_right _ hget, ?_⟩
    rcases hstatus with ⟨hx, hread, hfailed⟩ | ⟨hx, hread, hreached⟩
    · exact .inl ⟨hx, List.mem_append_right _ hread, hfailed⟩
    · exact .inr ⟨hx, List.mem_append_right _ hread, List.mem_append_right _ hreached⟩

theorem endsOnce {frameSize n : Nat} {statusFirst returned : Bool} {x : Publisher}
    (h : Ran c (run c frameSize statusFirst n x) s acts returned s') : EndsOnce c s acts returned s' := by
  obtain ⟨⟨connected, x⟩, s₁, acts₁, acts₂, rfl, hconnect, h⟩ := Traced.bind_inv _ h
  refine EndsOnce.after_internal hconnect.executes (Traced.forall_tracks quiet_connect hconnect) ?_
  cases connected with
  | true =>
      obtain ⟨left, s₂, acts₃, acts₄, rfl, hpublish, h⟩ := Traced.bind_inv _ h
      refine EndsOnce.after_internal hpublish.executes (Traced.forall_tracks (quiet_publish n) hpublish) ?_
      cases left with
      | none =>
          obtain ⟨rfl, -, rfl⟩ := Traced.ret_inv h
          exact ⟨by simp, by simp [completions], by simp, by simp [completions]⟩
      | some x =>
          obtain ⟨_, s₃, acts₅, acts₆, rfl, hfinish, h⟩ := Traced.bind_inv _ h
          obtain ⟨rfl, rfl, rfl⟩ := Traced.ret_inv h
          rw [List.append_nil]
          exact finish_once hfinish ((notices_publish n).ended hpublish rfl)
  | false =>
      obtain ⟨goesOn, s₂, acts₃, acts₄, rfl, hgoesOn, h⟩ := Traced.bind_inv _ h
      refine EndsOnce.after_internal hgoesOn.executes (Traced.forall_tracks (quiet_goesOn (.inr rfl)) hgoesOn) ?_
      cases goesOn with
      | true =>
          simp only [if_true, Prog.perform_bind] at h
          obtain ⟨_, _, _, s₃, acts₅, rfl, henv, hexec, h⟩ := Traced.call_inv h
          have hfailed := Executes.call henv hexec (.env .refl)
          obtain ⟨_, s₄, acts₆, acts₇, rfl, hfinish, h⟩ := Traced.bind_inv _ h
          obtain ⟨rfl, rfl, rfl⟩ := Traced.ret_inv h
          cases hexec
          rw [List.append_nil]
          have hset : ∀ x ∈ ([⟨.setFailed, ()⟩] : Acts), x.1.Internal := by simp [Cmd.Internal]
          exact EndsOnce.after_internal hfailed hset (finish_once hfinish (.inr (.inl rfl)))
      | false =>
          obtain ⟨_, s₃, acts₅, acts₆, rfl, hfinish, h⟩ := Traced.bind_inv _ h
          obtain ⟨rfl, rfl, rfl⟩ := Traced.ret_inv h
          rw [List.append_nil]
          exact finish_once hfinish (notices_goesOn.ended hgoesOn rfl)

/-- 配信は、どの実行でも一つの終わり方をする。 -/
theorem endsInOneWay (muxer : Protocol → Bool) : EndsInOneWay muxer :=
  fun _ => ⟨fun _ _ _ _ _ _ _ _ h => endsOnce h, fun _ _ _ _ _ h => reconnectsWithin h⟩

def localConfig : StreamingSink.Config where
  output := { protocol := .rtmp, url := utf8 "rtmp://127.0.0.1/live", token := [], timeoutMs := 5000 }
  reconnectAttempts := 5
  reconnectDelayMs := 1000

def localTask : Initialized fun _ => true := ⟨localConfig, "t", by decide⟩

/-- 接続する前に期限が来た配信は、成功として一度だけ通知される。 -/
theorem expiredTask_endsOnce : ∃ acts s s', Ran localTask (run localTask 1024 true 0 {}) s acts true s' ∧
    s.stopping = false ∧ completions acts = [(7, "success")] ∧ EndsOnce localTask s acts true s' := by
  let s : State := { State.started localConfig (some 7) 0 with now := 28800000 }
  have hcompletions : ((run localTask 1024 true 0 {}).evaluate (machine localTask) {} s).map
      (fun r => (completions r.1, r.2.1)) = some ([(7, "success")], true) := by
    decide
  obtain ⟨⟨acts, returned, s'⟩, heval, heq⟩ := Option.map_eq_some_iff.mp hcompletions
  obtain ⟨hacts, rfl⟩ := Prod.mk.inj heq
  have hran := Traced.of_evaluate heval
  exact ⟨acts, s, s', hran, rfl, hacts, (endsInOneWay _ localTask).1 1024 true 0 {} s acts true s' hran⟩

end RtcEgress.Sink.StreamingSink
