import RtcEgress.Queue.Lemmas.Base

/-!
# 終わった状態は変わらないか

記録が `STOPPED`、`FAILED`、`TIMEOUT` のいずれかになった後に、その状態が変わらず、そのタスクが再び確保される
こともない、という性質を調べる。記録は読んでから書き戻すまでに変わりうるので、性質は一般には成り立たない。
-/

namespace RtcEgress.Queue

open RtcEgress.Lib

/-- タスク `id` の確保が成功する命令。 -/
def Cmd.Claims (id : String) : Cmd → Prop
  | .claimTx _ id' _ _ => id' = id
  | _ => False

/-- `p` から `p'` までの間、タスク `id` の状態は `t` のままで、確保は成功しない。 -/
def StaysAs (id : String) (t : Task) (p p' : Pool machine) : Prop :=
  (∃ t', p'.state.task id = some t' ∧ t'.state = t.state) ∧
    ∃ later, p'.trace = later ++ p.trace ∧ ∀ e ∈ later, ¬e.cmd.Claims id

/-- 条件 `g` のもとでの実行では、終わった状態は変わらず、その後の確保は成功しない。 -/
def TerminalStays (g : Guard machine) : Prop :=
  ∀ (p p' : Pool machine) (id : String) (t : Task), Run g (.start .init) p → Run g p p' →
    p.state.task id = some t → t.isTerminal = true → StaysAs id t p p'

/-! ## 成り立たない実行 -/

/-- ポッド `p` が録画 `a` を取り出し、確保する前に、ポッド `q` が `a` の停止を処理し終える。 -/
def stopBeforeClaim : List (Move machine) :=
  begin (.publish "record" "start" "ch" "r1" (some []) "") ++
    advance 0 1 ++ advanceWith 0 { text := "a" } ++ advance 0 2 ++
  begin (.publishStop "a" "r2" "") ++
    advance 1 3 ++ advanceWith 1 { text := "b" } ++ advance 1 2 ++
  begin (.subscribe (nativePod "p") ["egress:record:*"]) ++ advance 2 2 ++
  begin (.subscribe (nativePod "q") ["egress:record:*"]) ++ advance 3 15

/-- 停止を終えた `a` を、ポッド `p` が確保する。 -/
theorem not_terminalStays : ¬TerminalStays entries := by
  intro h
  have hstopped : (Pool.play stopBeforeClaim (.start .init)).map (fun p => (p.state.task "a").map Task.state) =
      some (some .stopped) := by decide
  have hprocessing : ((Pool.play stopBeforeClaim (.start .init)).bind (Pool.play (advance 2 4))).map
      (fun p => (p.state.task "a").map Task.state) = some (some .processing) := by decide
  obtain ⟨p, hp, hstopped⟩ := Option.map_eq_some_iff.mp hstopped
  rw [hp, Option.bind_some] at hprocessing
  obtain ⟨p', hp', hprocessing⟩ := Option.map_eq_some_iff.mp hprocessing
  obtain ⟨t, ht, hst⟩ := Option.map_eq_some_iff.mp hstopped
  have hrun : Run entries (.start .init) p := Pool.play_sound (Pool.allMeet_ofCalls (by decide)) hp
  have hrun' : Run entries p p' := Pool.play_sound (Pool.allMeet_ofCalls (by decide)) hp'
  obtain ⟨⟨t', ht', hst'⟩, -⟩ := h p p' "a" t hrun hrun' ht (by simp [Task.isTerminal, hst, TaskState.isTerminal])
  rw [ht', Option.map_some, hst', hst] at hprocessing
  cases hprocessing

/-! ## 成り立つ条件 -/

/-- 終わった記録を読んで別の状態にせず、読んだ後に終わった記録へ古い状態を書き戻さない。監視を伴う時間切れの
書き込みには条件を課さない。 -/
def settledOnce : Guard machine where
  call := fun _ => True
  cmd := fun _ c w _ => match c with
    | .getTask (.claim _) id | .getTask .moveBack id => ∀ t, w.task id = some t → t.isTerminal = false
    | .getTask (.result state) id => ∀ t, w.task id = some t → t.isTerminal = true → t.state = state
    | .timeoutTx _ _ _ _ _ => True
    | c => ∀ id read t, c.copy = some (id, read) → w.task id = some t → t.isTerminal = true →
        t.state = read.state

/-- 条件を満たす読み取りの結果。 -/
def ReadLive : Act Cmd Cmd.Resp → Prop
  | ⟨.getTask (.claim _) _, some t⟩ | ⟨.getTask .moveBack _, some t⟩ => t.isTerminal = false
  | ⟨.getTask (.result state) _, some t⟩ => t.isTerminal = true → t.state = state
  | _ => True

def ReadsLive (tr : Trace) : Prop := ∀ e ∈ tr, ReadLive ⟨e.cmd, e.resp⟩

theorem readsLive_inductive : Inductive settledOnce (Expected .all) fun _ tr => ReadsLive tr := by
  refine ⟨fun {i c o w tr r w'} h hg hE he e hmem => ?_, fun h _ => h⟩
  rcases List.mem_cons.mp hmem with rfl | hmem
  · obtain ⟨hreply, -⟩ := exec_eq he
    cases c
    case getTask reader id =>
        obtain rfl : w.task id = r := Option.some.inj hreply
        cases hw : w.task id with
        | none => cases reader <;> trivial
        | some t => cases reader <;> first | trivial | exact hg t hw
    all_goals trivial
  · exact h e hmem

theorem Task.isTerminal_congr {t t' : Task} (h : t.state = t'.state) : t.isTerminal = t'.isTerminal := by
  simp [isTerminal, h]

theorem Cmd.Claims.written {c : Cmd} {id : String} (h : c.Claims id) (r : c.Resp) :
    ∃ t, c.written r = some (id, t) := by
  cases c <;> try exact h.elim
  case claimTx podID id' now read =>
      obtain rfl : id' = id := h
      exact ⟨_, rfl⟩

/-- 読んだ写しも終わっている書き戻しは、状態を変えない。確保は、終わった写しからは行われない。 -/
theorem copy_keeps {w : World} {tr : Trace} (h : Base w tr) (hr : ReadsLive tr) {i c} {r : c.Resp} {o}
    (hg : settledOnce.cmd i c w tr) (hE : Expected .all c (own i tr)) (hreply : c.reply o w = some r)
    {id t t' read} (ht : w.task id = some t) (hterm : t.isTerminal = true)
    (hc : c.copy = some (id, read)) (hw : c.written r = some (id, t')) : t'.state = t.state ∧ ¬c.Claims id := by
  have live : ∀ reader, ⟨.getTask reader id, some read⟩ ∈ own i tr →
      ReadLive ⟨.getTask reader id, some read⟩ := by
    intro reader hmem
    obtain ⟨w₀, he⟩ := mem_of_own hmem
    exact hr _ he
  cases c <;> simp only [Cmd.copy, reduceCtorEq, Option.some.injEq, Prod.mk.injEq] at hc <;>
    obtain ⟨rfl, rfl⟩ := hc
  case claimTx podID id' now read =>
      have heq := hg _ _ t rfl ht hterm
      obtain ⟨-, ⟨h', hown⟩, -⟩ := hE
      have hlive : read.isTerminal = false := live (.claim podID) (by simp [hown])
      rw [Task.isTerminal_congr heq, hlive] at hterm
      cases hterm
  case setWorker =>
      cases hw
      exact ⟨(hg _ _ t rfl ht hterm).symm, id⟩
  case setResult id' state message now read =>
      have heq := hg _ _ t rfl ht hterm
      obtain ⟨-, h', hown⟩ := hE
      have hlive : read.isTerminal = true → read.state = state := live (.result state) (by simp [hown])
      cases hw
      exact ⟨(heq.trans (hlive (by rw [← Task.isTerminal_congr heq, hterm]))).symm, id⟩
  case renewTx =>
      cases hw
      exact ⟨(hg _ _ t rfl ht hterm).symm, id⟩
  case recoverTx =>
      have heq := hg _ _ t rfl ht hterm
      rw [Task.isTerminal_congr heq, hE.2.1] at hterm
      cases hterm
  case moveBackTx podID id' read =>
      have heq := hg _ _ t rfl ht hterm
      obtain ⟨-, h', hown⟩ := hE
      have hlive : read.isTerminal = false := live .moveBack (by simp [hown])
      rw [Task.isTerminal_congr heq, hlive] at hterm
      cases hterm
  case timeoutTx id' queue watched age read =>
      -- 監視により、終わった記録の上では実行されない。
      cases r
      · cases hw
      · have hrevs : watched = w.revs id' queue := by simpa [Cmd.reply] using hreply
        have hread := (h.watched hE hrevs).1
        rw [ht] at hread
        cases hread
        simp [Task.isTerminal, hE.2.1, TaskState.isTerminal] at hterm
  case setTarget =>
      cases hw
      exact ⟨(hg _ _ t rfl ht hterm).symm, id⟩

/-- 一つの命令は、終わった記録の状態を変えず、終わったタスクを確保しない。 -/
theorem terminal_step {w : World} {tr : Trace} (h : Base w tr) (hr : ReadsLive tr) {i c} {r : c.Resp} {o}
    (hg : settledOnce.cmd i c w tr) (hE : Expected .all c (own i tr)) (hreply : c.reply o w = some r)
    {id t} (ht : w.task id = some t) (hterm : t.isTerminal = true) :
    (∃ t', (c.effect w r).task id = some t' ∧ t'.state = t.state) ∧ ¬c.Claims id := by
  obtain ⟨heq, hnone⟩ | ⟨t', hw, heq⟩ := effect_task_cases w c r id
  · refine ⟨⟨t, heq.trans ht, rfl⟩, fun hc => ?_⟩
    obtain ⟨t', hw⟩ := hc.written r
    exact hnone t' hw
  · obtain ⟨_, _, _, hnone, _⟩ | ⟨read, t₀, hc, _, _, _⟩ := h.written hE hw
    · rw [hnone] at ht
      cases ht
    · obtain ⟨hstate, hclaims⟩ := copy_keeps h hr hg hE hreply ht hterm hc hw
      exact ⟨⟨t', heq, hstate⟩, hclaims⟩

theorem terminalStays_settledOnce {p p' : Pool machine} {id : String} {t : Task}
    (hrun : Run settledOnce (.start .init) p) (hrun' : Run settledOnce p p') (ht : p.state.task id = some t)
    (hterm : t.isTerminal = true) : StaysAs id t p p' := by
  have hbase := (base_inductive settledOnce .all).extend (J := fun _ tr => ReadsLive tr)
    (fun _ h hg hE he => readsLive_inductive.cmd h hg hE he) fun _ h _ => h
  obtain ⟨hfol, hb, hr⟩ := hbase.run (bodies_all _) (Pool.follows_start _)
    ⟨base_init, by simp [ReadsLive, Pool.start]⟩ hrun
  -- 最初の実行で終わった状態から先を、もう一度帰納法で調べる。
  have hstay := hbase.extend (J := fun (w : World) tr => (∃ t', w.task id = some t' ∧ t'.state = t.state) ∧
      ∃ later, tr = later ++ p.trace ∧ ∀ e ∈ later, ¬e.cmd.Claims id)
    (by
      intro i c o w tr r w' hI hJ hg hE he
      obtain ⟨⟨t₁, ht₁, hst₁⟩, later, rfl, hlater⟩ := hJ
      obtain ⟨hreply, rfl⟩ := exec_eq he
      obtain ⟨⟨t₂, ht₂, hst₂⟩, hclaims⟩ := terminal_step hI.1 hI.2 hg hE hreply ht₁
        (by rw [Task.isTerminal_congr hst₁, hterm])
      refine ⟨⟨t₂, ht₂, hst₂.trans hst₁⟩, ⟨i, c, r, w⟩ :: later, rfl, fun e he => ?_⟩
      rcases List.mem_cons.mp he with rfl | he
      · exact hclaims
      · exact hlater e he)
    (by
      intro e w tr w' _ hJ he
      have htask : w'.task = w.task := by
        obtain ⟨d, rfl⟩ | ⟨_, _, _, _, rfl⟩ := env_cases he <;> rfl
      simpa only [htask] using hJ)
  exact (hstay.run (bodies_all _) hfol ⟨⟨hb, hr⟩, ⟨t, ht, rfl⟩, [], rfl, by simp⟩ hrun').2.2

instance {k} : Decidable (settledOnce.call k) := .isTrue trivial

theorem settledOnce_of_copy_none {i c w tr} (h : c.copy = none) (hc : ∀ reader id, c ≠ .getTask reader id) :
    settledOnce.cmd i c w tr := by
  cases c
  case getTask reader id => exact absurd rfl (hc reader id)
  case timeoutTx => trivial
  all_goals
    intro _ _ _ hcopy
    rw [h] at hcopy
    cases hcopy

instance {i c w tr} : Decidable (settledOnce.cmd i c w tr) := by
  apply Cmd.casesOn (motive := fun c => Decidable (settledOnce.cmd i c w tr)) c <;> intros
  case getTask reader id =>
      apply Reader.casesOn (motive := fun reader => Decidable (settledOnce.cmd i (.getTask reader id) w tr)) reader <;> intros
      case claim | moveBack => exact inferInstanceAs (Decidable (∀ t ∈ w.task id, t.isTerminal = false))
      case result state =>
          exact inferInstanceAs (Decidable (∀ t ∈ w.task id, t.isTerminal = true → t.state = state))
      all_goals exact .isTrue fun _ _ _ hcopy => by cases hcopy
  case setWorker id _ read | setResult id _ _ _ read | claimTx _ id _ read | renewTx _ id _ read
      | recoverTx _ id _ read | moveBackTx _ id read | setTarget _ id _ _ read =>
      refine decidable_of_iff (∀ t ∈ w.task id, t.isTerminal = true → t.state = read.state) ?_
      exact ⟨fun h _ _ t hc => by cases hc; exact h t, fun h t => h _ _ t rfl⟩
  case timeoutTx => exact .isTrue trivial
  all_goals exact .isTrue (settledOnce_of_copy_none rfl (by simp))

/-- 停止を記録した後、同じ停止をもう一度記録し、別の録画を公開して確保する。 -/
def stopTwice : List (Move machine) × List (Move machine) :=
  (begin (.publish "record" "start" "ch" "r1" none "") ++
      advance 0 1 ++ advanceWith 0 { text := "a" } ++ advance 0 2 ++
    begin (.result "a" .stopped "") ++ advance 1 4,
    begin (.result "a" .stopped "") ++ advance 2 4 ++
    begin (.publish "record" "start" "ch" "r2" none "") ++
      advance 3 1 ++ advanceWith 3 { text := "b" } ++ advance 3 2 ++
    begin (.claim "q" "b") ++ advance 4 3)

theorem stopTwice_stays : ∃ p p' t, Run settledOnce (.start .init) p ∧ Run settledOnce p p' ∧
    p.state.task "a" = some t ∧ t.state = .stopped ∧ (p'.state.task "b").map Task.state = some .processing ∧
    StaysAs "a" t p p' := by
  have hplay : ((Pool.play stopTwice.1 (.start .init)).bind fun p => (Pool.play stopTwice.2 p).map fun p' =>
      ((p.state.task "a").map Task.state, (p'.state.task "b").map Task.state, decide (p.AllMeet settledOnce stopTwice.2))) =
      some (some .stopped, some .processing, true) := by decide
  obtain ⟨p, hp, hplay⟩ := Option.bind_eq_some_iff.mp hplay
  obtain ⟨p', hp', heq⟩ := Option.map_eq_some_iff.mp hplay
  obtain ⟨hstopped, hclaimed, hmeet⟩ := by simpa using heq
  obtain ⟨t, ht, hst⟩ := hstopped
  have hrun : Run settledOnce (.start .init) p := Pool.play_sound (by decide) hp
  have hrun' : Run settledOnce p p' := Pool.play_sound hmeet hp'
  have hstays := terminalStays_settledOnce hrun hrun' ht (by simp [Task.isTerminal, hst, TaskState.isTerminal])
  exact ⟨p, p', t, hrun, hrun', ht, hst, by simpa using hclaimed, hstays⟩

end RtcEgress.Queue
