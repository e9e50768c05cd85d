import RtcEgress.Queue.Lemmas.Base

/-!
# 一つの要求に生きたタスクは一つか

公開は重複排除のキーがないことを確かめてから、別の命令でキーを置く。キーは、終わった状態への更新のたびに、
誰が持っているかを見ずに消される。同じ組（命令、チャンネル、要求）の生きたタスクが高々一つであることと、
古いタスクの更新が新しいタスクのキーを消さないことを調べる。
-/

namespace RtcEgress.Queue

open RtcEgress.Lib

/-- 生きたタスクを公開した組。終わったタスクと、記録のない名前では値がない。 -/
def World.liveTriple (w : World) (id : String) : Option (String × String × String) :=
  ((w.task id).filter fun t => !t.isTerminal).map fun t => (t.cmd, t.channel, t.requestID)

/-- 条件 `g` のもとでの実行では、組ごとに生きたタスクが高々一つで、キーを消すのはその持ち主の更新だけである。 -/
def OneLiveTask (g : Guard machine) : Prop :=
  ∀ p, Run g (.start .init) p →
    (∀ id₁ id₂ triple, p.state.liveTriple id₁ = some triple → p.state.liveTriple id₂ = some triple → id₁ = id₂) ∧
    ∀ e ∈ p.trace, ∀ id key, e.cmd = .delDedupe id key → ∀ id', e.before.dedupe key = some id' → id' = id

/-- 公開と、結果の更新だけを行う。 -/
def Call.isPublishOrResult : Call → Bool
  | .publish .. | .publishStop .. | .result .. => true
  | _ => false

def publishing : Guard machine := .ofCalls fun k => k.isPublishOrResult = true

/-! ## 成り立たない実行 -/

/-- 二つの公開が、どちらもキーのないことを確かめてから、順に書き込む。 -/
def twoPublishers : List (Move machine) :=
  begin (.publish "record" "start" "ch" "r" none "") ++ begin (.publish "record" "start" "ch" "r" none "") ++
    advance 0 1 ++ advance 1 1 ++ advanceWith 0 { text := "a" } ++ advance 0 2 ++
    advanceWith 1 { text := "b" } ++ advance 1 2

theorem not_oneLiveTask : ¬OneLiveTask publishing := by
  intro h
  have hplay : (Pool.play twoPublishers (.start .init)).map (fun p =>
      (p.state.liveTriple "a", p.state.liveTriple "b")) =
      some (some ("record", "ch", "r"), some ("record", "ch", "r")) := by decide
  obtain ⟨p, hp, hab⟩ := Option.map_eq_some_iff.mp hplay
  obtain ⟨ha, hb⟩ := Prod.mk.inj hab
  have hrun : Run publishing (.start .init) p := Pool.play_sound (Pool.allMeet_ofCalls (by decide)) hp
  exact absurd ((h p hrun).1 "a" "b" _ ha hb) (by decide)

/-! ## 成り立つ条件 -/

/-- 公開の書き込みのときもキーがなく、結果の更新は終わった記録に書かない。 -/
def keyFree : Guard machine where
  call := fun k => k.isPublishOrResult = true
  cmd := fun _ c w _ => match c with
    | .publishTx _ task => w.dedupe task.dedupeKey = none
    | .setResult id _ _ _ _ => ∀ t, w.task id = some t → t.isTerminal = false
    | _ => True

def dedupeScope : Scope := ⟨[.publish, .result], fun _ => True⟩

theorem bodies_keyFree : Bodies keyFree (Expected dedupeScope) := by
  refine bodies fun k hk => ?_
  cases k <;> simp only [keyFree, Call.isPublishOrResult, Bool.false_eq_true] at hk <;>
    exact ⟨by simp [Call.writers, dedupeScope], fun _ _ => trivial⟩

/-- 終わった状態を書いた直後で、これから消すキー。 -/
def releasing : Acts → Option (String × String)
  | ⟨.setResult id state _ _ read, _⟩ :: _ => if state.isTerminal then some (id, read.dedupeKey) else none
  | _ => none

structure Deduped (w : World) (tr : Trace) : Prop where
  live : ∀ id t, w.task id = some t → t.isTerminal = false → w.dedupe t.dedupeKey = some id
  held : ∀ i id key, releasing (own i tr) = some (id, key) →
    w.dedupe key = some id ∧ ∃ t, w.task id = some t ∧ t.isTerminal = true
  unique : ∀ i j id key key', releasing (own i tr) = some (id, key) → releasing (own j tr) = some (id, key') → i = j
  released : ∀ e ∈ tr, ∀ id key, e.cmd = .delDedupe id key → e.before.dedupe key = some id

theorem deduped_init : Deduped .init [] :=
  ⟨by simp [World.init], by simp [releasing], by simp [releasing], by simp⟩

section Step

variable {w : World} {tr : Trace} {i : Nat}

/-- 記録もキーも変えない命令。 -/
theorem Deduped.quiet {c : Cmd} {r : c.Resp} (h : Deduped w tr) (htask : (c.effect w r).task = w.task)
    (hdedupe : (c.effect w r).dedupe = w.dedupe) (hrel : releasing (⟨c, r⟩ :: own i tr) = none)
    (hdel : ∀ id key, c ≠ .delDedupe id key) : Deduped (c.effect w r) (⟨i, c, r, w⟩ :: tr) := by
  have hold : ∀ j id key, releasing (own j (⟨i, c, r, w⟩ :: tr)) = some (id, key) →
      releasing (own j tr) = some (id, key) := by
    intro j id key hj
    by_cases hij : j = i
    · subst hij
      rw [own_cons_self, hrel] at hj
      cases hj
    · rwa [own_cons_ne hij] at hj
  refine ⟨?_, ?_, fun j k id key key' hj hk => h.unique j k id key key' (hold j _ _ hj) (hold k _ _ hk), ?_⟩
  · rw [htask, hdedupe]
    exact h.live
  · rw [htask, hdedupe]
    exact fun j id key hj => h.held j id key (hold j _ _ hj)
  · intro e he id key hc
    rcases List.mem_cons.mp he with rfl | he
    · exact absurd hc (hdel id key)
    · exact h.released e he id key hc

theorem dedupeKey_eq {t t' : Task} (h : t.identity = t'.identity) : t.dedupeKey = t'.dedupeKey := by
  simp only [Task.identity, Prod.mk.injEq] at h
  simp [Task.dedupeKey, h]

theorem deduped_publish {queue task} (hb : Base w tr) (h : Deduped w tr)
    (hg : keyFree.cmd i (.publishTx queue task) w tr) (hE : Expected dedupeScope (.publishTx queue task) (own i tr)) :
    Deduped (Cmd.effect w (.publishTx queue task) ()) (⟨i, .publishTx queue task, (), w⟩ :: tr) := by
  have hnone : w.task task.id = none := (hb.fresh i _ hE.2.1).2
  have hfree : w.dedupe task.dedupeKey = none := hg
  have hold : ∀ j id key, releasing (own j (⟨i, .publishTx queue task, (), w⟩ :: tr)) = some (id, key) →
      releasing (own j tr) = some (id, key) := by
    intro j id key hj
    by_cases hij : j = i
    · subst hij
      rw [own_cons_self] at hj
      cases hj
    · rwa [own_cons_ne hij] at hj
  refine ⟨fun id t ht hlive => ?_, fun j id key hj => ?_,
    fun j k id key key' hj hk => h.unique j k id key key' (hold j _ _ hj) (hold k _ _ hk), ?_⟩
  · rw [effect_task] at ht
    rw [effect_dedupe]
    by_cases hid : id = task.id
    · subst hid
      simp only [Cmd.written, ↓reduceIte, Option.some.injEq] at ht
      subst ht
      simp
    · simp only [Cmd.written, hid, ↓reduceIte] at ht
      have hkey := h.live id t ht hlive
      have hne : t.dedupeKey ≠ task.dedupeKey := by
        intro heq
        rw [heq, hfree] at hkey
        cases hkey
      simpa [hne] using hkey
  · obtain ⟨hkey, t, ht, hterm⟩ := h.held j id key (hold j _ _ hj)
    have hne : key ≠ task.dedupeKey := by
      rintro rfl
      rw [hfree] at hkey
      cases hkey
    have hid : id ≠ task.id := by
      rintro rfl
      rw [hnone] at ht
      cases ht
    rw [effect_task, effect_dedupe]
    exact ⟨by simpa [hne] using hkey, t, by simpa [Cmd.written, hid] using ht, hterm⟩
  · intro e he id key hc
    rcases List.mem_cons.mp he with rfl | he
    · cases hc
    · exact h.released e he id key hc

theorem deduped_result {id state message now read} (hb : Base w tr) (h : Deduped w tr)
    (hg : keyFree.cmd i (.setResult id state message now read) w tr)
    (hE : Expected dedupeScope (.setResult id state message now read) (own i tr)) :
    Deduped (Cmd.effect w (.setResult id state message now read) ())
      (⟨i, .setResult id state message now read, (), w⟩ :: tr) := by
  obtain ⟨_, heq, -⟩ | ⟨read', t₀, hc, ht₀, hid₀, -⟩ := hb.written (r := ()) hE rfl
  · cases heq
  · obtain rfl : read = read' := (Prod.mk.inj (Option.some.inj hc)).2
    have hkey₀ : t₀.dedupeKey = read.dedupeKey := dedupeKey_eq hid₀
    have hheld : w.dedupe read.dedupeKey = some id := hkey₀ ▸ h.live id t₀ ht₀ (hg t₀ ht₀)
    -- ほかのスレッドがこれから消すキーは、終わった別のタスクのものである。
    have hne : ∀ j id' key, releasing (own j tr) = some (id', key) → id' ≠ id := by
      rintro j id' key hj rfl
      obtain ⟨-, t, ht, hterm⟩ := h.held j id' key hj
      rw [hg t ht] at hterm
      cases hterm
    have hcases : ∀ j id' key, releasing (own j (⟨i, .setResult id state message now read, (), w⟩ :: tr)) = some (id', key) →
        (j = i ∧ id' = id ∧ key = read.dedupeKey ∧ state.isTerminal = true) ∨ releasing (own j tr) = some (id', key) := by
      intro j id' key hj
      by_cases hij : j = i
      · subst hij
        rw [own_cons_self] at hj
        simp only [releasing] at hj
        split at hj
        · rename_i hterm
          cases hj
          exact .inl ⟨rfl, rfl, rfl, hterm⟩
        · cases hj
      · rw [own_cons_ne hij] at hj
        exact .inr hj
    refine ⟨fun id' t ht hlive => ?_, fun j id' key hj => ?_, fun j k id' key key' hj hk => ?_, ?_⟩
    · rw [effect_task] at ht
      rw [effect_dedupe]
      by_cases hid : id' = id
      · subst hid
        simp only [Cmd.written, ↓reduceIte, Option.some.injEq] at ht
        subst ht
        exact hheld
      · simp only [Cmd.written, hid, ↓reduceIte] at ht
        exact h.live id' t ht hlive
    · rw [effect_task, effect_dedupe]
      obtain ⟨rfl, rfl, rfl, hterm⟩ | hj := hcases j id' key hj
      · exact ⟨hheld, read.withResult state message now, by simp [Cmd.written], hterm⟩
      · obtain ⟨hkey, t, ht, hterm⟩ := h.held j id' key hj
        exact ⟨hkey, t, by simpa [Cmd.written, hne j id' key hj] using ht, hterm⟩
    · obtain ⟨rfl, rfl, -, -⟩ | hj' := hcases j id' key hj
      · obtain ⟨rfl, -⟩ | hk' := hcases k id' key' hk
        · rfl
        · exact absurd rfl (hne k id' key' hk')
      · obtain ⟨rfl, rfl, -, -⟩ | hk' := hcases k id' key' hk
        · exact absurd rfl (hne j id' key hj')
        · exact h.unique j k id' key key' hj' hk'
    · intro e he id' key hc
      rcases List.mem_cons.mp he with rfl | he
      · cases hc
      · exact h.released e he id' key hc

theorem deduped_release {id key} (h : Deduped w tr) (hE : Expected dedupeScope (.delDedupe id key) (own i tr)) :
    Deduped (Cmd.effect w (.delDedupe id key) ()) (⟨i, .delDedupe id key, (), w⟩ :: tr) := by
  have hrel : releasing (own i tr) = some (id, key) := by
    obtain ⟨-, state, message, now, read, h', hown, hterm, rfl⟩ := hE
    rw [hown]
    simp [releasing, hterm]
  obtain ⟨hheld, t₀, ht₀, hterm₀⟩ := h.held i id key hrel
  have hold : ∀ j id' key', releasing (own j (⟨i, .delDedupe id key, (), w⟩ :: tr)) = some (id', key') →
      j ≠ i ∧ releasing (own j tr) = some (id', key') := by
    intro j id' key' hj
    by_cases hij : j = i
    · subst hij
      rw [own_cons_self] at hj
      cases hj
    · rw [own_cons_ne hij] at hj
      exact ⟨hij, hj⟩
  refine ⟨fun id' t ht hlive => ?_, fun j id' key' hj => ?_,
    fun j k id' k₁ k₂ hj hk => h.unique j k id' k₁ k₂ (hold j _ _ hj).2 (hold k _ _ hk).2, ?_⟩
  · rw [effect_task] at ht
    have hkey := h.live id' t ht hlive
    have hne : t.dedupeKey ≠ key := by
      rintro rfl
      rw [hheld] at hkey
      cases hkey
      rw [ht₀] at ht
      cases ht
      rw [hterm₀] at hlive
      cases hlive
    rw [effect_dedupe]
    simpa [hne] using hkey
  · obtain ⟨hij, hj'⟩ := hold j id' key' hj
    obtain ⟨hkey, t, ht, hterm⟩ := h.held j id' key' hj'
    have hne : key' ≠ key := by
      rintro rfl
      rw [hheld] at hkey
      cases hkey
      exact hij (h.unique j i id key' key' hj' hrel)
    rw [effect_task, effect_dedupe]
    exact ⟨by simpa [hne] using hkey, t, ht, hterm⟩
  · intro e he id' key' hc
    rcases List.mem_cons.mp he with rfl | he
    · cases hc
      exact hheld
    · exact h.released e he id' key' hc

theorem deduped_cmd {c : Cmd} {r : c.Resp} (hb : Base w tr) (h : Deduped w tr) (hg : keyFree.cmd i c w tr)
    (hE : Expected dedupeScope c (own i tr)) : Deduped (c.effect w r) (⟨i, c, r, w⟩ :: tr) := by
  cases c
  case publishTx => exact deduped_publish hb h hg hE
  case setResult => exact deduped_result hb h hg hE
  case delDedupe => exact deduped_release h hE
  case claimTx | setWorker | renewTx | recoverTx | moveBackTx | timeoutTx | setTarget | deferTx | lpush =>
      have hno := hE.1
      simp [dedupeScope] at hno
  case lrem => simp [Expected, dedupeScope] at hE
  case lremLast | delLease => simp [Expected, dedupeScope] at hE
  case brPopLPush =>
      refine h.quiet ?_ ?_ rfl (by simp)
      · funext x; rw [effect_task]; rfl
      · funext x; rw [effect_dedupe]
  all_goals exact h.quiet rfl rfl rfl (by simp)

end Step

theorem deduped_inductive : Inductive keyFree (Expected dedupeScope) fun w tr => Base w tr ∧ Deduped w tr :=
  (base_inductive keyFree dedupeScope).extend
    (fun hb h hg hE he => by
      obtain ⟨-, rfl⟩ := exec_eq he
      exact deduped_cmd hb h hg hE)
    fun _ h he => by
      obtain ⟨d, rfl⟩ | ⟨id, l, -, -, rfl⟩ := env_cases he
      · exact ⟨h.live, h.held, h.unique, h.released⟩
      · exact ⟨h.live, h.held, h.unique, h.released⟩

theorem oneLiveTask_keyFree {p : Pool machine} (hrun : Run keyFree (.start .init) p) :
    (∀ id₁ id₂ triple, p.state.liveTriple id₁ = some triple → p.state.liveTriple id₂ = some triple → id₁ = id₂) ∧
      ∀ e ∈ p.trace, ∀ id key, e.cmd = .delDedupe id key → ∀ id', e.before.dedupe key = some id' → id' = id := by
  obtain ⟨-, h⟩ := deduped_inductive.of_start bodies_keyFree ⟨base_init, deduped_init⟩ hrun
  have hheld : ∀ id cmd channel requestID, p.state.liveTriple id = some (cmd, channel, requestID) →
      p.state.dedupe (buildDedupeKey cmd channel requestID) = some id := by
    intro id cmd channel requestID hlive
    obtain ⟨t, ht, heq⟩ := Option.map_eq_some_iff.mp hlive
    obtain ⟨ht, hterm⟩ := Option.filter_eq_some_iff.mp ht
    cases heq
    exact h.live id t ht (by simpa using hterm)
  constructor
  · intro id₁ id₂ triple h₁ h₂
    obtain ⟨cmd, channel, requestID⟩ := triple
    have heq := (hheld id₁ _ _ _ h₁).symm.trans (hheld id₂ _ _ _ h₂)
    exact Option.some.inj heq
  · intro e he id key hc id' hid'
    rw [h.released e he id key hc] at hid'
    exact (Option.some.inj hid').symm

instance {k} : Decidable (keyFree.call k) := inferInstanceAs (Decidable (k.isPublishOrResult = true))

instance {i c w tr} : Decidable (keyFree.cmd i c w tr) := by
  apply Cmd.casesOn (motive := fun c => Decidable (keyFree.cmd i c w tr)) c <;> intros
  case publishTx queue task => exact inferInstanceAs (Decidable (w.dedupe task.dedupeKey = none))
  case setResult id _ _ _ _ => exact inferInstanceAs (Decidable (∀ t ∈ w.task id, t.isTerminal = false))
  all_goals exact .isTrue trivial

/-- 録画 `a` が失敗した後、同じ組の録画 `b` を公開する。 -/
def publishAgain : List (Move machine) :=
  begin (.publish "record" "start" "ch" "r" none "") ++
    advance 0 1 ++ advanceWith 0 { text := "a" } ++ advance 0 2 ++
  begin (.result "a" .failed "") ++ advance 1 4 ++
  begin (.publish "record" "start" "ch" "r" none "") ++
    advance 2 1 ++ advanceWith 2 { text := "b" } ++ advance 2 2

theorem publishAgain_oneLive : ∃ p, Run keyFree (.start .init) p ∧
    p.state.liveTriple "b" = some ("record", "ch", "r") ∧
    ∀ id, p.state.liveTriple id = some ("record", "ch", "r") → id = "b" := by
  have hplay : (Pool.play publishAgain (.start .init)).map (fun p => p.state.liveTriple "b") =
      some (some ("record", "ch", "r")) := by decide
  obtain ⟨p, hp, hb⟩ := Option.map_eq_some_iff.mp hplay
  have hrun : Run keyFree (.start .init) p := Pool.play_sound (by decide) hp
  exact ⟨p, hrun, hb, fun id hid => (oneLiveTask_keyFree hrun).1 id "b" _ hid hb⟩

end RtcEgress.Queue
