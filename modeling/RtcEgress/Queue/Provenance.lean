import RtcEgress.Queue.Lemmas.Lists

/-!
# 記録の由来

どの順に交互に実行しても、記録は消えず、要求の欄は公開のときのままである。リストに載る名前には記録があり、停止の記録は、
同じ種類とチャンネルの記録を指す。
-/

namespace RtcEgress.Queue

open RtcEgress.Lib

/-! ## 要求の欄 -/

/-- 公開の後に変わらない欄と、作成の時刻。 -/
def Task.request (t : Task) : (String × String × String × String × String × Option Payload) × Nat :=
  (t.identity, t.createdAt)

theorem request_written {c : Cmd} {r : c.Resp} {id : String} {t read : Task} (hw : c.written r = some (id, t))
    (hc : c.copy = some (id, read)) : t.request = read.request := by
  cases c <;> simp only [Cmd.copy, reduceCtorEq, Option.some.injEq, Prod.mk.injEq] at hc <;>
    obtain ⟨rfl, rfl⟩ := hc
  case timeoutTx =>
      cases r with
      | false => cases hw
      | true => cases hw; rfl
  all_goals
    cases hw
    rfl

/-- 読み取った記録は今もあり、要求の欄は変わっていない。 -/
def Traced (w : World) (tr : Trace) : Prop :=
  ∀ i reader id read, ⟨.getTask reader id, some read⟩ ∈ own i tr →
    ∃ t, w.task id = some t ∧ t.request = read.request

section Step

variable {w : World} {tr : Trace} {sc : Scope} {i : Nat} {c : Cmd} {r : c.Resp}

theorem request_effect (hb : Base w tr) (ht : Traced w tr) (hE : Expected sc c (own i tr)) {id : String} {t : Task}
    (h : w.task id = some t) : ∃ t', (c.effect w r).task id = some t' ∧ t'.request = t.request := by
  obtain ⟨heq, -⟩ | ⟨t', hw, heq⟩ := effect_task_cases w c r id
  · exact ⟨t, heq.trans h, rfl⟩
  · obtain ⟨_, _, _, hnone, _⟩ | ⟨read, t₀, hc, -, -, -⟩ := hb.written hE hw
    · rw [hnone] at h
      cases h
    · obtain ⟨reader, hmem⟩ := hE.copy hc
      obtain ⟨t₁, ht₁, hread⟩ := ht i reader id read hmem
      cases h.symm.trans ht₁
      exact ⟨t', heq, (request_written hw hc).trans hread.symm⟩

theorem Traced.cmd (hb : Base w tr) (ht : Traced w tr) (hE : Expected sc c (own i tr)) {o}
    (hreply : c.reply o w = some r) : Traced (c.effect w r) (⟨i, c, r, w⟩ :: tr) := by
  intro j reader id read hmem
  have hread : ∃ t, w.task id = some t ∧ t.request = read.request := by
    by_cases hj : j = i
    · subst hj
      rw [own_cons_self, List.mem_cons] at hmem
      cases hmem with
      | inl hnew =>
          cases hnew
          exact ⟨read, Option.some.inj hreply, rfl⟩
      | inr hold => exact ht j reader id read hold
    · rw [own_cons_ne hj] at hmem
      exact ht j reader id read hmem
  obtain ⟨t, htask, hreq⟩ := hread
  obtain ⟨t', htask', hreq'⟩ := request_effect (r := r) hb ht hE htask
  exact ⟨t', htask', hreq'.trans hreq⟩

theorem task_env {e : Env} {w' : World} (he : machine.env e w = some w') : w'.task = w.task := by
  obtain ⟨d, rfl⟩ | ⟨id, l, -, -, rfl⟩ := env_cases he <;> rfl

theorem list_env {e : Env} {w' : World} (he : machine.env e w = some w') : w'.list = w.list := by
  obtain ⟨d, rfl⟩ | ⟨id, l, -, -, rfl⟩ := env_cases he <;> rfl

end Step

theorem traced_inductive (g : Guard machine) (sc : Scope) :
    Inductive g (Expected sc) fun w tr => Base w tr ∧ Traced w tr := by
  refine (base_inductive g sc).extend (fun hb ht _ hE he => ?_) fun _ ht he => ?_
  · obtain ⟨hreply, rfl⟩ := exec_eq he
    exact ht.cmd hb hE hreply
  · rw [Traced, task_env he]
    exact ht

/-- 記録は、後のどの時にも残っていて、要求の欄は変わらない。 -/
theorem request_kept {g : Guard machine} {p p' : Pool machine} (hrun : Run g (.start .init) p) (hrun' : Run g p p')
    {id : String} {t : Task} (ht : p.state.task id = some t) :
    ∃ t', p'.state.task id = some t' ∧ t'.request = t.request := by
  have hbase := traced_inductive g .all
  obtain ⟨hfollows, hinv⟩ := hbase.run (bodies_all g) (Pool.follows_start _)
    ⟨base_init, fun i reader id read h => absurd h List.not_mem_nil⟩ hrun
  have hkept := hbase.extend (J := fun (w : World) _ => ∃ t', w.task id = some t' ∧ t'.request = t.request)
    (fun hI hJ _ hE he => by
      obtain ⟨t₁, ht₁, hreq₁⟩ := hJ
      obtain ⟨-, rfl⟩ := exec_eq he
      obtain ⟨t₂, ht₂, hreq₂⟩ := request_effect hI.1 hI.2 hE ht₁
      exact ⟨t₂, ht₂, hreq₂.trans hreq₁⟩)
    (fun _ hJ he => by rwa [task_env he])
  exact (hkept.run (bodies_all g) hfollows ⟨hinv, t, ht, rfl⟩ hrun').2.2

def anyCall : Guard machine :=
  .ofCalls fun _ => True

/-- 公開と、その後の取り出し、確保、失敗の記録。 -/
def claimedAndFailed : List (Move machine) × List (Move machine) :=
  (begin (.publish "record" "start" "ch" "r" none "") ++
      advance 0 1 ++ advanceWith 0 { text := "a" } ++ advance 0 2,
    [.env (.tick 5)] ++ begin (.popAndClaim "p" "egress:record:ch") ++ advance 1 4 ++
      begin (.result "a" .failed "lost") ++ advance 2 4)

theorem request_kept_failed : ∃ (p p' : Pool machine) (t t' : Task), Run anyCall (.start .init) p ∧
    Run anyCall p p' ∧ p.state.task "a" = some t ∧ p'.state.task "a" = some t' ∧ t.state = .enqueued ∧
      t'.state = .failed ∧ t'.request = t.request := by
  have hplay : ((Pool.play claimedAndFailed.1 (.start .init)).bind fun p =>
      (Pool.play claimedAndFailed.2 p).map fun p' =>
        ((p.state.task "a").map Task.state, (p'.state.task "a").map Task.state)) =
      some (some .enqueued, some .failed) := by decide
  obtain ⟨p, hp, hplay⟩ := Option.bind_eq_some_iff.mp hplay
  obtain ⟨p', hp', heq⟩ := Option.map_eq_some_iff.mp hplay
  obtain ⟨henqueued, hfailed⟩ := Prod.mk.inj heq
  obtain ⟨t, ht, hstate⟩ := Option.map_eq_some_iff.mp henqueued
  have hrun : Run anyCall (.start .init) p := Pool.play_sound (Pool.allMeet_ofCalls (by simp)) hp
  have hrun' : Run anyCall p p' := Pool.play_sound (Pool.allMeet_ofCalls (by simp)) hp'
  obtain ⟨t', ht', hrequest⟩ := request_kept hrun hrun' ht
  rw [ht'] at hfailed
  exact ⟨p, p', t, t', hrun, hrun', ht, ht', hstate, Option.some.inj hfailed, hrequest⟩

/-! ## リストに載る名前 -/

/-- 命令がリストに加える名前。 -/
def Cmd.pushed : (c : Cmd) → c.Resp → Option String
  | .publishTx _ task, _ => some task.id
  | .recoverTx _ id _ _, _ | .moveBackTx _ id _, _ | .deferTx _ id _, _ | .lpush _ id, _ => some id
  | .brPopLPush _ _, some id => some id
  | _, _ => none

section Lists

variable {w : World} {q k id x : String}

theorem World.mem_setList {l : List String} {changed : Bool} (h : x ∈ (w.setList q l changed).list k) :
    x ∈ l ∨ x ∈ w.list k := by
  rw [World.list_setList] at h
  split at h
  · exact .inl h
  · exact .inr h

theorem World.mem_lpush (h : x ∈ (w.lpush q id).list k) : x = id ∨ ∃ k', x ∈ w.list k' := by
  cases World.mem_setList h with
  | inl hnew => exact (List.mem_cons.mp hnew).imp_right fun hold => ⟨q, hold⟩
  | inr hold => exact .inr ⟨k, hold⟩

theorem World.mem_rpush (h : x ∈ (w.rpush q id).list k) : x = id ∨ ∃ k', x ∈ w.list k' := by
  cases World.mem_setList h with
  | inl hnew =>
      cases List.mem_append.mp hnew with
      | inl hold => exact .inr ⟨q, hold⟩
      | inr hid => exact .inl (List.mem_singleton.mp hid)
  | inr hold => exact .inr ⟨k, hold⟩

theorem World.mem_lrem (h : x ∈ (w.lrem q id).list k) : ∃ k', x ∈ w.list k' := by
  cases World.mem_setList h with
  | inl hnew => exact ⟨q, List.mem_of_mem_erase hnew⟩
  | inr hold => exact ⟨k, hold⟩

theorem World.mem_lremLast (h : x ∈ (w.lremLast q id).list k) : ∃ k', x ∈ w.list k' := by
  cases World.mem_setList h with
  | inl hnew => exact ⟨q, List.mem_reverse.mp (List.mem_of_mem_erase (List.mem_reverse.mp hnew))⟩
  | inr hold => exact ⟨k, hold⟩

/-- リストに載る名前は、前からどこかに載っていたか、命令が加えたものである。 -/
theorem mem_list_effect {c : Cmd} {r : c.Resp} (h : x ∈ (c.effect w r).list k) :
    (∃ k', x ∈ w.list k') ∨ c.pushed r = some x := by
  cases c
  case publishTx queue task =>
      cases World.mem_lpush (w := w) h with
      | inl heq => exact .inr (congrArg some heq.symm)
      | inr hold => exact .inl hold
  case recoverTx queue id now read =>
      obtain ⟨k', hk'⟩ := World.mem_lrem (w := ((w.setTask id (read.recovered now)).lpush _ id)) h
      cases World.mem_lpush (w := w.setTask id (read.recovered now)) hk' with
      | inl heq => exact .inr (congrArg some heq.symm)
      | inr hold => exact .inl hold
  case moveBackTx podID id read =>
      obtain ⟨k', hk'⟩ := World.mem_lrem (w := ((w.setTask id read.movedBack).lpush _ id)) h
      cases World.mem_lpush (w := w.setTask id read.movedBack) hk' with
      | inl heq => exact .inr (congrArg some heq.symm)
      | inr hold => exact .inl hold
  case timeoutTx id queue watched age read =>
      cases r with
      | false => exact .inl ⟨k, h⟩
      | true => exact .inl (World.mem_lrem (w := w.setTask id (read.timedOut age)) h)
  case brPopLPush podID queue =>
      cases r with
      | none => exact .inl ⟨k, h⟩
      | some id =>
          cases World.mem_lpush h with
          | inl heq => exact .inr (congrArg some heq.symm)
          | inr hold =>
              obtain ⟨k', hk'⟩ := hold
              cases World.mem_setList hk' with
              | inl hdrop => exact .inl ⟨queue, List.mem_of_mem_dropLast hdrop⟩
              | inr hkeep => exact .inl ⟨k', hkeep⟩
  case deferTx podID id target =>
      cases World.mem_rpush h with
      | inl heq => exact .inr (congrArg some heq.symm)
      | inr hold =>
          obtain ⟨k', hk'⟩ := hold
          exact .inl (World.mem_lrem hk')
  case lrem queue id => exact .inl (World.mem_lrem h)
  case lpush queue id =>
      cases World.mem_lpush h with
      | inl heq => exact .inr (congrArg some heq.symm)
      | inr hold => exact .inl hold
  case lremLast queue id => exact .inl (World.mem_lremLast h)
  all_goals exact .inl ⟨k, h⟩

end Lists

/-- リストに載る名前と、取り出された名前には、記録がある。 -/
structure Sourced (w : World) (tr : Trace) : Prop where
  listed : ∀ k x, x ∈ w.list k → ∃ t, w.task x = some t
  popped : ∀ i podID queue id, ⟨.brPopLPush podID queue, some id⟩ ∈ own i tr → ∃ t, w.task id = some t

section Sourced

variable {w : World} {tr : Trace} {sc : Scope} {i : Nat} {c : Cmd} {r : c.Resp}

/-- 記録は命令の後も残る。 -/
theorem Base.recorded_effect (hb : Base w tr) (hE : Expected sc c (own i tr)) {id : String}
    (h : ∃ t, w.task id = some t) : ∃ t, (c.effect w r).task id = some t := by
  obtain ⟨t, ht⟩ := h
  obtain ⟨t', ht', -⟩ := (hb.le_effect (r := r) hE).identity id t ht
  exact ⟨t', ht'⟩

theorem Sourced.of_inFlight (h : Sourced w tr) {podID id : String} {h' : Acts} (hsub : h' ⊆ own i tr)
    (hflight : inFlight h' = some (podID, id)) : ∃ t, w.task id = some t := by
  obtain ⟨queue, hpop⟩ := popped_of_inFlight hflight
  exact h.popped i podID queue id (hsub hpop)

/-- 加えた名前には、記録がある。 -/
theorem Sourced.pushed (hb : Base w tr) (h : Sourced w tr) (hE : Expected sc c (own i tr)) {o}
    (hreply : c.reply o w = some r) {x : String} (hx : c.pushed r = some x) :
    ∃ t, (c.effect w r).task x = some t := by
  cases c
  case publishTx queue task =>
      cases hx
      exact ⟨task, by rw [effect_task]; simp [Cmd.written]⟩
  case recoverTx queue id now read =>
      cases hx
      exact ⟨read.recovered now, by rw [effect_task]; simp [Cmd.written]⟩
  case moveBackTx podID id read =>
      cases hx
      exact ⟨read.movedBack, by rw [effect_task]; simp [Cmd.written]⟩
  case brPopLPush podID queue =>
      cases r with
      | none => cases hx
      | some popped =>
          cases hx
          have hlast : (w.list queue).getLast? = some x := Option.some.inj hreply
          exact hb.recorded_effect hE (h.listed queue x (List.mem_of_getLast? hlast))
  case deferTx podID id target =>
      obtain ⟨t, ht⟩ := h.of_inFlight (fun _ ha => ha) hE.2
      cases hx
      exact hb.recorded_effect hE ⟨t, ht⟩
  case lpush queue taskID =>
      have hpush := hE
      obtain ⟨-, queue', podID, h', hown, hflight⟩ := hpush
      cases hx
      have hsub : h' ⊆ own i tr := by
        rw [hown]
        exact List.subset_cons_of_subset _ (List.subset_cons_self _ _)
      exact hb.recorded_effect hE (h.of_inFlight hsub hflight)
  all_goals cases hx

theorem Sourced.cmd (hb : Base w tr) (h : Sourced w tr) (hE : Expected sc c (own i tr)) {o}
    (hreply : c.reply o w = some r) : Sourced (c.effect w r) (⟨i, c, r, w⟩ :: tr) := by
  constructor
  · intro k x hx
    cases mem_list_effect hx with
    | inl hold =>
        obtain ⟨k', hk'⟩ := hold
        exact hb.recorded_effect hE (h.listed k' x hk')
    | inr hpushed => exact h.pushed hb hE hreply hpushed
  · intro j podID queue id hmem
    by_cases hj : j = i
    · subst hj
      rw [own_cons_self, List.mem_cons] at hmem
      cases hmem with
      | inl hnew =>
          cases hnew
          exact h.pushed hb hE hreply rfl
      | inr hold => exact hb.recorded_effect hE (h.popped j podID queue id hold)
    · rw [own_cons_ne hj] at hmem
      exact hb.recorded_effect hE (h.popped j podID queue id hmem)

end Sourced

/-- キューにも処理中のリストにも、公開されていない名前は載らない。 -/
theorem listed_recorded {g : Guard machine} {p : Pool machine} (hrun : Run g (.start .init) p) {q id : String}
    (hid : id ∈ p.state.list q) : ∃ t, p.state.task id = some t := by
  have hsourced := (base_inductive g .all).extend (J := Sourced)
    (fun hb h _ hE he => by
      obtain ⟨hreply, rfl⟩ := exec_eq he
      exact h.cmd hb hE hreply)
    (fun _ h he => ⟨by rw [task_env he, list_env he]; exact h.listed, by rw [task_env he]; exact h.popped⟩)
  have hinit : Sourced World.init [] :=
    ⟨fun k x hx => absurd hx List.not_mem_nil, fun i podID queue id hmem => absurd hmem List.not_mem_nil⟩
  exact (hsourced.of_start (bodies_all g) ⟨base_init, hinit⟩ hrun).2.listed q id hid

theorem listed_recorded_claimed : ∃ p : Pool machine, Run anyCall (.start .init) p ∧
    "a" ∈ p.state.list "egress:processing:p" ∧ ∃ t, p.state.task "a" = some t := by
  have hplay : (Pool.play (claimedAndFailed.1 ++ claimedAndFailed.2) (.start .init)).map (fun p =>
      p.state.list "egress:processing:p") = some ["a"] := by decide
  obtain ⟨p, hp, hlist⟩ := Option.map_eq_some_iff.mp hplay
  have hrun : Run anyCall (.start .init) p := Pool.play_sound (Pool.allMeet_ofCalls (by simp)) hp
  have hmem : "a" ∈ p.state.list "egress:processing:p" := hlist ▸ List.mem_singleton_self "a"
  exact ⟨p, hrun, hmem, listed_recorded hrun hmem⟩

end RtcEgress.Queue
