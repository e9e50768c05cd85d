import RtcEgress.Queue.Lemmas.Lists

/-!
# 取り出しと時間切れは両立しない

古いタスクの走査は、記録とキューを監視してから記録を読み、待ち時間を調べ、キューの中の位置を調べて、時間切れを
書き込む。どの順にポッドの取り出しと確保が挟まっても、取り出されたタスクは時間切れにならない。
-/

namespace RtcEgress.Queue

open RtcEgress.Lib

/-- 取り出したタスク。 -/
def poppedID : Act Cmd Cmd.Resp → Option String
  | ⟨.brPopLPush _ _, some id⟩ => some id
  | _ => none

/-- 確保したタスク。 -/
def claimedID : Act Cmd Cmd.Resp → Option String
  | ⟨.claimTx _ id _ _, _⟩ => some id
  | _ => none

/-- 時間切れを書き込んだタスク。 -/
def timedOutID : Act Cmd Cmd.Resp → Option String
  | ⟨.timeoutTx id _ _ _ _, true⟩ => some id
  | _ => none

/-- 実行した命令の中に、`id` についての `f` の命令がある。 -/
abbrev Happened (f : Act Cmd Cmd.Resp → Option String) (tr : Trace) (id : String) : Prop :=
  ∃ e ∈ tr, f e.act = some id

/-- 公開、取り出しと確保、古いタスクの走査を行う。ポッドの名前はコロンを含まない。 -/
def polling : Guard machine := .ofCalls fun k => match k with
  | .publish .. | .cleanupAgedTasks => True
  | .popAndClaim podID _ => ':' ∉ podID.toList
  | _ => False

/-- 各タスクは全体で高々一度しかリストに現れず、記録やリストにある名前は生成済みである。 -/
structure World.Tidy (w : World) : Prop where
  once : ∀ id, w.lists.AtMostOnce id
  listed : ∀ k id, id ∈ w.list k → id ∈ w.used
  used : ∀ id, (w.task id).isSome → id ∈ w.used

def pollingScope : Scope := ⟨[.publish, .claim, .directPop, .timeout], fun podID => ':' ∉ podID.toList⟩

theorem bodies_polling : Bodies polling (Expected pollingScope) := by
  refine bodies fun k hk => ?_
  cases k <;> first
    | exact hk.elim
    | exact ⟨by simp [Call.writers, pollingScope],
        fun podID hp => by simp_all [Call.popper, pollingScope, polling, Guard.ofCalls]⟩

/-! ## タスクごとの不変条件 -/

structure PolledAt (w : World) (tr : Trace) (id : String) : Prop where
  once : w.lists.AtMostOnce id
  listed : ∀ k, id ∈ w.list k → id ∈ w.used
  fresh : ∀ i, pending (own i tr) = some id → w.lists.Nowhere id
  popped : Happened poppedID tr id → ∃ podID, ':' ∉ podID.toList ∧ w.lists.Located id (buildProcessingQueueKey podID)
  timedOut : Happened timedOutID tr id → (w.task id).isSome ∧ w.lists.Nowhere id
  claimed : Happened claimedID tr id → Happened poppedID tr id

def Polled (w : World) (tr : Trace) : Prop := Base w tr ∧ ∀ id, PolledAt w tr id

theorem polled_start {w : World} (h : w.Tidy) : Polled w [] :=
  ⟨base_start h.used, fun id =>
    { once := h.once id
      listed := fun k => h.listed k id
      fresh := by simp [pending]
      popped := by simp
      timedOut := by simp
      claimed := by simp }⟩

section Step

variable {w : World} {tr : Trace} {i : Nat} {c : Cmd} {r : c.Resp} {x : String}

theorem happened_cons {f : Act Cmd Cmd.Resp → Option String} :
    Happened f (⟨i, c, r, w⟩ :: tr) x ↔ f ⟨c, r⟩ = some x ∨ Happened f tr x := by
  simp [Happened, Event.act]

/-- 確保されるタスクは、同じスレッドが取り出したものである。 -/
theorem claimed_popped (h : PolledAt w tr x) (hE : Expected pollingScope c (own i tr))
    (hc : Happened claimedID (⟨i, c, r, w⟩ :: tr) x) : Happened poppedID (⟨i, c, r, w⟩ :: tr) x := by
  refine happened_cons.mpr (.inr ?_)
  rcases happened_cons.mp hc with hc | hc
  · cases c <;> simp only [claimedID, reduceCtorEq, Option.some.injEq] at hc
    case claimTx podID id now read =>
        subst hc
        obtain ⟨-, -, hflight | hdirect⟩ := hE
        · obtain ⟨queue, hmem⟩ := popped_of_inFlight hflight
          obtain ⟨w₀, he⟩ := mem_of_own hmem
          exact ⟨_, he, rfl⟩
        · simp [pollingScope] at hdirect
  · exact h.claimed hc

/-- 出現を変えない命令。 -/
theorem PolledAt.frame {o} (hb : Base w tr) (h : PolledAt w tr x) (hE : Expected pollingScope c (own i tr))
    (hreply : c.reply o w = some r) (hocc : ∀ k, (c.effect w r).lists.occ x k = w.lists.occ x k)
    (hpop : poppedID ⟨c, r⟩ ≠ some x) (hto : timedOutID ⟨c, r⟩ ≠ some x) :
    PolledAt (c.effect w r) (⟨i, c, r, w⟩ :: tr) x where
  once := h.once.congr hocc
  listed k hk := by
    refine (hb.le_effect hE).used (h.listed k ?_)
    rw [World.list, ← KeyedLists.occ_pos, ← hocc]
    exact KeyedLists.occ_pos.mpr hk
  fresh j hp k := by
    rw [hocc]
    obtain ⟨-, hnot, -⟩ | ⟨hp', -⟩ := hb.pending_step hE hreply hp
    · exact List.count_eq_zero_of_not_mem fun hmem => hnot (h.listed k hmem)
    · exact h.fresh j hp' k
  popped hp := by
    rcases happened_cons.mp hp with hp | hp
    · exact absurd hp hpop
    · obtain ⟨podID, hcolon, hloc⟩ := h.popped hp
      exact ⟨podID, hcolon, fun k => (hocc k).trans (hloc k)⟩
  timedOut ht := by
    rcases happened_cons.mp ht with ht | ht
    · exact absurd ht hto
    · obtain ⟨hsome, hnow⟩ := h.timedOut ht
      obtain ⟨t, ht⟩ := Option.isSome_iff_exists.mp hsome
      obtain ⟨t', ht', -⟩ := (hb.le_effect hE).identity x t ht
      exact ⟨by rw [ht']; rfl, fun k => (hocc k).trans (hnow k)⟩
  claimed hc := claimed_popped h hE hc

/-- 時間切れの書き込みと、記録のないタスクの除去が見るキューは、取り出されたタスクの居場所ではない。 -/
theorem PolledAt.not_popped {queue h'} (hb : Base w tr) (h : PolledAt w tr x) (hs : Scanned queue h')
    (hown : h' ⊆ own i tr) (hloc : w.lists.Located x queue) : ¬Happened poppedID tr x := by
  intro hp
  obtain ⟨podID, hcolon, hloc'⟩ := h.popped hp
  exact scanned_ne_processing hb.recorded hs hown hcolon (hloc'.eq_of_mem hloc.mem)

/-- リストから除かれたタスク。 -/
theorem PolledAt.removed (h : PolledAt w tr x) (hE : Expected pollingScope c (own i tr))
    (hnow : (c.effect w r).lists.Nowhere x) (hpop : ¬Happened poppedID tr x) (hne : poppedID ⟨c, r⟩ ≠ some x)
    (hsome : Happened timedOutID (⟨i, c, r, w⟩ :: tr) x → ((c.effect w r).task x).isSome) :
    PolledAt (c.effect w r) (⟨i, c, r, w⟩ :: tr) x where
  once := .inl hnow
  listed k hk := absurd hk (hnow.not_mem k)
  fresh _ _ := hnow
  popped hp := by
    rcases happened_cons.mp hp with hp | hp
    · exact absurd hp hne
    · exact absurd hp hpop
  timedOut ht := ⟨hsome ht, hnow⟩
  claimed hc := claimed_popped h hE hc

theorem polledAt_publish {queue task o} (hb : Base w tr) (h : PolledAt w tr task.id)
    (hE : Expected pollingScope (.publishTx queue task) (own i tr))
    (hreply : Cmd.reply o w (.publishTx queue task) = some ()) :
    PolledAt (Cmd.effect w (.publishTx queue task) ()) (⟨i, .publishTx queue task, (), w⟩ :: tr) task.id where
  once := .inr ⟨queue, World.located_lpush (h.fresh i hE.2.1)⟩
  listed k _ := (hb.le_effect hE).used (hb.fresh i _ hE.2.1).1
  fresh j hp := by
    obtain ⟨-, -, cmd, channel, requestID, heq⟩ | ⟨-, hne⟩ := hb.pending_step hE hreply hp
    · cases heq
    · exact absurd rfl (hne task)
  popped hp := by
    rcases happened_cons.mp hp with hp | hp
    · cases hp
    · obtain ⟨podID, -, hloc⟩ := h.popped hp
      exact absurd (h.fresh i hE.2.1) hloc.not_nowhere
  timedOut ht := by
    rcases happened_cons.mp ht with ht | ht
    · cases ht
    · have hsome := (h.timedOut ht).1
      rw [(hb.fresh i _ hE.2.1).2] at hsome
      cases hsome
  claimed hc := claimed_popped h hE hc

theorem polledAt_pop {podID queue o} (hb : Base w tr) (h : PolledAt w tr x)
    (hE : Expected pollingScope (.brPopLPush podID queue) (own i tr))
    (hreply : Cmd.reply o w (.brPopLPush podID queue) = some (some x)) :
    PolledAt (Cmd.effect w (.brPopLPush podID queue) (some x)) (⟨i, .brPopLPush podID queue, some x, w⟩ :: tr) x := by
  have hlast : (w.list queue).getLast? = some x := Option.some.inj hreply
  have hmem : x ∈ w.list queue := List.mem_of_getLast? hlast
  have hloc : w.lists.Located x queue := h.once.located hmem
  have hloc' := World.located_rpoplpush (buildProcessingQueueKey podID) hlast hloc
  exact
    { once := .inr ⟨_, hloc'⟩
      listed := fun k _ => (hb.le_effect hE).used (h.listed queue hmem)
      fresh := fun j hp => by
        obtain ⟨-, -, cmd, channel, requestID, heq⟩ | ⟨hp', -⟩ := hb.pending_step hE hreply hp
        · cases heq
        · exact absurd (h.fresh j hp') hloc.not_nowhere
      popped := fun _ => ⟨podID, hE.1, hloc'⟩
      timedOut := fun ht => by
        rcases happened_cons.mp ht with ht | ht
        · cases ht
        · exact absurd (h.timedOut ht).2 hloc.not_nowhere
      claimed := claimed_popped h hE }

theorem polledAt_timeout {id queue watched age read o} (hb : Base w tr) (h : PolledAt w tr id)
    (hE : Expected pollingScope (.timeoutTx id queue watched age read) (own i tr))
    (hreply : Cmd.reply o w (.timeoutTx id queue watched age read) = some true) :
    PolledAt (Cmd.effect w (.timeoutTx id queue watched age read) true)
      (⟨i, .timeoutTx id queue watched age read, true, w⟩ :: tr) id := by
  have hrevs : watched = w.revs id queue := by simpa [Cmd.reply] using hreply
  have hloc : w.lists.Located id queue := h.once.located (hb.watched hE hrevs).2
  have hshape := hE
  obtain ⟨-, -, -, position, now, h', hown, -, hs⟩ := hshape
  refine h.removed hE (World.nowhere_lrem (w := w.setTask id (read.timedOut age)) hloc)
    (h.not_popped hb hs (fun a ha => by rw [hown]; simp [ha]) hloc) (by simp [poppedID]) fun _ => ?_
  rw [effect_task]
  simp [Cmd.written]

/-- 記録のないタスクの除去。 -/
theorem polledAt_lrem {queue id o} (hb : Base w tr) (h : PolledAt w tr id)
    (hE : Expected pollingScope (.lrem queue id) (own i tr)) (hreply : Cmd.reply o w (.lrem queue id) = some ()) :
    PolledAt (Cmd.effect w (.lrem queue id) ()) (⟨i, .lrem queue id, (), w⟩ :: tr) id := by
  by_cases hmem : id ∈ w.list queue
  · have hloc : w.lists.Located id queue := h.once.located hmem
    have hs : ∃ h', Scanned queue h' ∧ h' ⊆ own i tr := by
      obtain ⟨-, h', hown, hs, -⟩ | ⟨hno, -⟩ | ⟨hno, -⟩ := hE
      · exact ⟨h', hs, by rw [hown]; exact List.subset_cons_self ..⟩
      · simp [pollingScope] at hno
      · simp [pollingScope] at hno
    obtain ⟨h', hs, hown⟩ := hs
    refine h.removed hE (World.nowhere_lrem hloc) (h.not_popped hb hs hown hloc) (by simp [poppedID]) ?_
    intro ht
    rcases happened_cons.mp ht with ht | ht
    · cases ht
    · exact absurd (h.timedOut ht).2 hloc.not_nowhere
  · refine h.frame hb hE hreply (fun k => ?_) (by simp [poppedID]) (by simp [timedOutID])
    have hzero : w.lists.occ id queue = 0 := List.count_eq_zero_of_not_mem hmem
    show (w.lrem queue id).lists.occ id k = w.lists.occ id k
    rw [World.occ_lrem]
    by_cases hk : k = queue
    · subst hk
      simp [hzero]
    · simp [hk]

theorem polledAt_cmd {o} (hb : Base w tr) (h : PolledAt w tr x) (hE : Expected pollingScope c (own i tr))
    (hreply : c.reply o w = some r) : PolledAt (c.effect w r) (⟨i, c, r, w⟩ :: tr) x := by
  cases c
  case publishTx queue task =>
      by_cases hx : x = task.id
      · subst hx
        exact polledAt_publish hb h hE hreply
      · refine h.frame hb hE hreply (fun k => ?_) (by simp [poppedID]) (by simp [timedOutID])
        show (w.lpush queue task.id).lists.occ x k = _
        simp [World.occ_lpush, hx]
  case brPopLPush podID queue =>
      cases r with
      | none => exact h.frame hb hE hreply (fun _ => rfl) (by simp [poppedID]) (by simp [timedOutID])
      | some id =>
          by_cases hx : x = id
          · subst hx
            exact polledAt_pop hb h hE hreply
          · refine h.frame hb hE hreply (fun k => ?_) (by simpa [poppedID] using Ne.symm hx) (by simp [timedOutID])
            have hlast : (w.list queue).getLast? = some id := Option.some.inj hreply
            show (w.rpoplpush queue (buildProcessingQueueKey podID) id).lists.occ x k = _
            simp [World.occ_rpoplpush hlast, hx]
  case timeoutTx id queue watched age read =>
      cases r with
      | false => exact h.frame hb hE hreply (fun _ => rfl) (by simp [poppedID]) (by simp [timedOutID])
      | true =>
          by_cases hx : x = id
          · subst hx
            exact polledAt_timeout hb h hE hreply
          · refine h.frame hb hE hreply (fun k => ?_) (by simp [poppedID]) (by simpa [timedOutID] using Ne.symm hx)
            show ((w.setTask id (read.timedOut age)).lrem queue id).lists.occ x k = w.lists.occ x k
            simp only [World.occ_lrem, hx, and_false, ↓reduceIte, Nat.sub_zero]
            rfl
  case lrem queue id =>
      by_cases hx : x = id
      · subst hx
        exact polledAt_lrem hb h hE hreply
      · refine h.frame hb hE hreply (fun k => ?_) (by simp [poppedID]) (by simp [timedOutID])
        show (w.lrem queue id).lists.occ x k = _
        simp [World.occ_lrem, hx]
  -- 残りの書き込みは、この範囲の呼び出しからは出ない。
  case setWorker | setResult | delDedupe | renewTx | recoverTx | moveBackTx | setTarget | deferTx | lpush =>
      have hno := hE.1
      simp [pollingScope] at hno
  case lremLast | delLease => simp [Expected, pollingScope] at hE
  all_goals
    exact h.frame hb hE hreply (fun _ => rfl) (by simp [poppedID]) (by simp [timedOutID])

end Step

theorem polled_inductive : Inductive polling (Expected pollingScope) Polled := by
  refine ⟨fun {i c o w tr r w'} h _ hE he => ?_, fun {e w tr w'} h he => ?_⟩
  · obtain ⟨hreply, rfl⟩ := exec_eq he
    exact ⟨h.1.cmd hE he, fun id => polledAt_cmd h.1 (h.2 id) hE hreply⟩
  · refine ⟨h.1.env he, fun id => ?_⟩
    obtain ⟨once, listed, fresh, popped, timedOut, claimed⟩ := h.2 id
    obtain ⟨d, rfl⟩ | ⟨id', l, -, -, rfl⟩ := env_cases he
    · exact ⟨once, listed, fresh, popped, timedOut, claimed⟩
    · exact ⟨once, listed, fresh, popped, timedOut, claimed⟩

/-- 取り出されたタスクも確保されたタスクも時間切れにならず、時間切れになったタスクはどのリストにもない。 -/
theorem popped_not_timedOut {w : World} {p : Pool machine} (hw : w.Tidy) (hrun : Run polling (.start w) p)
    (id : String) :
    ¬(Happened poppedID p.trace id ∧ Happened timedOutID p.trace id) ∧
      ¬(Happened claimedID p.trace id ∧ Happened timedOutID p.trace id) ∧
      (Happened timedOutID p.trace id → ∀ k, id ∉ p.state.list k) := by
  have hid := (polled_inductive.of_start bodies_polling (polled_start hw) hrun).2 id
  have hpop : ¬(Happened poppedID p.trace id ∧ Happened timedOutID p.trace id) := by
    rintro ⟨hp, ht⟩
    obtain ⟨podID, -, hloc⟩ := hid.popped hp
    exact hloc.not_nowhere (hid.timedOut ht).2
  exact ⟨hpop, fun ⟨hc, ht⟩ => hpop ⟨hid.claimed hc, ht⟩, fun ht => (hid.timedOut ht).2.not_mem⟩

/-- `b` を取り出して確保し、`a` は三十秒を過ぎて走査が時間切れにする。 -/
def popAndTimeout : List (Move machine) :=
  begin (.publish "record" "start" "ch" "r1" none "") ++
    advance 0 1 ++ advanceWith 0 { text := "b" } ++ advance 0 2 ++
  begin (.popAndClaim "p" "egress:record:ch") ++ advance 1 4 ++
  begin (.publish "record" "start" "channel:x" "r2" none "") ++
    advance 2 1 ++ advanceWith 2 { text := "a" } ++ advance 2 2 ++
  [.env (.tick (31 * second))] ++ begin .cleanupAgedTasks ++ advance 3 7

theorem popAndTimeout_separate : ∃ p, Run polling (.start .init) p ∧ Happened claimedID p.trace "b" ∧
    Happened timedOutID p.trace "a" ∧ ¬Happened timedOutID p.trace "b" ∧ ∀ k, "a" ∉ p.state.list k := by
  have hplay : (Pool.play popAndTimeout (.start .init)).map (fun p =>
      decide (Happened claimedID p.trace "b" ∧ Happened timedOutID p.trace "a")) = some true := by decide
  obtain ⟨p, hp, hb⟩ := Option.map_eq_some_iff.mp hplay
  obtain ⟨hclaimed, htimedOut⟩ := of_decide_eq_true hb
  have hrun : Run polling (.start .init) p := by
    refine Pool.play_sound (Pool.allMeet_ofCalls fun k hk => ?_) hp
    simp [popAndTimeout, begin, advance, advanceWith, Move.call?] at hk
    rcases hk with rfl | rfl | rfl | rfl <;> trivial
  have htidy : World.Tidy .init :=
    ⟨fun id => .inl fun k => rfl, fun k id h => by simp [World.list, World.init] at h, fun id h => by simp [World.init] at h⟩
  obtain ⟨-, hb, -⟩ := popped_not_timedOut htidy hrun "b"
  obtain ⟨-, -, ha⟩ := popped_not_timedOut htidy hrun "a"
  exact ⟨p, hrun, hclaimed, htimedOut, fun h => hb ⟨hclaimed, h⟩, ha htimedOut⟩

end RtcEgress.Queue
