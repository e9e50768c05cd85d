import RtcEgress.Queue.Lemmas.Lists

/-!
# タスクは失われず、重複しないか

`designs/task_dispatching_design.md` は、タスクが失われず重複しないことを約束する。取り出しから確保までの間、
タスクは処理中のリストにあってリースを持たない。各ポッドの回収の走査は、リースがないことを確かめた後で、条件を
確かめ直さずにタスクを元のキューへ戻す。
-/

namespace RtcEgress.Queue

open RtcEgress.Lib

/-- 成功した確保のポッドとタスク。 -/
def claimOf : Act Cmd Cmd.Resp → Option (String × String)
  | ⟨.claimTx podID id _ _, _⟩ => some (podID, id)
  | _ => none

/-- 同じタスクを別のポッドが確保するのは、前の確保のリースの期限より後である。 -/
def ClaimsApart (later earlier : Event machine) : Prop :=
  ∀ id podID podID', claimOf earlier.act = some (podID, id) → claimOf later.act = some (podID', id) →
    podID ≠ podID' → earlier.before.now + leaseTimeout ≤ later.before.now

/-- 条件 `g` のもとでの実行では、終わっていないタスクは全体でちょうど一度だけリストに現れ、異なるポッドの確保は
重ならない。 -/
def NoLossNoDuplication (g : Guard machine) : Prop :=
  ∀ p, Run g (.start .init) p →
    (∀ id t, p.state.task id = some t → t.isTerminal = false → ∃ k, p.state.lists.Located id k) ∧
    p.trace.Pairwise ClaimsApart

/-- 公開、取り出し、二つの走査を行う。ポッドの名前はコロンを含まない。 -/
def Call.isDispatch : Call → Bool
  | .publish .. | .publishStop .. | .cleanupExpiredLeases | .cleanupAgedTasks => true
  | .fetch podID _ _ => ':' ∉ podID.toList
  | _ => false

def dispatching : Guard machine := .ofCalls fun k => k.isDispatch = true

/-! ## 成り立たない実行 -/

/-- ポッド `p` が取り出した `a` を、確保の前に走査が回収する。回収された `a` をポッド `q` が取り出し、`p` と `q` が
続けて確保する。 -/
def recoverBeforeClaim : List (Move machine) :=
  begin (.publish "record" "start" "ch" "r" none "") ++
    advance 0 1 ++ advanceWith 0 { text := "a" } ++ advance 0 2 ++
  begin (.fetch "p" "" ["egress:record:*"]) ++ advance 1 2 ++
  begin .cleanupExpiredLeases ++ advance 2 6 ++
  begin (.fetch "q" "" ["egress:record:*"]) ++ advance 3 3 ++
  advance 1 4 ++ advance 3 3

theorem not_noLossNoDuplication : ¬NoLossNoDuplication dispatching := by
  intro h
  have hplay : (Pool.play recoverBeforeClaim (.start .init)).map (fun p =>
      p.trace.map fun e => (claimOf e.act, e.before.now)) =
      some ((some ("q", "a"), 0) :: List.replicate 2 (none, 0) ++ (some ("p", "a"), 0) :: List.replicate 18 (none, 0)) := by
    decide
  obtain ⟨p, hp, htrace⟩ := Option.map_eq_some_iff.mp hplay
  have hrun : Run dispatching (.start .init) p := Pool.play_sound (Pool.allMeet_ofCalls (by decide)) hp
  obtain ⟨-, hapart⟩ := h p hrun
  obtain ⟨later, rest, hcons, hlater, hrest⟩ := List.map_eq_cons_iff.mp htrace
  have hmem : (some ("p", "a"), 0) ∈ rest.map fun e => (claimOf e.act, e.before.now) := by simp [hrest]
  obtain ⟨earlier, hearlier, heq⟩ := List.mem_map.mp hmem
  rw [hcons, List.pairwise_cons] at hapart
  have hle := hapart.1 earlier hearlier "a" "p" "q" (Prod.mk.inj heq).1 (Prod.mk.inj hlater).1 (by decide)
  rw [(Prod.mk.inj heq).2, (Prod.mk.inj hlater).2] at hle
  exact absurd hle (by decide)

/-! ## 成り立つ条件 -/

/-- スレッドが落ちるときまでに実行された、全体の命令の数。`none` のスレッドは落ちない。 -/
abbrev Crashes := Nat → Option Nat

/-- スレッド `j` は、まだ落ちていない。 -/
def Running (crashes : Crashes) (j : Nat) (tr : Trace) : Prop := ∀ n ∈ crashes j, tr.length < n

/-- 動いているスレッド `j` は、ポッド `podID` でタスク `id` を取り出して、確保する途中である。 -/
def Fetching (crashes : Crashes) (j : Nat) (podID id : String) (tr : Trace) : Prop :=
  Running crashes j tr ∧ inFlight (own j tr) = some (podID, id)

/-- 落ちたスレッドは命令を出さない。回収の書き込みは、タスクがまだその処理中のリストにあり、リースがなく、
動いているどのポッドも取り出して確保する途中ではないときに限る。 -/
def recoverAbandoned (crashes : Crashes) : Guard machine where
  call := fun k => k.isDispatch = true
  cmd := fun i c w tr => Running crashes i tr ∧ match c with
    | .recoverTx queue id _ _ =>
        id ∈ w.list queue ∧ w.lease id = none ∧ ∀ j podID, ¬Fetching crashes j podID id tr
    | _ => True

def dispatchScope : Scope := ⟨[.publish, .fetch, .claim, .recover, .timeout], fun podID => ':' ∉ podID.toList⟩

theorem bodies_recoverAbandoned {crashes : Crashes} : Bodies (recoverAbandoned crashes) (Expected dispatchScope) := by
  refine bodies fun k hk => ?_
  cases k <;> simp only [recoverAbandoned, Call.isDispatch, Bool.false_eq_true] at hk
  case fetch podID region patterns =>
      refine ⟨by simp [Call.writers, dispatchScope], fun podID' hp => ?_⟩
      obtain rfl : podID = podID' := Option.some.inj hp
      simpa [dispatchScope] using hk
  all_goals
    refine ⟨by simp [Call.writers, dispatchScope], fun _ hp => ?_⟩
    cases hp

/-- タスクごとの不変条件。 -/
structure PlacedAt (crashes : Crashes) (w : World) (tr : Trace) (id : String) : Prop where
  live : ∀ t, w.task id = some t → t.isTerminal = false → ∃ k, w.lists.Located id k
  gone : (∀ t, w.task id = some t → t.isTerminal = true) → w.lists.Nowhere id
  leased : ∀ l, w.lease id = some l →
    ':' ∉ l.holder.toList ∧ w.lists.Located id (buildProcessingQueueKey l.holder)
  flight : ∀ j podID, Fetching crashes j podID id tr →
    ':' ∉ podID.toList ∧ w.lists.Located id (buildProcessingQueueKey podID) ∧ w.lease id = none
  unique : ∀ j k podID podID', Fetching crashes j podID id tr → Fetching crashes k podID' id tr → j = k
  claims : ∀ e ∈ tr, ∀ podID, claimOf e.act = some (podID, id) →
    e.before.now + leaseTimeout ≤ w.now ∨
      ∃ l, w.lease id = some l ∧ l.holder = podID ∧ e.before.now + leaseTimeout ≤ l.expireAt
  readDead : ∀ i reader t w₀, ⟨i, .getTask reader id, some t, w₀⟩ ∈ tr → t.isTerminal = true →
    ∃ t', w.task id = some t' ∧ t'.isTerminal = true
  readClaim : ∀ i podID w₀, ⟨i, .getTask (.claim podID) id, none, w₀⟩ ∉ tr
  listed : ∀ e ∈ tr, ∀ k, id ∈ e.before.list k → (e.before.task id).isSome

theorem placedAt_init (crashes : Crashes) (id : String) : PlacedAt crashes .init [] id where
  live := by simp [World.init]
  gone _ k := rfl
  leased := by simp [World.init]
  flight := by simp [Fetching, inFlight]
  unique := by simp [Fetching, inFlight]
  claims := by simp
  readDead := by simp
  readClaim := by simp
  listed := by simp

section Step

variable {crashes : Crashes} {w : World} {tr : Trace} {i : Nat} {x : String}

/-- リストにあるタスクの記録は、終わっていない。 -/
theorem PlacedAt.live_of_mem (h : PlacedAt crashes w tr x) {k} (hm : x ∈ w.list k) :
    w.lists.Located x k ∧ ∃ t, w.task x = some t ∧ t.isTerminal = false := by
  have hlive : ∃ t, w.task x = some t ∧ t.isTerminal = false := by
    by_contra hno
    refine (h.gone fun t ht => ?_).not_mem k hm
    by_contra hterm
    exact hno ⟨t, ht, by simpa using hterm⟩
  obtain ⟨t, ht, hterm⟩ := hlive
  obtain ⟨k', hloc⟩ := h.live t ht hterm
  exact ⟨hloc.eq_of_mem hm ▸ hloc, t, ht, hterm⟩

/-- 終わったタスクはどのリストにもない。 -/
theorem PlacedAt.nowhere (h : PlacedAt crashes w tr x) {t} (ht : w.task x = some t) (hterm : t.isTerminal = true) :
    w.lists.Nowhere x :=
  h.gone fun t' ht' => by
    rw [ht] at ht'
    cases ht'
    exact hterm

/-- 優先順に選ばれるキューは、処理中のリストではない。 -/
theorem valid_ne_processing {queue podID : String} (hv : isValidQueueKey (splitColon queue) = true)
    (hp : ':' ∉ podID.toList) : queue ≠ buildProcessingQueueKey podID := by
  rintro rfl
  have hsplit : splitColon (buildProcessingQueueKey podID) = ["egress", "processing", podID] := by
    have hlist : (buildProcessingQueueKey podID).toList =
        [':'].intercalate ["egress".toList, "processing".toList, podID.toList] := by
      have hlit : "egress:processing:".toList = "egress".toList ++ [':'] ++ "processing".toList ++ [':'] := by decide
      unfold buildProcessingQueueKey
      rw [String.toList_append, hlit]
      simp [List.intercalate, List.intersperse]
    have hno : ∀ l ∈ ["egress".toList, "processing".toList, podID.toList], ':' ∉ l := by
      simp only [List.mem_cons, List.not_mem_nil, or_false, forall_eq_or_imp, forall_eq]
      exact ⟨by decide, by decide, hp⟩
    rw [splitColon, hlist, List.splitOn_intercalate _ hno (by simp)]
    simp
  rw [hsplit] at hv
  simp [isValidQueueKey, validCmds] at hv

/-- 取り出しの途中に出せる命令。 -/
def Cmd.Passive : Cmd → Prop
  | .getTask _ _ | .timeNow | .setTarget _ _ _ _ _ => True
  | _ => False

/-- 途中のタスクは、取り出しで始まり、読み取りと宛先の書き換えの間だけ続く。 -/
theorem inFlight_cons {c : Cmd} {r : c.Resp} {h : Acts} {podID id} (hf : inFlight (⟨c, r⟩ :: h) = some (podID, id)) :
    (∃ queue, (⟨c, r⟩ : Act Cmd Cmd.Resp) = ⟨.brPopLPush podID queue, some id⟩) ∨
      inFlight h = some (podID, id) ∧ c.Passive := by
  unfold inFlight at hf
  split at hf
  · rename_i heq
    cases heq
    cases hf
    exact .inl ⟨_, rfl⟩
  all_goals first
    | cases hf
    | (rename_i heq
       cases heq
       exact .inr ⟨hf, trivial⟩)

variable {c : Cmd} {r : c.Resp}

theorem Running.of_cons {j : Nat} {e : Event machine} (h : Running crashes j (e :: tr)) : Running crashes j tr :=
  fun n hn => Nat.lt_of_succ_lt (h n hn)

theorem Fetching.step {j podID} (hf : Fetching crashes j podID x (⟨i, c, r, w⟩ :: tr)) :
    (j = i ∧ ∃ queue, (⟨c, r⟩ : Act Cmd Cmd.Resp) = ⟨.brPopLPush podID queue, some x⟩) ∨
      Fetching crashes j podID x tr ∧ (j = i → c.Passive) := by
  obtain ⟨hlive, hf⟩ := hf
  by_cases hj : j = i
  · subst hj
    rw [own_cons_self] at hf
    obtain hpop | ⟨hf, hpass⟩ := inFlight_cons hf
    · exact .inl ⟨rfl, hpop⟩
    · exact .inr ⟨⟨hlive.of_cons, hf⟩, fun _ => hpass⟩
  · rw [own_cons_ne hj] at hf
    exact .inr ⟨⟨hlive.of_cons, hf⟩, fun heq => absurd heq hj⟩

/-- 取り出されるタスクは、終わっておらず、リースも途中の取り出しもない。 -/
theorem PlacedAt.pop (h : PlacedAt crashes w tr x) {podID queue o}
    (hE : Expected dispatchScope (.brPopLPush podID queue) (own i tr))
    (hreply : Cmd.reply o w (.brPopLPush podID queue) = some (some x)) :
    (w.list queue).getLast? = some x ∧ w.lists.Located x queue ∧ (∃ t, w.task x = some t ∧ t.isTerminal = false) ∧
      w.lease x = none ∧ ∀ j podID', ¬Fetching crashes j podID' x tr := by
  have hlast : (w.list queue).getLast? = some x := Option.some.inj hreply
  obtain ⟨hloc, hlive⟩ := h.live_of_mem (List.mem_of_getLast? hlast)
  have hvalid : isValidQueueKey (splitColon queue) = true := by
    rcases hE.2 with hv | hno
    · exact hv
    · simp [dispatchScope] at hno
  refine ⟨hlast, hloc, hlive, ?_, fun j podID' hf => ?_⟩
  · cases hl : w.lease x with
    | none => rfl
    | some l =>
        obtain ⟨hcolon, hloc'⟩ := h.leased l hl
        exact absurd (hloc'.eq_of_mem hloc.mem) (valid_ne_processing hvalid hcolon)
  · obtain ⟨hcolon, hloc', -⟩ := h.flight j podID' hf
    exact absurd (hloc'.eq_of_mem hloc.mem) (valid_ne_processing hvalid hcolon)

/-- 途中のタスクは終わっていない。 -/
theorem PlacedAt.flight_live (h : PlacedAt crashes w tr x) {j podID} (hf : Fetching crashes j podID x tr) :
    ∃ t, w.task x = some t ∧ t.isTerminal = false :=
  (h.live_of_mem (h.flight j podID hf).2.1.mem).2

/-- 終わった記録には、どの命令も書かない。 -/
theorem PlacedAt.dead_fixed {o} (hb : Base w tr) (h : PlacedAt crashes w tr x) (hg : (recoverAbandoned crashes).cmd i c w tr)
    (hE : Expected dispatchScope c (own i tr)) (hreply : c.reply o w = some r) {t} (ht : w.task x = some t)
    (hterm : t.isTerminal = true) : (c.effect w r).task x = some t := by
  obtain ⟨heq, -⟩ | ⟨t', hw, -⟩ := effect_task_cases w c r x
  · rw [heq, ht]
  · exfalso
    have hnow := h.nowhere ht hterm
    have hnoflight : ∀ {j podID}, ¬Fetching crashes j podID x tr := fun hf =>
      hnow.not_mem _ (h.flight _ _ hf).2.1.mem
    cases c <;> simp only [Cmd.written, reduceCtorEq, Option.some.injEq, Prod.mk.injEq] at hw
    case publishTx =>
        obtain ⟨rfl, rfl⟩ := hw
        rw [(hb.fresh i _ hE.2.1).2] at ht
        cases ht
    case claimTx =>
        obtain ⟨rfl, -⟩ := hw
        obtain ⟨-, -, hf | hno⟩ := hE
        · exact hnoflight ⟨hg.1, hf⟩
        · simp [dispatchScope] at hno
    case setTarget =>
        obtain ⟨rfl, -⟩ := hw
        exact hnoflight ⟨hg.1, hE.2.2.2⟩
    case recoverTx =>
        obtain ⟨rfl, -⟩ := hw
        exact hnow.not_mem _ hg.2.1
    case timeoutTx id queue watched age read =>
        cases r
        · cases hw
        · simp only [Option.some.injEq, Prod.mk.injEq] at hw
          obtain ⟨rfl, -⟩ := hw
          have hrevs : watched = w.revs id queue := by simpa [Cmd.reply] using hreply
          exact hnow.not_mem _ (hb.watched hE hrevs).2
    case setWorker | setResult | renewTx | moveBackTx =>
        have hno := hE.1
        simp [dispatchScope] at hno

/-- リースを変える命令は、リースのないタスクにだけ出る。 -/
theorem PlacedAt.lease_step (h : PlacedAt crashes w tr x) (hg : (recoverAbandoned crashes).cmd i c w tr)
    (hE : Expected dispatchScope c (own i tr)) : (c.effect w r).lease x = w.lease x ∨ w.lease x = none := by
  rw [effect_lease]
  cases c
  case claimTx podID id now read =>
      by_cases hx : x = id
      · subst hx
        obtain ⟨-, -, hf | hno⟩ := hE
        · exact .inr (h.flight i podID ⟨hg.1, hf⟩).2.2
        · simp [dispatchScope] at hno
      · exact .inl (by simp [hx])
  case recoverTx queue id now read =>
      by_cases hx : x = id
      · subst hx
        exact .inr hg.2.2.1
      · exact .inl (by simp [hx])
  case renewTx | moveBackTx =>
      have hno := hE.1
      simp [dispatchScope] at hno
  case delLease => simp [Expected, dispatchScope] at hE
  all_goals exact .inl rfl

/-- 居場所についての欄だけを命令ごとに示せば、残りは共通である。 -/
theorem PlacedAt.next {o} (hb : Base w tr) (h : PlacedAt crashes w tr x) (hg : (recoverAbandoned crashes).cmd i c w tr)
    (hE : Expected dispatchScope c (own i tr)) (hreply : c.reply o w = some r)
    (live : ∀ t, (c.effect w r).task x = some t → t.isTerminal = false → ∃ k, (c.effect w r).lists.Located x k)
    (gone : (∀ t, (c.effect w r).task x = some t → t.isTerminal = true) → (c.effect w r).lists.Nowhere x)
    (leased : ∀ l, (c.effect w r).lease x = some l →
      ':' ∉ l.holder.toList ∧ (c.effect w r).lists.Located x (buildProcessingQueueKey l.holder))
    (flight : ∀ j podID, Fetching crashes j podID x (⟨i, c, r, w⟩ :: tr) → ':' ∉ podID.toList ∧
      (c.effect w r).lists.Located x (buildProcessingQueueKey podID) ∧ (c.effect w r).lease x = none)
    (claim : ∀ podID, claimOf ⟨c, r⟩ = some (podID, x) → ∃ l, (c.effect w r).lease x = some l ∧ l.holder = podID ∧
      w.now + leaseTimeout ≤ l.expireAt) :
    PlacedAt crashes (c.effect w r) (⟨i, c, r, w⟩ :: tr) x where
  live := live
  gone := gone
  leased := leased
  flight := flight
  unique j k podID podID' hj hk := by
    obtain ⟨rfl, queue, hpop⟩ | ⟨hj', -⟩ := hj.step
    · obtain ⟨rfl, -⟩ | ⟨hk', -⟩ := hk.step
      · rfl
      · cases hpop
        exact absurd hk' ((h.pop hE hreply).2.2.2.2 k podID')
    · obtain ⟨rfl, queue, hpop⟩ | ⟨hk', -⟩ := hk.step
      · cases hpop
        exact absurd hj' ((h.pop hE hreply).2.2.2.2 j podID)
      · exact h.unique j k podID podID' hj' hk'
  claims e he podID hc := by
    rcases List.mem_cons.mp he with rfl | he
    · exact .inr (claim podID hc)
    · rw [effect_now]
      obtain hle | ⟨l, hl, hrest⟩ := h.claims e he podID hc
      · exact .inl hle
      · obtain heq | hnone := h.lease_step (r := r) hg hE
        · exact .inr ⟨l, by rw [heq, hl], hrest⟩
        · rw [hnone] at hl
          cases hl
  readDead j reader t w₀ he hterm := by
    have hdead : ∃ t', w.task x = some t' ∧ t'.isTerminal = true := by
      rcases List.mem_cons.mp he with he | he
      · cases he
        exact ⟨t, Option.some.inj hreply, hterm⟩
      · exact h.readDead j reader t w₀ he hterm
    obtain ⟨t', ht', hterm'⟩ := hdead
    exact ⟨t', h.dead_fixed hb hg hE hreply ht' hterm', hterm'⟩
  readClaim j podID w₀ he := by
    rcases List.mem_cons.mp he with he | he
    · cases he
      rcases hE with hf | hno
      · obtain ⟨t, ht, -⟩ := h.flight_live ⟨hg.1, hf⟩
        have hnone : w.task x = none := Option.some.inj hreply
        rw [ht] at hnone
        cases hnone
      · simp [dispatchScope] at hno
    · exact h.readClaim j podID w₀ he
  listed e he k hk := by
    rcases List.mem_cons.mp he with rfl | he
    · obtain ⟨-, t, ht, -⟩ := h.live_of_mem hk
      exact Option.isSome_iff_exists.mpr ⟨t, ht⟩
    · exact h.listed e he k hk

/-- 居場所もリースも変えず、終わっていない記録を終わらせない命令。 -/
theorem PlacedAt.stay {o} (hb : Base w tr) (h : PlacedAt crashes w tr x) (hg : (recoverAbandoned crashes).cmd i c w tr)
    (hE : Expected dispatchScope c (own i tr)) (hreply : c.reply o w = some r)
    (hocc : ∀ k, (c.effect w r).lists.occ x k = w.lists.occ x k) (hlease : (c.effect w r).lease x = w.lease x)
    (hpop : ∀ podID queue, (⟨c, r⟩ : Act Cmd Cmd.Resp) ≠ ⟨.brPopLPush podID queue, some x⟩)
    (hclaim : ∀ podID, claimOf ⟨c, r⟩ ≠ some (podID, x))
    (htask : (c.effect w r).task x = w.task x ∨ ∃ t t', w.task x = some t ∧ t.isTerminal = false ∧
      (c.effect w r).task x = some t' ∧ t'.isTerminal = false) :
    PlacedAt crashes (c.effect w r) (⟨i, c, r, w⟩ :: tr) x := by
  have hloc : ∀ {k}, w.lists.Located x k → (c.effect w r).lists.Located x k := fun hl k => (hocc k).trans (hl k)
  refine h.next hb hg hE hreply (fun t ht hterm => ?_) (fun hdead k => ?_) (fun l hl => ?_) (fun j podID hf => ?_)
    fun podID hc => ?_
  · have hlive : ∃ t, w.task x = some t ∧ t.isTerminal = false := by
      obtain heq | ⟨t₀, _, ht₀, hterm₀, -⟩ := htask
      · exact ⟨t, heq ▸ ht, hterm⟩
      · exact ⟨t₀, ht₀, hterm₀⟩
    obtain ⟨t₀, ht₀, hterm₀⟩ := hlive
    obtain ⟨k, hk⟩ := h.live t₀ ht₀ hterm₀
    exact ⟨k, hloc hk⟩
  · rw [hocc]
    obtain heq | ⟨_, t', _, _, ht', hterm'⟩ := htask
    · exact h.gone (fun t ht => hdead t (heq ▸ ht)) k
    · rw [hdead t' ht'] at hterm'
      cases hterm'
  · rw [hlease] at hl
    exact ⟨(h.leased l hl).1, hloc (h.leased l hl).2⟩
  · obtain ⟨-, queue, heq⟩ | ⟨hf, -⟩ := hf.step
    · exact absurd heq (hpop podID queue)
    · obtain ⟨hcolon, hl, hnone⟩ := h.flight j podID hf
      exact ⟨hcolon, hloc hl, hlease.trans hnone⟩
  · exact absurd hc (hclaim podID)

/-- 終わっていないまま、リースのないタスクを `k` へ移す命令。 -/
theorem PlacedAt.moved {o k} (hb : Base w tr) (h : PlacedAt crashes w tr x) (hg : (recoverAbandoned crashes).cmd i c w tr)
    (hE : Expected dispatchScope c (own i tr)) (hreply : c.reply o w = some r)
    (hloc : (c.effect w r).lists.Located x k) (hlive : ∃ t, (c.effect w r).task x = some t ∧ t.isTerminal = false)
    (hlease : (c.effect w r).lease x = none) (hclaim : claimOf ⟨c, r⟩ = none)
    (hflight : ∀ j podID, Fetching crashes j podID x (⟨i, c, r, w⟩ :: tr) →
      ':' ∉ podID.toList ∧ k = buildProcessingQueueKey podID) :
    PlacedAt crashes (c.effect w r) (⟨i, c, r, w⟩ :: tr) x := by
  refine h.next hb hg hE hreply (fun _ _ _ => ⟨k, hloc⟩) (fun hdead => ?_) (fun l hl => ?_) (fun j podID hf => ?_)
    fun podID hc => ?_
  · obtain ⟨t, ht, hterm⟩ := hlive
    rw [hdead t ht] at hterm
    cases hterm
  · rw [hlease] at hl
    cases hl
  · obtain ⟨hcolon, rfl⟩ := hflight j podID hf
    exact ⟨hcolon, hloc, hlease⟩
  · rw [hclaim] at hc
    cases hc

theorem placedAt_publish {queue task o} (hb : Base w tr) (h : PlacedAt crashes w tr task.id)
    (hg : (recoverAbandoned crashes).cmd i (.publishTx queue task) w tr)
    (hE : Expected dispatchScope (.publishTx queue task) (own i tr))
    (hreply : Cmd.reply o w (.publishTx queue task) = some ()) :
    PlacedAt crashes (Cmd.effect w (.publishTx queue task) ()) (⟨i, .publishTx queue task, (), w⟩ :: tr) task.id := by
  have hnone : w.task task.id = none := (hb.fresh i _ hE.2.1).2
  have hnow : w.lists.Nowhere task.id := h.gone fun t ht => by
    rw [hnone] at ht
    cases ht
  refine h.moved (k := queue) hb hg hE hreply (World.located_lpush hnow) ⟨task, ?_, ?_⟩ ?_ rfl
    fun j podID hf => ?_
  · rw [effect_task]
    simp [Cmd.written]
  · simp [Task.isTerminal, hE.2.2.1, TaskState.isTerminal]
  · rw [effect_lease]
    cases hl : w.lease task.id with
    | none => rfl
    | some l => exact absurd hnow (h.leased l hl).2.not_nowhere
  · obtain ⟨-, q, heq⟩ | ⟨hf, -⟩ := hf.step
    · cases heq
    · exact absurd hnow (h.flight j podID hf).2.1.not_nowhere

theorem placedAt_pop {podID queue o} (hb : Base w tr) (h : PlacedAt crashes w tr x)
    (hg : (recoverAbandoned crashes).cmd i (.brPopLPush podID queue) w tr)
    (hE : Expected dispatchScope (.brPopLPush podID queue) (own i tr))
    (hreply : Cmd.reply o w (.brPopLPush podID queue) = some (some x)) :
    PlacedAt crashes (Cmd.effect w (.brPopLPush podID queue) (some x)) (⟨i, .brPopLPush podID queue, some x, w⟩ :: tr) x := by
  obtain ⟨hlast, hloc, ⟨t, ht, hterm⟩, hlease, hno⟩ := h.pop hE hreply
  refine h.moved hb hg hE hreply (World.located_rpoplpush _ hlast hloc) ⟨t, ?_, hterm⟩ ?_ rfl fun j podID' hf => ?_
  · rw [effect_task]
    exact ht
  · rw [effect_lease]
    exact hlease
  · obtain ⟨-, q, heq⟩ | ⟨hf, -⟩ := hf.step
    · cases heq
      exact ⟨hE.1, rfl⟩
    · exact absurd hf (hno j podID')

theorem placedAt_defer {podID target o} (hb : Base w tr) (h : PlacedAt crashes w tr x)
    (hg : (recoverAbandoned crashes).cmd i (.deferTx podID x target) w tr)
    (hE : Expected dispatchScope (.deferTx podID x target) (own i tr))
    (hreply : Cmd.reply o w (.deferTx podID x target) = some ()) :
    PlacedAt crashes (Cmd.effect w (.deferTx podID x target) ()) (⟨i, .deferTx podID x target, (), w⟩ :: tr) x := by
  have hfetching : Fetching crashes i podID x tr := ⟨hg.1, hE.2⟩
  obtain ⟨-, hloc, hlease⟩ := h.flight i podID hfetching
  obtain ⟨t, ht, hterm⟩ := h.flight_live hfetching
  refine h.moved hb hg hE hreply (World.located_rpush (World.nowhere_lrem hloc)) ⟨t, ?_, hterm⟩ ?_ rfl
    fun j podID' hf => ?_
  · rw [effect_task]
    exact ht
  · rw [effect_lease]
    exact hlease
  · obtain ⟨-, q, heq⟩ | ⟨hf, hpass⟩ := hf.step
    · cases heq
    · exact (hpass (h.unique j i podID' podID hf hfetching)).elim

theorem placedAt_recover {queue now read o} (hb : Base w tr) (h : PlacedAt crashes w tr x)
    (hg : (recoverAbandoned crashes).cmd i (.recoverTx queue x now read) w tr)
    (hE : Expected dispatchScope (.recoverTx queue x now read) (own i tr))
    (hreply : Cmd.reply o w (.recoverTx queue x now read) = some ()) :
    PlacedAt crashes (Cmd.effect w (.recoverTx queue x now read) ()) (⟨i, .recoverTx queue x now read, (), w⟩ :: tr) x := by
  obtain ⟨hmem, hlease, hno⟩ := hg.2
  obtain ⟨hloc, -⟩ := h.live_of_mem hmem
  have hloc' : (Cmd.effect w (.recoverTx queue x now read) ()).lists.Located x (buildQueueKey read.cmd read.channel) := by
    intro k
    show (((w.setTask x (read.recovered now)).lpush (buildQueueKey read.cmd read.channel) x).lrem queue x).lists.occ x k = _
    rw [World.occ_lrem, World.occ_lpush]
    have hk := hloc k
    simp only [and_true]
    change w.lists.occ x k + _ - _ = _
    rw [hk]
    split <;> split <;> rfl
  refine h.moved hb hg hE hreply hloc' ⟨read.recovered now, ?_, rfl⟩ ?_ rfl fun j podID hf => ?_
  · rw [effect_task]
    simp [Cmd.written]
  · rw [effect_lease]
    simp
  · obtain ⟨-, q, heq⟩ | ⟨hf, -⟩ := hf.step
    · cases heq
    · exact absurd hf (hno j podID)

theorem placedAt_claim {podID now read o} (hb : Base w tr) (h : PlacedAt crashes w tr x)
    (hg : (recoverAbandoned crashes).cmd i (.claimTx podID x now read) w tr)
    (hE : Expected dispatchScope (.claimTx podID x now read) (own i tr))
    (hreply : Cmd.reply o w (.claimTx podID x now read) = some ()) :
    PlacedAt crashes (Cmd.effect w (.claimTx podID x now read) ()) (⟨i, .claimTx podID x now read, (), w⟩ :: tr) x := by
  have hf : Fetching crashes i podID x tr := by
    obtain ⟨-, -, hf | hno⟩ := hE
    · exact ⟨hg.1, hf⟩
    · simp [dispatchScope] at hno
  obtain ⟨hcolon, hloc, -⟩ := h.flight i podID hf
  have hlease : (Cmd.effect w (.claimTx podID x now read) ()).lease x = some ⟨podID, w.now + leaseTimeout⟩ := by
    rw [effect_lease]
    simp
  have htask : (Cmd.effect w (.claimTx podID x now read) ()).task x = some (read.claimed podID now) := by
    rw [effect_task]
    simp [Cmd.written]
  refine h.next hb hg hE hreply (fun _ _ _ => ⟨_, hloc⟩) (fun hdead => ?_) (fun l hl => ?_) (fun j podID' hf' => ?_)
    fun podID' hc => ?_
  · have hterm := hdead _ htask
    cases hterm
  · rw [hlease] at hl
    cases hl
    exact ⟨hcolon, hloc⟩
  · obtain ⟨-, q, heq⟩ | ⟨hf', hpass⟩ := hf'.step
    · cases heq
    · exact (hpass (h.unique j i podID' podID hf' hf)).elim
  · cases hc
    exact ⟨_, hlease, rfl, Nat.le_refl _⟩

theorem placedAt_timeout {queue watched age read o} (hb : Base w tr) (h : PlacedAt crashes w tr x)
    (hg : (recoverAbandoned crashes).cmd i (.timeoutTx x queue watched age read) w tr)
    (hE : Expected dispatchScope (.timeoutTx x queue watched age read) (own i tr))
    (hreply : Cmd.reply o w (.timeoutTx x queue watched age read) = some true) :
    PlacedAt crashes (Cmd.effect w (.timeoutTx x queue watched age read) true)
      (⟨i, .timeoutTx x queue watched age read, true, w⟩ :: tr) x := by
  have hrevs : watched = w.revs x queue := by simpa [Cmd.reply] using hreply
  obtain ⟨hloc, -⟩ := h.live_of_mem (hb.watched hE hrevs).2
  have hne : ∀ {podID}, ':' ∉ podID.toList → ¬w.lists.Located x (buildProcessingQueueKey podID) := by
    intro podID hcolon hloc'
    obtain ⟨-, -, -, position, now, h', hown, -, hs⟩ := hE
    exact scanned_ne_processing hb.recorded (i := i) hs (fun a ha => by rw [hown]; simp [ha]) hcolon
      (hloc'.eq_of_mem hloc.mem)
  have htask : (Cmd.effect w (.timeoutTx x queue watched age read) true).task x = some (read.timedOut age) := by
    rw [effect_task]
    simp [Cmd.written]
  refine h.next hb hg hE hreply (fun t ht hterm => ?_) (fun _ => World.nowhere_lrem hloc) (fun l hl => ?_)
    (fun j podID hf => ?_) fun podID hc => by cases hc
  · rw [htask] at ht
    cases ht
    cases hterm
  · rw [effect_lease] at hl
    obtain ⟨hcolon, hloc'⟩ := h.leased l hl
    exact absurd hloc' (hne hcolon)
  · obtain ⟨-, q, heq⟩ | ⟨hf, -⟩ := hf.step
    · cases heq
    · obtain ⟨hcolon, hloc', -⟩ := h.flight j podID hf
      exact absurd hloc' (hne hcolon)

/-- 宛先の書き換えは、終わっていない記録にだけ行われ、終わらせない。 -/
theorem placedAt_setTarget {podID target workerID read o} (hb : Base w tr) (h : PlacedAt crashes w tr x)
    (hg : (recoverAbandoned crashes).cmd i (.setTarget podID x target workerID read) w tr)
    (hE : Expected dispatchScope (.setTarget podID x target workerID read) (own i tr))
    (hreply : Cmd.reply o w (.setTarget podID x target workerID read) = some ()) :
    PlacedAt crashes (Cmd.effect w (.setTarget podID x target workerID read) ())
      (⟨i, .setTarget podID x target workerID read, (), w⟩ :: tr) x := by
  obtain ⟨t, ht, hterm⟩ := h.flight_live ⟨hg.1, hE.2.2.2⟩
  have hread : read.isTerminal = false := by
    by_contra hdead
    obtain ⟨w₀, he⟩ := mem_of_own hE.2.2.1
    obtain ⟨t', ht', hterm'⟩ := h.readDead i _ read w₀ he (by simpa using hdead)
    rw [ht] at ht'
    cases ht'
    rw [hterm] at hterm'
    cases hterm'
  refine h.stay hb hg hE hreply (fun _ => rfl) rfl (fun _ _ heq => by cases heq) (fun _ hc => by cases hc) ?_
  refine .inr ⟨t, read.retargeted target workerID, ht, hterm, ?_, hread⟩
  rw [effect_task]
  simp [Cmd.written]

/-- 走査で見つけたタスクの記録は、以後もある。 -/
theorem PlacedAt.read_of_listed (hb : Base w tr) (h : PlacedAt crashes w tr x) {queue reader found} {h' : Acts}
    (hown : own i tr = ⟨.getTask reader x, found⟩ :: h') (hl : Listed queue x h') : found ≠ none := by
  rintro rfl
  obtain ⟨tr₁, w₁, tr₂, rfl, hown₂, -⟩ := split_own hown
  obtain ⟨ids, hmem, hx⟩ := hl
  rw [← hown₂] at hmem
  obtain ⟨w₀, he⟩ := mem_of_own hmem
  obtain ⟨o, w', hex⟩ := hb.recorded ⟨i, .lrange queue, ids, w₀⟩ (by simp [he])
  have hids : ids = w₀.list queue := (Option.some.inj (exec_eq hex).1).symm
  rw [hids] at hx
  obtain ⟨t, ht⟩ := Option.isSome_iff_exists.mp (h.listed ⟨i, .lrange queue, ids, w₀⟩ (by simp [he]) queue hx)
  obtain ⟨t', ht', -⟩ := (hb.ordered.le_of_append he).identity x t ht
  have hnone : w₁.task x = none := recorded_getTask hb.recorded i reader (by simp)
  rw [hnone] at ht'
  cases ht'

/-- 取り除く命令は、終わったタスクにだけ出るので、居場所を変えない。 -/
theorem placedAt_lrem {queue o} (hb : Base w tr) (h : PlacedAt crashes w tr x)
    (hg : (recoverAbandoned crashes).cmd i (.lrem queue x) w tr)
    (hE : Expected dispatchScope (.lrem queue x) (own i tr))
    (hreply : Cmd.reply o w (.lrem queue x) = some ()) :
    PlacedAt crashes (Cmd.effect w (.lrem queue x) ()) (⟨i, .lrem queue x, (), w⟩ :: tr) x := by
  have hdead : ∃ t, w.task x = some t ∧ t.isTerminal = true := by
    rcases hE with ⟨-, h', hown, -, hl⟩ | ⟨-, found, h', hown, hterm, hl | hno⟩ | ⟨-, podID, h', hown, -⟩
    · exact absurd rfl (h.read_of_listed hb hown hl)
    · obtain ⟨t, rfl⟩ := Option.ne_none_iff_exists'.mp (h.read_of_listed hb hown hl)
      have hmem : (⟨.getTask .recover x, some t⟩ : Act Cmd Cmd.Resp) ∈ own i tr := by simp [hown]
      obtain ⟨w₀, he⟩ := mem_of_own hmem
      exact h.readDead i _ t w₀ he (hterm t rfl)
    · simp [dispatchScope] at hno
    · have hmem : (⟨.getTask (.claim podID) x, none⟩ : Act Cmd Cmd.Resp) ∈ own i tr := by simp [hown]
      obtain ⟨w₀, he⟩ := mem_of_own hmem
      exact absurd he (h.readClaim i podID w₀)
  obtain ⟨t, ht, hterm⟩ := hdead
  refine h.stay hb hg hE hreply (fun k => ?_) rfl (fun _ _ heq => by cases heq) (fun _ hc => by cases hc)
    (.inl rfl)
  refine World.occ_lrem.trans ?_
  rw [h.nowhere ht hterm k, Nat.zero_sub]

theorem PlacedAt.cmd {o} (hb : Base w tr) (h : PlacedAt crashes w tr x) (hg : (recoverAbandoned crashes).cmd i c w tr)
    (hE : Expected dispatchScope c (own i tr)) (hreply : c.reply o w = some r) :
    PlacedAt crashes (c.effect w r) (⟨i, c, r, w⟩ :: tr) x := by
  by_cases hx : c.subject r = some x
  · cases c <;> simp only [Cmd.subject, reduceCtorEq, Option.some.injEq] at hx
    case publishTx =>
        subst hx
        exact placedAt_publish hb h hg hE hreply
    case claimTx =>
        subst hx
        exact placedAt_claim hb h hg hE hreply
    case setTarget =>
        subst hx
        exact placedAt_setTarget hb h hg hE hreply
    case recoverTx =>
        subst hx
        exact placedAt_recover hb h hg hE hreply
    case deferTx =>
        subst hx
        exact placedAt_defer hb h hg hE hreply
    case lrem =>
        subst hx
        exact placedAt_lrem hb h hg hE hreply
    case timeoutTx =>
        cases r
        · cases hx
        · cases hx
          exact placedAt_timeout hb h hg hE hreply
    case brPopLPush =>
        cases r
        · cases hx
        · cases hx
          exact placedAt_pop hb h hg hE hreply
    case lpush target id =>
        subst hx
        obtain ⟨-, queue, podID, h', hown, -⟩ := hE
        have hmem : (⟨.getTask (.claim podID) id, none⟩ : Act Cmd Cmd.Resp) ∈ own i tr := by
          rw [hown]
          exact List.mem_cons_of_mem _ List.mem_cons_self
        obtain ⟨w₀, he⟩ := mem_of_own hmem
        exact absurd he (h.readClaim i podID w₀)
    case setWorker | setResult | renewTx | moveBackTx =>
        have hno := hE.1
        simp [dispatchScope] at hno
    case lremLast | delLease => simp [Expected, dispatchScope] at hE
  · refine h.stay hb hg hE hreply (fun _ => occ_effect hreply hx) (lease_effect_of_subject hx) (fun _ _ heq => ?_)
      (fun podID hc => ?_) (.inl (task_effect_of_subject hx))
    · cases heq
      exact hx rfl
    · cases c <;> simp only [claimOf, reduceCtorEq, Option.some.injEq, Prod.mk.injEq] at hc
      exact hx (congrArg some hc.2)

theorem PlacedAt.env {e : Env} {w' : World} (h : PlacedAt crashes w tr x) (he : machine.env e w = some w') :
    PlacedAt crashes w' tr x := by
  obtain ⟨d, rfl⟩ | ⟨id, l, hl, hexp, rfl⟩ := env_cases he
  · refine ⟨h.live, h.gone, h.leased, h.flight, h.unique, fun e he podID hc => ?_, h.readDead, h.readClaim, h.listed⟩
    exact (h.claims e he podID hc).imp_left fun hle => Nat.le_add_right_of_le hle
  · by_cases hx : x = id
    · subst hx
      have hnone : (w.delLease x).lease x = none := if_pos rfl
      refine ⟨h.live, h.gone, fun l' hl' => ?_, fun j podID hf => ⟨(h.flight j podID hf).1, (h.flight j podID hf).2.1, hnone⟩,
        h.unique, fun e he podID hc => ?_, h.readDead, h.readClaim, h.listed⟩
      · rw [hnone] at hl'
        cases hl'
      · refine .inl ?_
        obtain hle | ⟨l', hl', -, hle⟩ := h.claims e he podID hc
        · exact hle
        · rw [hl] at hl'
          cases hl'
          exact Nat.le_trans hle hexp
    · have hsame : (w.delLease id).lease x = w.lease x := if_neg hx
      refine ⟨h.live, h.gone, fun l' hl' => h.leased l' (hsame ▸ hl'), fun j podID hf => ?_, h.unique,
        fun e he podID hc => ?_, h.readDead, h.readClaim, h.listed⟩
      · rw [hsame]
        exact h.flight j podID hf
      · rw [hsame]
        exact h.claims e he podID hc

end Step

/-- 確保はリースのないタスクにだけ行われるので、それより前の確保の期限は過ぎている。 -/
theorem apart_cmd {crashes : Crashes} {w : World} {tr : Trace} {i c} {r : c.Resp} (h : ∀ id, PlacedAt crashes w tr id)
    (hg : (recoverAbandoned crashes).cmd i c w tr) (hE : Expected dispatchScope c (own i tr)) (ha : tr.Pairwise ClaimsApart) :
    (⟨i, c, r, w⟩ :: tr : Trace).Pairwise ClaimsApart := by
  refine List.pairwise_cons.mpr ⟨fun e he id podID podID' hearlier hlater _ => ?_, ha⟩
  cases c <;> simp only [Event.act, claimOf, reduceCtorEq, Option.some.injEq, Prod.mk.injEq] at hlater
  obtain ⟨rfl, rfl⟩ := hlater
  obtain ⟨-, -, hf | hno⟩ := hE
  · have hnone := ((h _).flight i _ ⟨hg.1, hf⟩).2.2
    obtain hle | ⟨l, hl, -⟩ := (h _).claims e he podID hearlier
    · exact hle
    · rw [hnone] at hl
      cases hl
  · simp [dispatchScope] at hno

theorem placed_inductive {crashes : Crashes} :
    Inductive (recoverAbandoned crashes) (Expected dispatchScope) fun w tr =>
      Base w tr ∧ (∀ id, PlacedAt crashes w tr id) ∧ tr.Pairwise ClaimsApart := by
  refine (base_inductive _ _).extend (fun {i c o w tr r w'} hb h hg hE he => ?_) fun _ h he => ?_
  · obtain ⟨hreply, rfl⟩ := exec_eq he
    exact ⟨fun id => (h.1 id).cmd hb hg hE hreply, apart_cmd h.1 hg hE h.2⟩
  · exact ⟨fun id => (h.1 id).env he, h.2⟩

/-- どのスレッドがいつ落ちても、条件を満たす実行では、タスクは失われず、重複しない。 -/
theorem noLossNoDuplication_recoverAbandoned {crashes : Crashes} {p : Pool machine}
    (hrun : Run (recoverAbandoned crashes) (.start .init) p) :
    (∀ id t, p.state.task id = some t → t.isTerminal = false → ∃ k, p.state.lists.Located id k) ∧
      p.trace.Pairwise ClaimsApart := by
  obtain ⟨-, hplaced, hapart⟩ :=
    placed_inductive.of_start bodies_recoverAbandoned ⟨base_init, placedAt_init crashes, List.Pairwise.nil⟩ hrun
  exact ⟨fun id t ht hterm => (hplaced id).live t ht hterm, hapart⟩

section Decidable

variable {crashes : Crashes}

/-- 途中のタスクは、命令を出したスレッドだけを見ればよい。 -/
theorem forall_not_fetching {id : String} {tr : Trace} : (∀ j podID, ¬Fetching crashes j podID id tr) ↔
    ∀ e ∈ tr, Running crashes e.tid tr → (inFlight (own e.tid tr)).map Prod.snd ≠ some id := by
  constructor
  · intro h e _ hrunning hid
    obtain ⟨⟨podID, _⟩, hflight, rfl⟩ := Option.map_eq_some_iff.mp hid
    exact h e.tid podID ⟨hrunning, hflight⟩
  · rintro h j podID ⟨hrunning, hflight⟩
    obtain ⟨queue, hpop⟩ := popped_of_inFlight hflight
    obtain ⟨w₀, he⟩ := mem_of_own hpop
    exact h _ he hrunning (by rw [hflight]; rfl)

instance {j tr} : Decidable (Running crashes j tr) := inferInstanceAs (Decidable (∀ n ∈ crashes j, tr.length < n))

instance {k} : Decidable ((recoverAbandoned crashes).call k) := inferInstanceAs (Decidable (k.isDispatch = true))

instance {i c w tr} : Decidable ((recoverAbandoned crashes).cmd i c w tr) := by
  apply Cmd.casesOn (motive := fun c => Decidable ((recoverAbandoned crashes).cmd i c w tr)) c <;> intros
  case recoverTx queue id _ _ =>
      exact decidable_of_iff (Running crashes i tr ∧ id ∈ w.list queue ∧ (w.lease id).isNone ∧
          ∀ e ∈ tr, Running crashes e.tid tr → (inFlight (own e.tid tr)).map Prod.snd ≠ some id)
        (by simp only [recoverAbandoned, Option.isNone_iff_eq_none, forall_not_fetching])
  all_goals exact decidable_of_iff (Running crashes i tr) (and_true _).symm.to_iff

end Decidable

/-- `a` を取り出したポッド `p` のスレッドが、確保の前に落ちる。 -/
def crashBeforeClaim : Crashes := fun j => if j = 1 then some 6 else none

/-- 落ちたポッドのタスクを走査が回収して、ポッド `q` が確保する。そのリースも切れ、ポッド `r` が確保する。 -/
def recoverAfterCrash : List (Move machine) :=
  begin (.publish "record" "start" "ch" "r" none "") ++
    advance 0 1 ++ advanceWith 0 { text := "a" } ++ advance 0 2 ++
  begin (.fetch "p" "" ["egress:record:*"]) ++ advance 1 2 ++
  begin .cleanupExpiredLeases ++ advance 2 6 ++
  begin (.fetch "q" "" ["egress:record:*"]) ++ advance 3 6 ++
  [.env (.tick leaseTimeout), .env (.leaseExpire "a")] ++
  begin .cleanupExpiredLeases ++ advance 4 6 ++
  begin (.fetch "r" "" ["egress:record:*"]) ++ advance 5 6

theorem recoverAfterCrash_apart : ∃ p, Run (recoverAbandoned crashBeforeClaim) (.start .init) p ∧
    (p.state.task "a").map (fun t => (t.podID, t.state)) = some ("r", .processing) ∧
    (∃ k, p.state.lists.Located "a" k) ∧ p.trace.Pairwise ClaimsApart := by
  have hplay : (Pool.play recoverAfterCrash (.start .init)).map (fun p =>
      (p.state.task "a").map fun t => (t.podID, t.state)) = some (some ("r", .processing)) := by decide
  obtain ⟨p, hp, hr⟩ := Option.map_eq_some_iff.mp hplay
  have hrun : Run (recoverAbandoned crashBeforeClaim) (.start .init) p := Pool.play_sound (by decide) hp
  obtain ⟨hlive, hapart⟩ := noLossNoDuplication_recoverAbandoned hrun
  obtain ⟨t, ht, heq⟩ := Option.map_eq_some_iff.mp hr
  refine ⟨p, hrun, hr, hlive "a" t ht ?_, hapart⟩
  simp [Task.isTerminal, (Prod.mk.inj heq).2, TaskState.isTerminal]

end RtcEgress.Queue
