import Mathlib.Data.List.Perm.Basic
import RtcEgress.Lib.Outbox
import RtcEgress.Webhook.Notifier

/-!
# 通知の送信箱

通知のプロセスを、タスクと状態の組を鍵とする送信箱と見る。どの操作も、送信箱の一つの操作であるか、送信箱を変えない。
-/

namespace RtcEgress.Webhook

open RtcEgress.Lib

/-- 重複を除く単位。 -/
def WebhookPayload.key (p : WebhookPayload) : String × String := (p.taskID, p.state)

namespace Call

def pending : Call → List WebhookPayload
  | .requesting _ payloads => payloads
  | _ => []

def unmarked : Call → List WebhookPayload
  | .waiting payloads true | .settling _ payloads true => payloads
  | .marking _ payload payloads => payload :: payloads
  | _ => []

/-- これから更新する項目。 -/
def entries : Call → List String
  | .requesting entry payloads | .settling entry payloads _ | .marking entry _ payloads =>
      entry.elim (payloads.map (·.taskID)) ([·])
  | .waiting payloads _ => payloads.map (·.taskID)
  | .done => []

end Call

def Subscriber.calls : Subscriber → List Call
  | .sending call => [call]
  | _ => []

def Subscriber.entries : Subscriber → List String
  | .checking task | .deciding task => [task.id]
  | .sending call => call.entries
  | _ => []

def Retrier.entries : Retrier → List String
  | .looking _ taskIDs => taskIDs
  | .fetching taskID _ taskIDs => taskID :: taskIDs
  | .idle => []

/-- 購読も送信も進めない操作。 -/
def Op.quiet : Op → Bool
  | .restart | .subscriber _ | .background _ _ => false
  | _ => true

namespace WebhookNotifier

def calls (s : WebhookNotifier) : List Call := s.subscriber.calls ++ s.background

def outbox (s : WebhookNotifier) : Outbox WebhookPayload (String × String) where
  pending := (s.batchQueue ++ s.calls.flatMap Call.pending : List WebhookPayload)
  unmarked := (s.calls.flatMap Call.unmarked : List WebhookPayload)
  requests := s.requests
  marked key := s.hasDelivered key.1 key.2 = true

/-- 一回の送信だけの送信箱。 -/
def callBox (s : WebhookNotifier) (call : Call) : Outbox WebhookPayload (String × String) where
  pending := call.pending
  unmarked := call.unmarked
  requests := s.requests
  marked key := s.hasDelivered key.1 key.2 = true

theorem outbox_eq_frame {s : WebhookNotifier} {call : Call} {rest : List Call} (h : s.calls.Perm (call :: rest)) :
    s.outbox = (s.callBox call).frame (s.batchQueue ++ rest.flatMap Call.pending : List WebhookPayload)
      (rest.flatMap Call.unmarked : List WebhookPayload) := by
  have hpending : (s.batchQueue ++ s.calls.flatMap Call.pending).Perm
      (call.pending ++ (s.batchQueue ++ rest.flatMap Call.pending)) :=
    ((h.flatMap_right Call.pending).append_left s.batchQueue).trans (by
      rw [List.flatMap_cons, ← List.append_assoc, ← List.append_assoc]
      exact List.perm_append_comm.append_right _)
  have hunmarked := h.flatMap_right Call.unmarked
  rw [List.flatMap_cons] at hunmarked
  rw [outbox, Multiset.coe_eq_coe.mpr hpending, Multiset.coe_eq_coe.mpr hunmarked, ← Multiset.coe_add, ← Multiset.coe_add]
  rfl

/-! ## 更新する項目 -/

def entries (s : WebhookNotifier) : List String :=
  s.batchQueue.map (·.taskID) ++ s.subscriber.entries ++ s.retrier.entries ++ s.background.flatMap Call.entries

/-- これから更新する項目は、すべて `notifications` にある。 -/
def Known (s : WebhookNotifier) : Prop := ∀ id ∈ s.entries, id ∈ s.notifications

/-! ## 一回の送信 -/

/-- 送信が行う操作。印を付けずに済ませるのは、終わった状態でない通知である。 -/
def Sends : Outbox.Event WebhookPayload (String × String) → Prop
  | .answer _ _ | .mark _ => True
  | .skip payload => isTerminalState payload.state = false
  | _ => False

variable {config : WebhookConfig} {s : WebhookNotifier} {call : Call}

theorem hasDelivered_markDelivered (payload : WebhookPayload) :
    (s.markDelivered config payload.taskID payload.state).hasDelivered payload.taskID payload.state = true := by
  rw [hasDelivered, markDelivered, AList.lookup_insert]
  by_cases h : 0 < config.deliveredTTL
  · rw [if_pos h]
    exact decide_eq_true (Int.le_add_of_nonneg_right (Int.le_of_lt h))
  · rw [if_neg h]
    rfl

theorem hasDelivered_markDelivered_of (payload : WebhookPayload) {taskID state : String}
    (h : s.hasDelivered taskID state = true) :
    (s.markDelivered config payload.taskID payload.state).hasDelivered taskID state = true := by
  by_cases hkey : deliveredKey taskID state = deliveredKey payload.taskID payload.state
  · have hmarked : (s.markDelivered config payload.taskID payload.state).hasDelivered payload.taskID payload.state = true :=
      hasDelivered_markDelivered payload
    rwa [hasDelivered, ← hkey] at hmarked
  · rwa [hasDelivered, markDelivered, AList.lookup_insert_ne hkey]

theorem getD_mem_entries {entry : Option String} {payload : WebhookPayload} {payloads : List WebhookPayload}
    {success : Bool} : entry.getD payload.taskID ∈ (Call.settling entry (payload :: payloads) success).entries := by
  cases entry <;> exact List.mem_cons_self

/-- 結果を一つ書く一歩。 -/
theorem settle_event {entry : Option String} {payload : WebhookPayload} {payloads : List WebhookPayload} (ok success : Bool)
    (hknown : ∀ id ∈ (Call.settling entry (payload :: payloads) success).entries, id ∈ s.notifications) :
    let next := s.send config ok (.settling entry (payload :: payloads) success)
    next.2.callBox next.1 = s.callBox (.settling entry (payload :: payloads) success) ∨
      ∃ e, Sends e ∧
        Outbox.Moves WebhookPayload.key (s.callBox (.settling entry (payload :: payloads) success)) e
          (next.2.callBox next.1) := by
  have hmem := hknown _ getD_mem_entries
  obtain ⟨n, hn⟩ := Option.isSome_iff_exists.mp (AList.lookup_isSome.mpr hmem)
  simp only [send, hn]
  cases success with
  | false => exact .inl rfl
  | true =>
      cases hterminal : isTerminalState payload.state with
      | true => exact .inl rfl
      | false => exact .inr ⟨.skip payload, hterminal, .skip rfl⟩

/-- 送信の一歩は、送信箱の一つの操作であるか、送信箱を変えない。 -/
theorem send_event (ok : Bool) (hknown : ∀ id ∈ call.entries, id ∈ s.notifications) :
    (s.send config ok call).2.callBox (s.send config ok call).1 = s.callBox call ∨
      ∃ e, Sends e ∧
        Outbox.Moves WebhookPayload.key (s.callBox call) e ((s.send config ok call).2.callBox (s.send config ok call).1) := by
  cases call with
  | requesting entry payloads =>
      refine .inr ⟨.answer payloads ok, trivial, ?_⟩
      have hmove : Outbox.Moves WebhookPayload.key (s.callBox (.requesting entry payloads)) (.answer payloads ok) _ :=
        .answer ok (Multiset.add_zero _).symm
      have hzero : ↑payloads + (s.callBox (.requesting entry payloads)).unmarked = ↑payloads := Multiset.add_zero _
      rw [hzero] at hmove
      cases entry <;> cases ok <;> exact hmove
  | waiting payloads success =>
      left
      rw [send]
      split <;> cases success <;> rfl
  | settling entry payloads success =>
      cases payloads with
      | nil =>
          left
          rw [send]
          cases entry <;> cases success <;> rfl
      | cons payload payloads => exact settle_event ok success hknown
  | marking entry payload payloads =>
      refine .inr ⟨.mark payload, trivial, ?_⟩
      exact .mark (by rfl) (fun key h => hasDelivered_markDelivered_of payload h) (hasDelivered_markDelivered payload)
  | done => exact .inl rfl

/-- 送信の一歩が変えないもの。 -/
structure Aside (s s' : WebhookNotifier) : Prop where
  batchQueue : s'.batchQueue = s.batchQueue
  subscriber : s'.subscriber = s.subscriber
  retrier : s'.retrier = s.retrier
  background : s'.background = s.background
  notifications : ∀ id ∈ s.notifications, id ∈ s'.notifications

theorem send_aside (ok : Bool) : Aside s (s.send config ok call).2 := by
  cases call with
  | requesting entry payloads => exact ⟨rfl, rfl, rfl, rfl, fun _ h => h⟩
  | waiting payloads success =>
      rw [send]
      split <;> exact ⟨rfl, rfl, rfl, rfl, fun _ h => h⟩
  | settling entry payloads success =>
      cases payloads with
      | nil => cases entry <;> exact ⟨rfl, rfl, rfl, rfl, fun _ h => h⟩
      | cons payload payloads =>
          simp only [send]
          split
          · exact ⟨rfl, rfl, rfl, rfl, fun _ h => h⟩
          · exact ⟨rfl, rfl, rfl, rfl, fun _ h => (AList.mem_insert _).mpr (.inr h)⟩
  | marking entry payload payloads => exact ⟨rfl, rfl, rfl, rfl, fun _ h => h⟩
  | done => exact ⟨rfl, rfl, rfl, rfl, fun _ h => h⟩

theorem send_entries (ok : Bool) : ∀ id ∈ (s.send config ok call).1.entries, id ∈ call.entries := by
  cases call with
  | requesting entry payloads => cases entry <;> exact fun _ h => h
  | waiting payloads success =>
      rw [send]
      split <;> exact fun _ h => h
  | settling entry payloads success =>
      cases payloads with
      | nil => exact fun _ h => absurd h List.not_mem_nil
      | cons payload payloads =>
          have htail : ∀ id ∈ (Call.settling entry payloads success).entries,
              id ∈ (Call.settling entry (payload :: payloads) success).entries := by
            cases entry with
            | none => exact fun _ h => List.mem_cons_of_mem _ h
            | some entry => exact fun _ h => h
          simp only [send]
          split
          · exact htail
          · dsimp only
            split <;> exact htail
  | marking entry payload payloads => exact fun _ h => h
  | done => exact fun _ h => h

/-! ## 一つの操作 -/

/-- 操作 `op` が送信箱に行いうる操作。 -/
inductive Cause (config : WebhookConfig) (s : WebhookNotifier) : Op → Outbox.Event WebhookPayload (String × String) → Prop
  | event {ok : Bool} {task : Task} (h : s.subscriber = .deciding task)
      (hbackoff : ((s.notifications.lookup task.id).getD {}).inBackoff s.clock = false) :
      Cause config s (.subscriber ok) (.put (newPayload config s.clock task))
  | retry {taskID : String} {now : Nat} {taskIDs : List String} {task : Task} (h : s.retrier = .fetching taskID now taskIDs)
      (htask : s.getTaskFromRedis taskID = some task) : Cause config s .retrier (.put (newPayload config s.clock task))
  | sends {op : Op} {e : Outbox.Event WebhookPayload (String × String)} (h : Sends e) : Cause config s op e
  | tick (d : Nat) : Cause config s (.tick d) (.expire ({ s with clock := s.clock + d } : WebhookNotifier).outbox.marked)
  | restart : Cause config s .restart .crash

/-- 送信箱の一つの操作であるか、送信箱を変えない。 -/
def Refines (config : WebhookConfig) (s : WebhookNotifier) (op : Op) (s' : WebhookNotifier) : Prop :=
  s'.outbox = s.outbox ∨ ∃ e, Cause config s op e ∧ Outbox.Moves WebhookPayload.key s.outbox e s'.outbox

/-- 一つの送信を進めて、その段階を書き戻す。 -/
theorem refines_send {op : Op} (ok : Bool) {s' : WebhookNotifier} {rest : List Call}
    (hknown : ∀ id ∈ call.entries, id ∈ s.notifications) (hcalls : s.calls.Perm (call :: rest))
    (hcalls' : s'.calls.Perm ((s.send config ok call).1 :: rest)) (hqueue : s'.batchQueue = s.batchQueue)
    (hbox : s'.callBox (s.send config ok call).1 = (s.send config ok call).2.callBox (s.send config ok call).1) :
    Refines config s op s' := by
  rw [Refines, outbox_eq_frame hcalls, outbox_eq_frame hcalls', hqueue, hbox]
  cases @send_event config s call ok hknown with
  | inl hsame => exact .inl (by rw [hsame])
  | inr hmove =>
      obtain ⟨e, hsends, hmove⟩ := hmove
      have hcrash : e ≠ .crash := fun he => by
        rw [he] at hsends
        exact hsends
      exact .inr ⟨e, .sends hsends, hmove.frame hcrash _ _⟩

theorem outbox_perm {s' : WebhookNotifier}
    (hpending : (s'.batchQueue ++ s'.calls.flatMap Call.pending).Perm (s.batchQueue ++ s.calls.flatMap Call.pending))
    (hunmarked : s'.calls.flatMap Call.unmarked = s.calls.flatMap Call.unmarked) (hrequests : s'.requests = s.requests)
    (hdelivered : s'.delivered = s.delivered) (hclock : s'.clock = s.clock) : s'.outbox = s.outbox := by
  simp only [outbox, hasDelivered, Multiset.coe_eq_coe.mpr hpending, hunmarked, hrequests, hdelivered, hclock]

/-- 購読の段階が、送信に関わらずに変わる。 -/
theorem outbox_congr {s' : WebhookNotifier} (hcalls : s'.subscriber.calls = s.subscriber.calls)
    (hbackground : s'.background = s.background) (hqueue : s'.batchQueue = s.batchQueue)
    (hrequests : s'.requests = s.requests) (hdelivered : s'.delivered = s.delivered) (hclock : s'.clock = s.clock) :
    s'.outbox = s.outbox := by
  refine outbox_perm ?_ ?_ hrequests hdelivered hclock
  · rw [calls, calls, hcalls, hbackground, hqueue]
  · rw [calls, calls, hcalls, hbackground]

theorem flushBatch_outbox : s.flushBatch.outbox = s.outbox := by
  rw [flushBatch]
  split
  · rfl
  · refine outbox_perm ?_ ?_ rfl rfl rfl
    · simp only [calls]
      rw [List.nil_append, ← List.append_assoc, List.flatMap_append, List.flatMap_singleton]
      exact List.perm_append_comm
    · simp only [calls]
      rw [← List.append_assoc, List.flatMap_append, List.flatMap_singleton]
      exact List.append_nil _

/-- 送る通知が一つ増える。 -/
theorem outbox_put {s' : WebhookNotifier} {payload : WebhookPayload}
    (hpending : (s'.batchQueue ++ s'.calls.flatMap Call.pending).Perm
      (payload :: (s.batchQueue ++ s.calls.flatMap Call.pending)))
    (hunmarked : s'.calls.flatMap Call.unmarked = s.calls.flatMap Call.unmarked) (hrequests : s'.requests = s.requests)
    (hdelivered : s'.delivered = s.delivered) (hclock : s'.clock = s.clock) :
    Outbox.Moves WebhookPayload.key s.outbox (.put payload) s'.outbox := by
  have hout : s'.outbox = { s.outbox with pending := payload ::ₘ s.outbox.pending } := by
    simp only [outbox, hasDelivered, Multiset.coe_eq_coe.mpr hpending, hunmarked, hrequests, hdelivered, hclock]
    rfl
  rw [hout]
  exact .put _ payload

theorem addToBatch_put (payload : WebhookPayload) :
    Outbox.Moves WebhookPayload.key s.outbox (.put payload) (s.addToBatch config payload).outbox := by
  have hput : Outbox.Moves WebhookPayload.key s.outbox (.put payload)
      ({ s with batchQueue := s.batchQueue ++ [payload] } : WebhookNotifier).outbox := by
    refine outbox_put ?_ rfl rfl rfl rfl
    change (s.batchQueue ++ [payload] ++ s.calls.flatMap Call.pending).Perm _
    rw [List.append_assoc]
    exact List.perm_middle
  simp only [addToBatch]
  split
  · rwa [flushBatch_outbox]
  · exact hput

theorem spawn_put {s' : WebhookNotifier} {entry : Option String} {payload : WebhookPayload}
    (hsubscriber : s'.subscriber = s.subscriber)
    (hbackground : s'.background = s.background ++ [.requesting entry [payload]]) (hqueue : s'.batchQueue = s.batchQueue)
    (hrequests : s'.requests = s.requests) (hdelivered : s'.delivered = s.delivered) (hclock : s'.clock = s.clock) :
    Outbox.Moves WebhookPayload.key s.outbox (.put payload) s'.outbox := by
  refine outbox_put ?_ ?_ hrequests hdelivered hclock
  · rw [calls, hsubscriber, hbackground, hqueue, ← List.append_assoc, List.flatMap_append, List.flatMap_singleton,
      ← List.append_assoc]
    exact List.perm_append_singleton _ _
  · rw [calls, hsubscriber, hbackground, ← List.append_assoc, List.flatMap_append, List.flatMap_singleton]
    exact List.append_nil _

theorem unlockSubscriber_outbox (h : s.subscriber.calls = []) : s.unlockSubscriber.outbox = s.outbox :=
  outbox_congr h.symm rfl rfl rfl rfl rfl

/-- 通知からは、記録を読むか、何もしない。 -/
theorem handle_cases (msg : Message) :
    handleRedisKeyspaceNotification msg = .idle ∨ ∃ taskID, handleRedisKeyspaceNotification msg = .fetching taskID := by
  rw [handleRedisKeyspaceNotification]
  split
  · exact .inl rfl
  · dsimp only
    split
    · exact .inr ⟨_, rfl⟩
    · exact .inl rfl

/-- 項目も購読の段階も変えない。 -/
structure Quiet (s s' : WebhookNotifier) : Prop where
  notifications : s'.notifications = s.notifications
  subscriber : s'.subscriber = s.subscriber
  clock : s.clock ≤ s'.clock

theorem Quiet.refl (s : WebhookNotifier) : Quiet s s := ⟨rfl, rfl, Nat.le_refl _⟩

theorem Quiet.trans {s s' s'' : WebhookNotifier} (h : Quiet s s') (h' : Quiet s' s'') : Quiet s s'' :=
  ⟨h'.notifications.trans h.notifications, h'.subscriber.trans h.subscriber, Nat.le_trans h.clock h'.clock⟩

theorem flushBatch_quiet (s : WebhookNotifier) : Quiet s s.flushBatch := by
  rw [flushBatch]
  split
  · exact .refl s
  · exact ⟨rfl, rfl, Nat.le_refl _⟩

theorem addToBatch_quiet (config : WebhookConfig) (s : WebhookNotifier) (payload : WebhookPayload) :
    Quiet s (s.addToBatch config payload) := by
  have hqueue : Quiet s { s with batchQueue := s.batchQueue ++ [payload] } := ⟨rfl, rfl, Nat.le_refl _⟩
  simp only [addToBatch]
  split
  · exact hqueue.trans (flushBatch_quiet _)
  · exact hqueue

theorem step_quiet (config : WebhookConfig) (s : WebhookNotifier) {op : Op} (h : op.quiet = true) :
    Quiet s (step config op s) := by
  cases op with
  | set | remove | publish | stop => exact ⟨rfl, rfl, Nat.le_refl _⟩
  | tick d => exact ⟨rfl, rfl, Nat.le_add_right _ d⟩
  | startRetries taskIDs =>
      simp only [step, startRetries]
      split
      · split
        · exact .refl s
        · split
          · exact ⟨rfl, rfl, Nat.le_refl _⟩
          · exact .refl s
      · exact .refl s
  | retrier =>
      simp only [step, stepRetrier]
      split
      · exact .refl s
      · exact ⟨rfl, rfl, Nat.le_refl _⟩
      · split <;> exact ⟨rfl, rfl, Nat.le_refl _⟩
      · split <;> exact ⟨rfl, rfl, Nat.le_refl _⟩
  | batchTick =>
      simp only [step, batchTick]
      split
      · exact flushBatch_quiet s
      · exact .refl s
  | batchStop =>
      simp only [step, batchStop]
      split
      · exact (flushBatch_quiet s).trans ⟨rfl, rfl, Nat.le_refl _⟩
      · exact .refl s
  | restart | subscriber | background => cases h

/-- 購読の一歩で起こること。 -/
inductive Subscribed (config : WebhookConfig) (ok : Bool) (s : WebhookNotifier) : WebhookNotifier → Prop where
  | same : Subscribed config ok s s
  | received {events : List Message} {next : Subscriber} (h : s.subscriber = .idle)
      (hnext : next = .idle ∨ ∃ taskID, next = .fetching taskID) : Subscribed config ok s { s with events, subscriber := next }
  | fetched {taskID : String} {next : Subscriber} (h : s.subscriber = .fetching taskID)
      (hnext : next = .idle ∨ ∃ task, next = .waiting task ∧ shouldNotifyState config task.state = true) :
      Subscribed config ok s { s with subscriber := next }
  | locked {task : Task} {n : NotificationState} (h : s.subscriber = .waiting task) :
      Subscribed config ok s
        { s with notifMutex := true, notifications := s.notifications.insert task.id n, subscriber := .checking task }
  | passed {task : Task} (h : s.subscriber = .checking task) : Subscribed config ok s { s with subscriber := .deciding task }
  /-- 送らないか、送り終えた。 -/
  | unlocked (h : s.subscriber.calls = [] ∨ s.subscriber = .sending .done) : Subscribed config ok s s.unlockSubscriber
  | batched {task : Task} (h : s.subscriber = .deciding task)
      (hbackoff : ((s.notifications.lookup task.id).getD {}).inBackoff s.clock = false) :
      Subscribed config ok s (s.addToBatch config (newPayload config s.clock task)).unlockSubscriber
  | requested {task : Task} (h : s.subscriber = .deciding task)
      (hbackoff : ((s.notifications.lookup task.id).getD {}).inBackoff s.clock = false) :
      Subscribed config ok s
        { s with subscriber := .sending (.requesting (some task.id) [newPayload config s.clock task]) }
  | sent {call : Call} (h : s.subscriber = .sending call) :
      Subscribed config ok s { (s.send config ok call).2 with subscriber := .sending (s.send config ok call).1 }

theorem subscribed (config : WebhookConfig) (ok : Bool) (s : WebhookNotifier) :
    Subscribed config ok s (s.stepSubscriber config ok) := by
  rw [stepSubscriber]
  split
  next hsub =>
    split
    · exact .same
    split
    · exact .same
    next msg events _ => exact .received hsub (handle_cases msg)
  next taskID hsub =>
    split
    · exact .fetched hsub (.inl rfl)
    next task _ =>
      refine .fetched hsub ?_
      split
      next hnotify => exact .inr ⟨task, rfl, hnotify⟩
      · exact .inl rfl
  next task hsub =>
    split
    · exact .same
    · exact .locked hsub
  next task hsub =>
    split
    · exact .passed hsub
    · exact .unlocked (.inl (by rw [hsub]; rfl))
  next task hsub =>
    split
    · exact .unlocked (.inl (by rw [hsub]; rfl))
    next hbackoff =>
      dsimp only
      split
      · exact .batched hsub (eq_false_of_ne_true hbackoff)
      · exact .requested hsub (eq_false_of_ne_true hbackoff)
  next hsub => exact .unlocked (.inr hsub)
  next call _ hsub => exact .sent hsub

theorem stepSubscriber_refines (hknown : s.Known) (ok : Bool) :
    Refines config s (.subscriber ok) (s.stepSubscriber config ok) := by
  have hstep := subscribed config ok s
  generalize s.stepSubscriber config ok = s' at hstep ⊢
  cases hstep with
  | same => exact .inl rfl
  | received h hnext =>
      refine .inl (outbox_congr ?_ rfl rfl rfl rfl rfl)
      rw [h]
      rcases hnext with rfl | ⟨taskID, rfl⟩ <;> rfl
  | fetched h hnext =>
      refine .inl (outbox_congr ?_ rfl rfl rfl rfl rfl)
      rw [h]
      rcases hnext with rfl | ⟨task, rfl, -⟩ <;> rfl
  | locked h => exact .inl (outbox_congr (by rw [h]; rfl) rfl rfl rfl rfl rfl)
  | passed h => exact .inl (outbox_congr (by rw [h]; rfl) rfl rfl rfl rfl rfl)
  | unlocked h =>
      cases h with
      | inl hnone => exact .inl (unlockSubscriber_outbox hnone)
      | inr hdone =>
          refine .inl (outbox_perm ?_ ?_ rfl rfl rfl)
          · rw [calls, calls, hdone]
            exact .refl _
          · rw [calls, calls, hdone]
            rfl
  | batched h hbackoff =>
      refine .inr ⟨_, .event h hbackoff, ?_⟩
      rw [unlockSubscriber_outbox (by rw [(addToBatch_quiet config s _).subscriber, h]; rfl)]
      exact addToBatch_put _
  | requested h hbackoff =>
      refine .inr ⟨_, .event h hbackoff, outbox_put ?_ ?_ rfl rfl rfl⟩
      · rw [calls, calls, h]
        exact List.perm_middle
      · rw [calls, calls, h]
        rfl
  | @sent call h =>
      have haside : Aside s (s.send config ok call).2 := send_aside ok
      have hcall : ∀ id ∈ call.entries, id ∈ s.notifications := fun id hid => hknown id (by
        rw [entries, h]
        exact List.mem_append_left _ (List.mem_append_left _ (List.mem_append_right _ hid)))
      have hcalls : s.calls.Perm (call :: s.background) := by
        rw [calls, h]
        exact .refl _
      refine refines_send ok hcall hcalls ?_ haside.batchQueue rfl
      rw [calls, haside.background]
      exact .refl _

theorem stepRetrier_refines : Refines config s .retrier (s.stepRetrier config) := by
  rw [stepRetrier]
  split
  · exact .inl rfl
  · exact .inl rfl
  · split <;> exact .inl rfl
  next taskID now taskIDs hretrier =>
    split
    · exact .inl rfl
    next task htask => exact .inr ⟨_, .retry hretrier htask, spawn_put rfl rfl rfl rfl rfl rfl⟩

theorem stepBackground_refines (hknown : s.Known) (i : Nat) (ok : Bool) :
    Refines config s (.background i ok) (s.stepBackground config i ok) := by
  rw [stepBackground]
  split
  · exact .inl rfl
  next call hcall =>
    have haside : Aside s (s.send config ok call).2 := send_aside ok
    obtain ⟨hi, rfl⟩ := List.getElem?_eq_some_iff.mp hcall
    have hentries : ∀ id ∈ s.background[i].entries, id ∈ s.notifications := fun id hid => hknown id
      (List.mem_append_right _ (List.mem_flatMap.mpr ⟨_, List.getElem_mem hi, hid⟩))
    have hcalls : s.calls.Perm (s.background[i] :: (s.subscriber.calls ++ s.background.eraseIdx i)) :=
      ((List.getElem_cons_eraseIdx_perm hi).symm.append_left _).trans List.perm_middle
    refine refines_send ok hentries hcalls ?_ haside.batchQueue rfl
    rw [calls, haside.subscriber]
    dsimp only
    rw [haside.background]
    exact ((List.set_perm_cons_eraseIdx hi _).append_left _).trans List.perm_middle

theorem startRetries_outbox (taskIDs : List String) : (s.startRetries taskIDs).outbox = s.outbox := by
  rw [startRetries]
  split
  · split
    · rfl
    · split <;> rfl
  · rfl

theorem batchTick_outbox : (s.batchTick config).outbox = s.outbox := by
  rw [batchTick]
  split
  · exact flushBatch_outbox
  · rfl

theorem batchStop_outbox : (s.batchStop config).outbox = s.outbox := by
  rw [batchStop]
  split
  · exact flushBatch_outbox
  · rfl

/-- どの操作も、送信箱の一つの操作であるか、送信箱を変えない。 -/
theorem step_refines (hknown : s.Known) (op : Op) : Refines config s op (step config op s) := by
  cases op with
  | set id record => exact .inl rfl
  | remove id => exact .inl rfl
  | publish msg => exact .inl rfl
  | tick d => exact .inr ⟨_, .tick d, .expire _ _⟩
  | stop => exact .inl rfl
  | restart => exact .inr ⟨_, .restart, .crash _⟩
  | subscriber ok => exact stepSubscriber_refines hknown ok
  | startRetries taskIDs => exact .inl (startRetries_outbox taskIDs)
  | retrier => exact stepRetrier_refines
  | batchTick => exact .inl batchTick_outbox
  | batchStop => exact .inl batchStop_outbox
  | background i ok => exact stepBackground_refines hknown i ok

/-! ## 更新する項目はいつもあること -/

theorem Known.mono {s' : WebhookNotifier} (h : s.Known) (hentries : ∀ id ∈ s'.entries, id ∈ s.entries)
    (hkeys : ∀ id ∈ s.notifications, id ∈ s'.notifications) : s'.Known := fun id hid => hkeys id (h id (hentries id hid))

theorem mem_entries {id : String} : id ∈ s.entries ↔
    (∃ p ∈ s.batchQueue, p.taskID = id) ∨ id ∈ s.subscriber.entries ∨ id ∈ s.retrier.entries ∨
      ∃ call ∈ s.background, id ∈ call.entries := by
  simp only [entries, List.mem_append, List.mem_map, List.mem_flatMap, or_assoc]

/-- 購読の段階だけが変わる。 -/
theorem Known.subscriber {s' : WebhookNotifier} (h : s.Known) (hqueue : s'.batchQueue = s.batchQueue)
    (hretrier : s'.retrier = s.retrier) (hbackground : s'.background = s.background)
    (hkeys : ∀ id ∈ s.notifications, id ∈ s'.notifications)
    (hentries : ∀ id ∈ s'.subscriber.entries, id ∈ s'.notifications) : s'.Known := by
  intro id hid
  rw [mem_entries, hqueue, hretrier, hbackground] at hid
  cases hid with
  | inl hin => exact hkeys id (h id (mem_entries.mpr (.inl hin)))
  | inr hid =>
      cases hid with
      | inl hin => exact hentries id hin
      | inr hin => exact hkeys id (h id (mem_entries.mpr (.inr (.inr hin))))

theorem flushBatch_entries : ∀ id ∈ s.flushBatch.entries, id ∈ s.entries := by
  intro id hid
  rw [flushBatch] at hid
  split at hid
  · exact hid
  · rw [mem_entries] at hid ⊢
    dsimp only at hid
    rcases hid with ⟨p, hp, -⟩ | hin | hin | ⟨call, hcall, hin⟩
    · cases hp
    · exact .inr (.inl hin)
    · exact .inr (.inr (.inl hin))
    · cases List.mem_append.mp hcall with
      | inl hold => exact .inr (.inr (.inr ⟨call, hold, hin⟩))
      | inr hnew =>
          cases List.mem_singleton.mp hnew
          exact .inl (List.mem_map.mp hin)

theorem Known.flushBatch (h : s.Known) : s.flushBatch.Known :=
  h.mono flushBatch_entries (by rw [(flushBatch_quiet s).notifications]; exact fun _ hid => hid)

theorem Known.addToBatch (h : s.Known) {payload : WebhookPayload} (hid : payload.taskID ∈ s.notifications) :
    (s.addToBatch config payload).Known := by
  have hqueue : ({ s with batchQueue := s.batchQueue ++ [payload] } : WebhookNotifier).Known := by
    intro id hin
    rw [mem_entries] at hin
    rcases hin with ⟨p, hp, rfl⟩ | hrest
    · cases List.mem_append.mp hp with
      | inl hold => exact h _ (mem_entries.mpr (.inl ⟨p, hold, rfl⟩))
      | inr hnew =>
          cases List.mem_singleton.mp hnew
          exact hid
    · exact h id (mem_entries.mpr (.inr hrest))
  rw [WebhookNotifier.addToBatch]
  dsimp only
  split
  · exact hqueue.flushBatch
  · exact hqueue

theorem Known.unlockSubscriber (h : s.Known) : s.unlockSubscriber.Known :=
  h.subscriber rfl rfl rfl (fun _ hid => hid) fun _ hid => absurd hid List.not_mem_nil

theorem Known.stepSubscriber (h : s.Known) (ok : Bool) : (s.stepSubscriber config ok).Known := by
  have hsubscriber : ∀ id ∈ s.subscriber.entries, id ∈ s.notifications := fun id hid =>
    h id (mem_entries.mpr (.inr (.inl hid)))
  have hstep := subscribed config ok s
  generalize s.stepSubscriber config ok = s' at hstep ⊢
  cases hstep with
  | same => exact h
  | received _ hnext =>
      refine h.subscriber rfl rfl rfl (fun _ hid => hid) fun id hid => ?_
      rcases hnext with rfl | ⟨taskID, rfl⟩ <;> cases hid
  | fetched _ hnext =>
      refine h.subscriber rfl rfl rfl (fun _ hid => hid) fun id hid => ?_
      rcases hnext with rfl | ⟨task, rfl, -⟩ <;> cases hid
  | locked =>
      refine h.subscriber rfl rfl rfl (fun _ hid => (AList.mem_insert _).mpr (.inr hid)) fun id hid => ?_
      exact (AList.mem_insert _).mpr (.inl (List.mem_singleton.mp hid))
  | passed hsub =>
      rw [hsub] at hsubscriber
      exact h.subscriber rfl rfl rfl (fun _ hid => hid) hsubscriber
  | unlocked => exact h.unlockSubscriber
  | batched hsub =>
      rw [hsub] at hsubscriber
      exact (h.addToBatch (hsubscriber _ List.mem_cons_self)).unlockSubscriber
  | requested hsub =>
      rw [hsub] at hsubscriber
      exact h.subscriber rfl rfl rfl (fun _ hid => hid) hsubscriber
  | @sent call hsub =>
      rw [hsub] at hsubscriber
      have haside : Aside s (s.send config ok call).2 := send_aside ok
      exact h.subscriber haside.batchQueue haside.retrier haside.background haside.notifications fun id hid =>
        haside.notifications id (hsubscriber id (send_entries ok id hid))

theorem Known.startRetries (h : s.Known) (taskIDs : List String) : (s.startRetries taskIDs).Known := by
  rw [WebhookNotifier.startRetries]
  split
  next hretrier =>
    split
    · exact h
    · split
      next hperm =>
        intro id hid
        rw [mem_entries] at hid
        rcases hid with hin | hin | hin | hin
        · exact h id (mem_entries.mpr (.inl hin))
        · exact h id (mem_entries.mpr (.inr (.inl hin)))
        · exact AList.mem_keys.mpr ((List.isPerm_iff.mp hperm).mem_iff.mp hin)
        · exact h id (mem_entries.mpr (.inr (.inr (.inr hin))))
      · exact h
  · exact h

/-- 再送の段階が変わり、背後の送信が `calls` だけ増える。 -/
theorem Known.retrier {s' : WebhookNotifier} (h : s.Known) {calls : List Call} (hqueue : s'.batchQueue = s.batchQueue)
    (hsubscriber : s'.subscriber = s.subscriber) (hbackground : s'.background = s.background ++ calls)
    (hkeys : s'.notifications = s.notifications) (hretrier : ∀ id ∈ s'.retrier.entries, id ∈ s.retrier.entries)
    (hcalls : ∀ call ∈ calls, ∀ id ∈ call.entries, id ∈ s.retrier.entries) : s'.Known := by
  refine h.mono (fun id hid => ?_) (by rw [hkeys]; exact fun _ hid => hid)
  rw [mem_entries, hqueue, hsubscriber, hbackground] at hid
  rw [mem_entries]
  rcases hid with hin | hin | hin | ⟨call, hcall, hin⟩
  · exact .inl hin
  · exact .inr (.inl hin)
  · exact .inr (.inr (.inl (hretrier id hin)))
  · cases List.mem_append.mp hcall with
    | inl hold => exact .inr (.inr (.inr ⟨call, hold, hin⟩))
    | inr hnew => exact .inr (.inr (.inl (hcalls call hnew id hin)))

theorem Known.stepRetrier (h : s.Known) : (s.stepRetrier config).Known := by
  have hnil {s' : WebhookNotifier} (hqueue : s'.batchQueue = s.batchQueue) (hsubscriber : s'.subscriber = s.subscriber)
      (hbackground : s'.background = s.background) (hkeys : s'.notifications = s.notifications)
      (hretrier : ∀ id ∈ s'.retrier.entries, id ∈ s.retrier.entries) : s'.Known :=
    h.retrier hqueue hsubscriber (hbackground.trans (List.append_nil _).symm) hkeys hretrier
      fun _ hin => absurd hin List.not_mem_nil
  rw [WebhookNotifier.stepRetrier]
  split
  · exact h
  · exact hnil rfl rfl rfl rfl fun _ hid => absurd hid List.not_mem_nil
  next now taskID taskIDs hretrier =>
    split
    · exact hnil rfl rfl rfl rfl (by rw [hretrier]; exact fun _ hid => hid)
    · exact hnil rfl rfl rfl rfl (by rw [hretrier]; exact fun _ hid => List.mem_cons_of_mem _ hid)
  next taskID now taskIDs hretrier =>
    split
    · exact hnil rfl rfl rfl rfl (by rw [hretrier]; exact fun _ hid => List.mem_cons_of_mem _ hid)
    · refine h.retrier rfl rfl rfl rfl (by rw [hretrier]; exact fun _ hid => List.mem_cons_of_mem _ hid) ?_
      intro call hcall id hid
      cases List.mem_singleton.mp hcall
      cases List.mem_singleton.mp hid
      rw [hretrier]
      exact List.mem_cons_self

theorem Known.stepBackground (h : s.Known) (i : Nat) (ok : Bool) : (s.stepBackground config i ok).Known := by
  rw [WebhookNotifier.stepBackground]
  split
  · exact h
  next call hcall =>
    have haside : Aside s (s.send config ok call).2 := send_aside ok
    have hmem := List.mem_of_getElem? hcall
    refine h.mono (fun id hid => ?_) haside.notifications
    rw [mem_entries] at hid ⊢
    dsimp only at hid
    rw [haside.batchQueue, haside.subscriber, haside.retrier, haside.background] at hid
    rcases hid with hin | hin | hin | ⟨other, hother, hin⟩
    · exact .inl hin
    · exact .inr (.inl hin)
    · exact .inr (.inr (.inl hin))
    · cases List.mem_or_eq_of_mem_set hother with
      | inl hold => exact .inr (.inr (.inr ⟨other, hold, hin⟩))
      | inr hnew => exact .inr (.inr (.inr ⟨call, hmem, send_entries ok id (hnew ▸ hin)⟩))

theorem Known.step (h : s.Known) (op : Op) : (step config op s).Known := by
  cases op with
  | set id record => exact h
  | remove id => exact h
  | publish msg => exact h
  | tick d => exact h
  | stop => exact h
  | restart => exact fun id hid => absurd hid List.not_mem_nil
  | subscriber ok => exact h.stepSubscriber ok
  | startRetries taskIDs => exact h.startRetries taskIDs
  | retrier => exact h.stepRetrier
  | batchTick =>
      change (s.batchTick config).Known
      rw [WebhookNotifier.batchTick]
      split
      · exact h.flushBatch
      · exact h
  | batchStop =>
      change (s.batchStop config).Known
      rw [WebhookNotifier.batchStop]
      split
      · exact h.flushBatch
      · exact h
  | background i ok => exact h.stepBackground i ok

theorem known_init : ({} : WebhookNotifier).Known := fun _ hid => absurd hid List.not_mem_nil

end WebhookNotifier

end RtcEgress.Webhook
