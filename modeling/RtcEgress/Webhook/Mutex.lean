import RtcEgress.Webhook.Outbox

/-!
# `notifMutex` を持つ goroutine

購読、再送、まとめ送りの goroutine は、`notifMutex` を持って `notifications` を読み書きする。どの順に動いても、持つのは高々
一つである。`processRetries` が `map` を巡る間に、項目は増えも減りもしない。
-/

namespace RtcEgress.Webhook

open RtcEgress.Lib

/-- `sendNotification` の段階。呼び出した側の項目だけを更新し、`notifMutex` に触れない。 -/
def Call.isSingle : Call → Bool
  | .requesting entry _ | .settling entry _ _ | .marking entry _ _ => entry.isSome
  | .waiting _ _ => false
  | .done => true

/-- `sendBatchNotification` が `notifMutex` を持つ。 -/
def Call.holds : Call → Bool
  | .settling none _ _ | .marking none _ _ => true
  | _ => false

def Subscriber.holds : Subscriber → Bool
  | .checking _ | .deciding _ | .sending _ => true
  | _ => false

def Retrier.holds : Retrier → Bool
  | .idle => false
  | _ => true

namespace WebhookNotifier

variable {config : WebhookConfig} {s : WebhookNotifier} {call : Call}

/-- `notifMutex` を持つ goroutine の数。 -/
def holders (s : WebhookNotifier) : Nat :=
  s.subscriber.holds.toNat + s.retrier.holds.toNat + s.background.countP Call.holds

/-- `notifMutex` の値は、持つ goroutine の数である。購読の goroutine が行うのは、一つずつの送信である。 -/
structure Exclusive (s : WebhookNotifier) : Prop where
  count : s.holders = s.notifMutex.toNat
  single : ∀ call, s.subscriber = .sending call → call.isSingle

/-! ## 一回の送信 -/

theorem send_single (h : call.isSingle) (ok : Bool) :
    (s.send config ok call).1.isSingle ∧ (s.send config ok call).2.notifMutex = s.notifMutex := by
  cases call with
  | waiting => cases h
  | done => exact ⟨rfl, rfl⟩
  | requesting entry payloads =>
      cases entry with
      | none => cases h
      | some entry => exact ⟨rfl, rfl⟩
  | marking entry payload payloads => exact ⟨h, rfl⟩
  | settling entry payloads success =>
      cases entry with
      | none => cases h
      | some entry =>
          cases payloads with
          | nil => exact ⟨rfl, rfl⟩
          | cons payload payloads =>
              simp only [send]
              split
              · exact ⟨rfl, rfl⟩
              · dsimp only
                split <;> exact ⟨rfl, rfl⟩

/-- 一歩の前後で、`notifMutex` の値と、送信が持つ数とは、同じだけ変わる。 -/
theorem send_holds (h : call.holds → s.notifMutex) (ok : Bool) :
    (s.send config ok call).2.notifMutex.toNat + call.holds.toNat =
      s.notifMutex.toNat + (s.send config ok call).1.holds.toNat := by
  cases call with
  | requesting entry payloads => cases entry <;> rfl
  | waiting payloads success =>
      rw [send]
      split
      · rfl
      next hfree => simp [Call.holds, hfree]
  | marking entry payload payloads => cases entry <;> rfl
  | done => rfl
  | settling entry payloads success =>
      cases payloads with
      | nil =>
          cases entry with
          | none => simp [send, Call.holds, h rfl]
          | some entry => rfl
      | cons payload payloads =>
          cases entry with
          | none =>
              simp only [send]
              split
              · rfl
              · dsimp only
                split <;> rfl
          | some entry =>
              simp only [send]
              split
              · rfl
              · dsimp only
                split <;> rfl

/-- 送信は、ある項目を書き直すだけである。 -/
theorem send_keys (ok : Bool) (id : String) : id ∈ (s.send config ok call).2.notifications ↔ id ∈ s.notifications := by
  cases call with
  | requesting | marking | done => rfl
  | waiting payloads success =>
      rw [send]
      split <;> rfl
  | settling entry payloads success =>
      cases payloads with
      | nil => cases entry <;> rfl
      | cons payload payloads =>
          simp only [send]
          split
          · rfl
          next old hold =>
            have hmem : entry.getD payload.taskID ∈ s.notifications :=
              AList.lookup_isSome.mp (Option.isSome_of_mem hold)
            rw [AList.mem_insert]
            constructor
            · rintro (rfl | h)
              · exact hmem
              · exact h
            · exact .inr

/-! ## 持つ goroutine -/

/-- 持つ goroutine の数と `notifMutex` が変わらない。 -/
theorem Exclusive.congr {s' : WebhookNotifier} (h : s.Exclusive) (hsubscriber : s'.subscriber = s.subscriber)
    (hholds : s'.retrier.holds = s.retrier.holds) (hbackground : s'.background.countP Call.holds = s.background.countP Call.holds)
    (hmutex : s'.notifMutex = s.notifMutex) : s'.Exclusive where
  count := by
    rw [holders, hsubscriber, hholds, hbackground, hmutex]
    exact h.count
  single := by
    rw [hsubscriber]
    exact h.single

/-- 購読の段階だけが、持つかどうかを変えずに進む。 -/
theorem Exclusive.subscriber {next : Subscriber} {events : List Message} (h : s.Exclusive)
    (hholds : next.holds = s.subscriber.holds) (hsingle : ∀ call, next = .sending call → call.isSingle) :
    Exclusive { s with events, subscriber := next } where
  count := by
    have hcount := h.count
    rw [holders] at hcount ⊢
    rwa [hholds]
  single := hsingle

theorem Exclusive.free (h : s.Exclusive) (hfree : s.notifMutex = false) :
    s.subscriber.holds = false ∧ s.retrier.holds = false ∧ s.background.countP Call.holds = 0 := by
  have hcount := h.count
  rw [hfree, holders] at hcount
  cases hsub : s.subscriber.holds <;> cases hret : s.retrier.holds <;> simp_all

/-- 購読の goroutine が持つならば、他は持たない。 -/
theorem Exclusive.alone (h : s.Exclusive) (hholds : s.subscriber.holds = true) :
    s.notifMutex = true ∧ s.retrier.holds = false ∧ s.background.countP Call.holds = 0 := by
  have hcount := h.count
  rw [holders, hholds] at hcount
  have hle := Bool.toNat_le s.notifMutex
  have hone : true.toNat = 1 := rfl
  refine ⟨?_, ?_, by omega⟩
  · rw [← Bool.toNat_eq_one]
    omega
  · rw [← Bool.toNat_eq_zero]
    omega

theorem Exclusive.unlock (h : s.Exclusive) (hholds : s.subscriber.holds = true) : s.unlockSubscriber.Exclusive where
  count := by
    obtain ⟨-, hret, hback⟩ := h.alone hholds
    simp [holders, unlockSubscriber, Subscriber.holds, hret, hback]
  single _ hcall := by cases hcall

theorem Exclusive.flushBatch (h : s.Exclusive) : s.flushBatch.Exclusive := by
  rw [WebhookNotifier.flushBatch]
  split
  · exact h
  · exact h.congr rfl rfl (by simp [Call.holds]) rfl

theorem Exclusive.addToBatch (h : s.Exclusive) (payload : WebhookPayload) : (s.addToBatch config payload).Exclusive := by
  rw [WebhookNotifier.addToBatch]
  have hqueue : Exclusive { s with batchQueue := s.batchQueue ++ [payload] } := h.congr rfl rfl rfl rfl
  dsimp only
  split
  · exact hqueue.flushBatch
  · exact hqueue

/-- 購読の goroutine の送信。 -/
theorem Exclusive.send (h : s.Exclusive) (hsub : s.subscriber = .sending call) (ok : Bool) :
    Exclusive { (s.send config ok call).2 with subscriber := .sending (s.send config ok call).1 } := by
  obtain ⟨hnext, hmutex⟩ : (s.send config ok call).1.isSingle ∧ (s.send config ok call).2.notifMutex = s.notifMutex :=
    send_single (h.single call hsub) ok
  have haside : Aside s (s.send config ok call).2 := send_aside ok
  constructor
  · have hcount := h.count
    rw [holders, hsub] at hcount
    rw [holders, haside.retrier, haside.background, hmutex]
    exact hcount
  · rintro call' ⟨⟩
    exact hnext

theorem Exclusive.stepSubscriber (h : s.Exclusive) (ok : Bool) : (s.stepSubscriber config ok).Exclusive := by
  cases hsub : s.subscriber with
  | idle =>
      simp only [WebhookNotifier.stepSubscriber, hsub]
      split
      · exact h
      · split
        · exact h
        next msg events _ =>
          rcases handle_cases msg with hnext | ⟨taskID, hnext⟩ <;> rw [hnext] <;>
            exact h.subscriber (by simp [hsub, Subscriber.holds]) (by simp)
  | fetching taskID =>
      simp only [WebhookNotifier.stepSubscriber, hsub]
      split
      · exact h.subscriber (by rw [hsub]; rfl) (by simp)
      · refine h.subscriber ?_ ?_
        · rw [hsub]
          split <;> rfl
        · split <;> simp
  | waiting task =>
      simp only [WebhookNotifier.stepSubscriber, hsub]
      split
      · exact h
      next hfree =>
        obtain ⟨-, hret, hback⟩ := h.free (eq_false_of_ne_true hfree)
        exact ⟨by simp [holders, Subscriber.holds, hret, hback], by simp⟩
  | checking task =>
      simp only [WebhookNotifier.stepSubscriber, hsub]
      split
      · exact h.subscriber (by rw [hsub]; rfl) (by simp)
      · exact h.unlock (by rw [hsub]; rfl)
  | deciding task =>
      simp only [WebhookNotifier.stepSubscriber, hsub]
      split
      · exact h.unlock (by rw [hsub]; rfl)
      · split
        · refine (h.addToBatch _).unlock ?_
          rw [(addToBatch_quiet config s _).subscriber, hsub]
          rfl
        · refine h.subscriber (by rw [hsub]; rfl) ?_
          rintro call ⟨⟩
          rfl
  | sending call =>
      cases hcall : call with
      | done =>
          simp only [WebhookNotifier.stepSubscriber, hsub, hcall]
          exact h.unlock (by rw [hsub]; rfl)
      | requesting | waiting | settling | marking =>
          simp only [WebhookNotifier.stepSubscriber, hsub, hcall]
          exact h.send (by rw [hsub, hcall]) ok

theorem Exclusive.startRetries (h : s.Exclusive) (taskIDs : List String) : (s.startRetries taskIDs).Exclusive := by
  rw [WebhookNotifier.startRetries]
  split
  next hret =>
    split
    · exact h
    next hfree =>
      split
      · obtain ⟨hsub, -, hback⟩ := h.free (eq_false_of_ne_true hfree)
        exact ⟨by simp [holders, Retrier.holds, hsub, hback], h.single⟩
      · exact h
  · exact h

theorem Exclusive.stepRetrier (h : s.Exclusive) : (s.stepRetrier config).Exclusive := by
  rw [WebhookNotifier.stepRetrier]
  split
  · exact h
  next hret =>
    have hcount := h.count
    rw [holders, hret] at hcount
    have hle := Bool.toNat_le s.notifMutex
    refine ⟨?_, h.single⟩
    simp only [holders, Retrier.holds, Bool.toNat_false, Bool.toNat_true] at hcount ⊢
    omega
  next hret => split <;> exact h.congr rfl (by rw [hret]; rfl) rfl rfl
  next hret =>
    split
    · exact h.congr rfl (by rw [hret]; rfl) rfl rfl
    · exact h.congr rfl (by rw [hret]; rfl) (by simp [Call.holds]) rfl

/-- 一つの要素を置き換えたときの数。 -/
theorem countP_set_add {α : Type} {l : List α} {p : α → Bool} {i : Nat} {a : α} (hi : i < l.length) :
    (l.set i a).countP p + (p l[i]).toNat = l.countP p + (p a).toNat := by
  have hle := List.boole_getElem_le_countP (p := p) hi
  rw [List.countP_set hi]
  cases hold : p l[i] <;> cases p a <;> 
    simp only [hold, Bool.toNat_false, Bool.toNat_true, Bool.false_eq_true, if_true, if_false] at hle ⊢ <;> omega

theorem Exclusive.stepBackground (h : s.Exclusive) (i : Nat) (ok : Bool) : (s.stepBackground config i ok).Exclusive := by
  rw [WebhookNotifier.stepBackground]
  split
  · exact h
  next call hi =>
    obtain ⟨hlt, rfl⟩ := List.getElem?_eq_some_iff.mp hi
    have haside : Aside s (s.send config ok s.background[i]).2 := send_aside ok
    have hheld : s.background[i].holds → s.notifMutex := by
      intro hholds
      have hle := List.boole_getElem_le_countP (p := Call.holds) hlt
      have hcount := h.count
      rw [if_pos hholds] at hle
      rw [holders] at hcount
      rw [← Bool.toNat_eq_one]
      have := Bool.toNat_le s.notifMutex
      omega
    have hsend : (s.send config ok s.background[i]).2.notifMutex.toNat + s.background[i].holds.toNat =
        s.notifMutex.toNat + (s.send config ok s.background[i]).1.holds.toNat :=
      send_holds hheld ok
    have hset := countP_set_add (p := Call.holds) (a := (s.send config ok s.background[i]).1) hlt
    have hcount := h.count
    constructor
    · simp only [holders, haside.subscriber, haside.retrier, haside.background] at hcount ⊢
      omega
    · rw [haside.subscriber]
      exact h.single

theorem Exclusive.step (h : s.Exclusive) (op : Op) : (step config op s).Exclusive := by
  cases op with
  | set | remove | publish | tick | stop => exact h.congr rfl rfl rfl rfl
  | restart => exact ⟨rfl, fun _ hcall => by cases hcall⟩
  | subscriber ok => exact h.stepSubscriber ok
  | startRetries taskIDs => exact h.startRetries taskIDs
  | retrier => exact h.stepRetrier
  | batchTick =>
      simp only [WebhookNotifier.step, batchTick]
      split
      · exact h.flushBatch
      · exact h
  | batchStop =>
      simp only [WebhookNotifier.step, batchStop]
      split
      · exact h.flushBatch.congr rfl rfl rfl rfl
      · exact h
  | background i ok => exact h.stepBackground i ok

theorem reach_exclusive {g : (notifier config).Condition} (hreach : (notifier config).Reach g ({} : WebhookNotifier) s) :
    s.Exclusive :=
  hreach.invariant (I := Exclusive) ⟨rfl, fun _ hcall => by cases hcall⟩ fun op _ h _ => h.step op

/-! ## 項目を巡る間 -/

/-- `processRetries` が `notifMutex` を持つ間、項目は増えも減りもしない。 -/
theorem Exclusive.keys_step (h : s.Exclusive) (hretrier : s.retrier ≠ .idle) {op : Op} (hop : op ≠ .restart) (id : String) :
    id ∈ (WebhookNotifier.step config op s).notifications ↔ id ∈ s.notifications := by
  have hheld : s.notifMutex = true ∧ s.subscriber.holds = false := by
    have hholds : s.retrier.holds = true := by
      cases hr : s.retrier with
      | idle => exact absurd hr hretrier
      | looking | fetching => rfl
    refine ⟨eq_true_of_ne_false fun hfree => ?_, eq_false_of_ne_true fun hsub => ?_⟩
    · rw [(h.free hfree).2.1] at hholds
      cases hholds
    · rw [(h.alone hsub).2.1] at hholds
      cases hholds
  cases op with
  | restart => exact absurd rfl hop
  | set | remove | publish | tick | stop | startRetries | retrier | batchTick | batchStop =>
      rw [(step_quiet config s rfl).notifications]
  | background i ok =>
      simp only [WebhookNotifier.step, WebhookNotifier.stepBackground]
      split
      · rfl
      · exact send_keys ok id
  | subscriber ok =>
      cases hsub : s.subscriber with
      | checking | deciding | sending => simp [hsub, Subscriber.holds] at hheld
      | waiting => simp [WebhookNotifier.step, WebhookNotifier.stepSubscriber, hsub, hheld.1]
      | idle =>
          simp only [WebhookNotifier.step, WebhookNotifier.stepSubscriber, hsub]
          split
          · rfl
          · split <;> rfl
      | fetching =>
          simp only [WebhookNotifier.step, WebhookNotifier.stepSubscriber, hsub]
          split <;> rfl

end WebhookNotifier

open WebhookNotifier

/-- どの順に動いても、`notifMutex` を持つ goroutine は高々一つであり、一回の `processRetries` が項目を巡る間、項目は増えも減りもしない。 -/
theorem retry_pass_keys {config : WebhookConfig} {s : WebhookNotifier}
    (hreach : (notifier config).Reach (fun _ _ => True) ({} : WebhookNotifier) s) :
    s.holders = s.notifMutex.toNat ∧ ∀ ops : List Op,
      (notifier config).AllMeet (fun op (s : WebhookNotifier) => s.retrier ≠ .idle ∧ op ≠ .restart) ops s →
        ∀ id, id ∈ WebhookNotifier.notifications ((notifier config).run ops s) ↔ id ∈ s.notifications := by
  have h : s.Exclusive := reach_exclusive hreach
  refine ⟨h.count, fun ops hpass id => ?_⟩
  clear hreach
  induction ops generalizing s with
  | nil => rfl
  | cons op ops ih => exact (ih (h.step op) hpass.2).trans (h.keys_step hpass.1.1 hpass.1.2 id)

/-- 失敗した通知を送り直す間に、別のタスクの記録が書かれる。 -/
def setDuringRetry : List Op × List Op :=
  ([.set "t" (some { id := "t", state := "STOPPED" }), .subscriber true, .subscriber true, .subscriber true, .subscriber true,
      .subscriber true, .subscriber false, .subscriber true, .subscriber true, .subscriber true,
      .tick 16000000000, .startRetries ["t"]],
    [.set "u" (some { id := "u", state := "STOPPED" }), .subscriber true, .subscriber true, .subscriber true, .retrier,
      .subscriber true, .retrier, .background 0 true])

theorem retry_pass_keys_set :
    let s : WebhookNotifier := (notifier {}).run setDuringRetry.1 ({} : WebhookNotifier)
    s.notifications.keys = ["t"] ∧ s.holders = s.notifMutex.toNat ∧
      ∀ id, id ∈ WebhookNotifier.notifications ((notifier {}).run setDuringRetry.2 s) ↔ id ∈ s.notifications := by
  have hreach : (notifier {}).Reach (fun _ _ => True) ({} : WebhookNotifier)
      ((notifier {}).run setDuringRetry.1 ({} : WebhookNotifier)) :=
    System.reach_run (System.allMeet_of_forall (fun _ _ => trivial) _ _)
  obtain ⟨hcount, hkeys⟩ := retry_pass_keys hreach
  refine ⟨by decide, hcount, hkeys setDuringRetry.2 ?_⟩
  refine ⟨⟨?_, ?_⟩, ⟨?_, ?_⟩, ⟨?_, ?_⟩, ⟨?_, ?_⟩, ⟨?_, ?_⟩, ⟨?_, ?_⟩, ⟨?_, ?_⟩, ⟨?_, ?_⟩, trivial⟩
  all_goals
    intro h
    cases h

end RtcEgress.Webhook
