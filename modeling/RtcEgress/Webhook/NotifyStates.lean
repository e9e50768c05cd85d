import RtcEgress.Webhook.Outbox

/-!
# 指定した状態だけを送ること

通知を送るのは、`NotifyStates` の状態に限るはずである。届いた通知の記録は確かめるが、再送のときに読み直した記録は確かめない。
-/

namespace RtcEgress.Webhook

open RtcEgress.Lib
open RtcEgress.Queue (second)

/-- 行った要求と、行っている要求の通知は、どれも `NotifyStates` の状態にある。 -/
def OnlyNotified (config : WebhookConfig) (g : (notifier config).Condition) : Prop :=
  ∀ s : WebhookNotifier, (notifier config).Reach g ({} : WebhookNotifier) s →
    ∀ p : WebhookPayload, (∃ r ∈ s.requests, p ∈ r.1) ∨ (∃ call ∈ s.calls, p ∈ call.pending) →
      p.state ∈ config.withDefaults.notifyStates

/-! ## 成り立たない列 -/

/-- 開始の通知に失敗し、再送の前にタスクが止まり始める。 -/
def stoppingBeforeRetry : List Op :=
  [.set "t" (some { id := "t", state := "PROCESSING" }), .subscriber true, .subscriber true, .subscriber true,
    .subscriber true, .subscriber true, .subscriber false, .subscriber true, .subscriber true, .subscriber true,
    .set "t" (some { id := "t", state := "STOPPING" }), .tick (16 * second),
    .startRetries ["t"], .retrier, .retrier, .retrier, .background 0 true]

theorem not_onlyNotified : ¬∀ config, OnlyNotified config fun _ _ => True := by
  intro h
  have hmeet : (notifier {}).AllMeet (fun _ _ => True) stoppingBeforeRetry ({} : WebhookNotifier) :=
    System.allMeet_of_forall (fun _ _ => trivial) _ _
  have hall := h {} _ (System.reach_run hmeet)
  have hsent : ((notifier {}).run stoppingBeforeRetry ({} : WebhookNotifier) : WebhookNotifier).requests.any
      (fun r => r.1.any (·.state == "STOPPING")) = true := by decide
  obtain ⟨r, hr, hany⟩ := List.any_eq_true.mp hsent
  obtain ⟨p, hp, hstate⟩ := List.any_eq_true.mp hany
  have hmem := hall p (.inl ⟨r, hr, hp⟩)
  rw [eq_of_beq hstate] at hmem
  exact absurd hmem (by decide)

/-! ## 成り立つ条件 -/

/-- 再送のときに読み直した記録は、`NotifyStates` の状態にある。 -/
def retriesNotified (config : WebhookConfig) : (notifier config).Condition
  | .retrier, s => ∀ taskID now taskIDs task, s.retrier = .fetching taskID now taskIDs →
      s.getTaskFromRedis taskID = some task → task.state ∈ config.withDefaults.notifyStates
  | _, _ => True

theorem shouldNotifyState_iff {config : WebhookConfig} {state : String} :
    shouldNotifyState config state = true ↔ state ∈ config.notifyStates := by
  rw [shouldNotifyState, List.any_eq_true]
  constructor
  · intro h
    obtain ⟨notifyState, hmem, heq⟩ := h
    rwa [eq_of_beq heq]
  · exact fun h => ⟨state, h, beq_self_eq_true state⟩

/-- 確かめたタスク。 -/
def Subscriber.task : Subscriber → Option Task
  | .waiting task | .checking task | .deciding task => some task
  | _ => none

namespace WebhookNotifier

variable {config : WebhookConfig} {s : WebhookNotifier}

/-- 購読が扱うタスクは確かめてある。 -/
def Filtered (config : WebhookConfig) (s : WebhookNotifier) : Prop :=
  ∀ task, s.subscriber.task = some task → task.state ∈ config.notifyStates

theorem filtered_init : ({} : WebhookNotifier).Filtered config := fun _ htask => nomatch htask

theorem Filtered.unlockSubscriber (s : WebhookNotifier) : s.unlockSubscriber.Filtered config := fun _ hid => nomatch hid

theorem Filtered.stepSubscriber (h : s.Filtered config) (ok : Bool) : (s.stepSubscriber config ok).Filtered config := by
  rw [Filtered] at h
  have hstep := subscribed config ok s
  generalize s.stepSubscriber config ok = s' at hstep ⊢
  cases hstep with
  | same => exact h
  | received _ hnext =>
      intro task htask
      rcases hnext with rfl | ⟨taskID, rfl⟩ <;> cases htask
  | fetched _ hnext =>
      intro task htask
      rcases hnext with rfl | ⟨task', rfl, hnotify⟩
      · cases htask
      · cases htask
        exact shouldNotifyState_iff.mp hnotify
  | locked hsub =>
      rw [hsub] at h
      exact h
  | passed hsub =>
      rw [hsub] at h
      exact h
  | unlocked => exact .unlockSubscriber s
  | batched => exact .unlockSubscriber _
  | requested => exact fun _ htask => nomatch htask
  | sent => exact fun _ htask => nomatch htask

/-- 他の操作は、購読の段階を変えないか、初めに戻す。 -/
theorem step_subscriber (op : Op) : (∃ ok, op = .subscriber ok) ∨
    (step config op s).subscriber = s.subscriber ∨ (step config op s).subscriber = .idle := by
  cases op with
  | restart => exact .inr (.inr rfl)
  | subscriber ok => exact .inl ⟨ok, rfl⟩
  | background i ok =>
      refine .inr (.inl ?_)
      simp only [step, stepBackground]
      split
      · rfl
      · exact (send_aside ok).subscriber
  | set | remove | publish | tick | stop | startRetries | retrier | batchTick | batchStop =>
      exact .inr (.inl (step_quiet config s rfl).subscriber)

theorem Filtered.step (h : s.Filtered config) (op : Op) : (step config op s).Filtered config := by
  rcases @step_subscriber config s op with ⟨ok, rfl⟩ | hsame | hidle
  · exact h.stepSubscriber ok
  · rw [Filtered, hsame]
    exact h
  · rw [Filtered, hidle]
    exact fun _ htask => nomatch htask

/-- 条件を満たす操作の作る通知は、`NotifyStates` の状態にある。 -/
theorem Cause.notified {op : Op} {p : WebhookPayload} (h : Cause config.withDefaults s op (.put p))
    (hfiltered : s.Filtered config.withDefaults) (hg : retriesNotified config op s) :
    p.state ∈ config.withDefaults.notifyStates := by
  cases h with
  | event hsub hbackoff => exact hfiltered _ (by rw [hsub]; rfl)
  | retry hretrier htask => exact hg _ _ _ _ hretrier htask
  | sends hsends => cases hsends

theorem only_init {P : WebhookPayload → Prop} : ({} : WebhookNotifier).outbox.Only P :=
  ⟨fun p hp => absurd hp (Multiset.notMem_zero p), fun _ hr => absurd hr List.not_mem_nil⟩

theorem only_step {op : Op} (hknown : s.Known) (hfiltered : s.Filtered config.withDefaults)
    (h : s.outbox.Only fun p => p.state ∈ config.withDefaults.notifyStates) (hg : retriesNotified config op s) :
    (WebhookNotifier.step config.withDefaults op s).outbox.Only fun p => p.state ∈ config.withDefaults.notifyStates := by
  cases step_refines hknown op with
  | inl hsame => rwa [hsame]
  | inr hmove =>
      obtain ⟨e, hcause, hmove⟩ := hmove
      exact h.move hmove fun p hp => (hp ▸ hcause).notified hfiltered hg

end WebhookNotifier

theorem onlyNotified_of_retriesNotified (config : WebhookConfig) : OnlyNotified config (retriesNotified config) := by
  intro s hreach p hp
  have hinv : s.Known ∧ s.Filtered config.withDefaults ∧
      s.outbox.Only fun p => p.state ∈ config.withDefaults.notifyStates := by
    refine hreach.invariant (I := fun s : WebhookNotifier => s.Known ∧ s.Filtered config.withDefaults ∧
      s.outbox.Only fun p => p.state ∈ config.withDefaults.notifyStates)
      ⟨WebhookNotifier.known_init, WebhookNotifier.filtered_init, WebhookNotifier.only_init⟩ ?_
    intro op s h hg
    exact ⟨h.1.step op, h.2.1.step op, WebhookNotifier.only_step h.1 h.2.1 h.2.2 hg⟩
  cases hp with
  | inl hsent =>
      obtain ⟨r, hr, hmem⟩ := hsent
      exact hinv.2.2.requests r hr p hmem
  | inr hsending =>
      obtain ⟨call, hcall, hmem⟩ := hsending
      exact hinv.2.2.pending p (Multiset.mem_coe.mpr
        (List.mem_append_right _ (List.mem_flatMap.mpr ⟨call, hcall, hmem⟩)))

/-- 開始の通知に失敗し、再送の前にタスクが止まる。 -/
def stoppedBeforeRetry : List Op :=
  [.set "t" (some { id := "t", state := "PROCESSING" }), .subscriber true, .subscriber true, .subscriber true,
    .subscriber true, .subscriber true, .subscriber false, .subscriber true, .subscriber true, .subscriber true,
    .set "t" (some { id := "t", state := "STOPPED" }), .tick (16 * second),
    .startRetries ["t"], .retrier, .retrier, .retrier, .background 0 true]

theorem stoppedBeforeRetry_notified : ∃ s : WebhookNotifier, (notifier {}).Reach (retriesNotified {}) ({} : WebhookNotifier) s ∧
    s.requests.length = 2 ∧ ∀ r ∈ s.requests, ∀ p ∈ r.1, p.state ∈ ({} : WebhookConfig).withDefaults.notifyStates := by
  have hmeet : (notifier {}).AllMeet (retriesNotified {}) stoppedBeforeRetry ({} : WebhookNotifier) := by
    refine ⟨trivial, trivial, trivial, trivial, trivial, trivial, trivial, trivial, trivial, trivial, trivial, trivial, trivial,
      fun _ _ _ _ h => (by cases h), ?_, fun _ _ _ _ h => (by cases h), trivial, trivial⟩
    intro taskID now taskIDs task hretrier htask
    cases hretrier
    cases htask
    decide
  have hreach := System.reach_run hmeet
  exact ⟨_, hreach, by decide, fun r hr p hp => onlyNotified_of_retriesNotified {} _ hreach p (.inl ⟨r, hr, hp⟩)⟩

end RtcEgress.Webhook
