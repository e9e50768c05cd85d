import RtcEgress.Webhook.Backoff

/-!
# 再送の番が来ること

再送の数は `MaxRetries` を超えず、次の再送の時刻は、今から `MaxRetryInterval` より先にはならない。そこで、失敗した通知は、
その後に始まる `processRetries` が必ず拾う。
-/

namespace RtcEgress.Webhook

open RtcEgress.Lib

namespace WebhookNotifier

variable {config : WebhookConfig} {s : WebhookNotifier} {n : NotificationState}

/-- 時刻 `clock` までに、再送を待つ項目が満たすこと。 -/
def Waits (config : WebhookConfig) (clock : Nat) (n : NotificationState) : Prop :=
  0 < n.retryCount → (n.retryCount : Int) ≤ config.maxRetries ∧
    ∀ t ∈ n.nextRetryTime, t ≤ (clock : Int) + config.maxRetryInterval

theorem Waits.mono {clock clock' : Nat} (h : Waits config clock n) (hle : clock ≤ clock') : Waits config clock' n := by
  intro hretry
  refine ⟨(h hretry).1, fun t ht => ?_⟩
  have := (h hretry).2 t ht
  omega

theorem Waits.settle {clock : Nat} (state : String) (ok : Bool) : Waits config clock (n.settle config clock state ok) := by
  intro hretry
  unfold NotificationState.settle at hretry ⊢
  split
  next hok =>
    rw [if_pos hok] at hretry
    exact absurd hretry (Nat.lt_irrefl 0)
  next hok =>
    split
    next hle =>
      refine ⟨hle, fun t ht => ?_⟩
      cases ht
      have := calculateBackoff_le_max config (n.retryCount + 1)
      omega
    next hle =>
      rw [if_neg hok, if_neg hle] at hretry
      exact absurd hretry (Nat.lt_irrefl 0)

def AllWait (config : WebhookConfig) (s : WebhookNotifier) : Prop :=
  ∀ taskID n, s.notifications.lookup taskID = some n → Waits config s.clock n

theorem AllWait.step (h : s.AllWait config) (op : Op) : (step config op s).AllWait config := by
  intro taskID n hn
  have hclock : s.clock ≤ (WebhookNotifier.step config op s).clock := clock_le_step op
  refine Waits.mono ?_ hclock
  cases step_updated op hn with
  | initial => exact fun hretry => absurd hretry (Nat.lt_irrefl 0)
  | kept hold => exact h taskID n hold
  | settled state ok hold => exact .settle state ok

theorem reach_allWait {g : (notifier config).Condition} (hreach : (notifier config).Reach g ({} : WebhookNotifier) s) :
    s.AllWait config.withDefaults :=
  hreach.invariant (I := AllWait config.withDefaults) (fun _ _ hn => by cases hn) fun op _ h _ => h.step op

theorem Waits.due {clock now : Nat} (h : Waits config clock n) (hretry : 0 < n.retryCount)
    (hnow : (clock : Int) + config.maxRetryInterval < now) : n.due config now = true := by
  obtain ⟨hle, htime⟩ := h hretry
  rw [NotificationState.due, decide_eq_true hretry, decide_eq_true hle]
  cases hnext : n.nextRetryTime with
  | none => rfl
  | some t =>
      have hlt := lt_of_le_of_lt (htime t hnext) hnow
      simpa using hlt

end WebhookNotifier

/-- 再送を待つ項目の数は `MaxRetries` を超えない。その後に項目が変わらなければ、`MaxRetryInterval` より後に始まった
`processRetries` は、順が来たときに必ず送り直す。 -/
theorem retry_taken {config : WebhookConfig} {s : WebhookNotifier} {taskID : String} {n : NotificationState}
    (hreach : (notifier config).Reach (fun _ _ => True) ({} : WebhookNotifier) s)
    (hn : s.notifications.lookup taskID = some n) (hretry : 0 < n.retryCount) :
    (n.retryCount : Int) ≤ config.withDefaults.maxRetries ∧
      ∀ (s' : WebhookNotifier) (now : Nat) (taskIDs : List String), s'.notifications.lookup taskID = some n →
        s'.retrier = .looking now (taskID :: taskIDs) →
          (s.clock : Int) + config.withDefaults.maxRetryInterval < now →
            (s'.stepRetrier config.withDefaults).retrier = .fetching taskID now taskIDs := by
  have hwaits : WebhookNotifier.Waits config.withDefaults s.clock n := WebhookNotifier.reach_allWait hreach taskID n hn
  refine ⟨(hwaits hretry).1, fun s' now taskIDs hn' hpass hnow => ?_⟩
  have hdue : n.due config.withDefaults now = true := hwaits.due hretry hnow
  simp [WebhookNotifier.stepRetrier, hpass, hn', hdue]

/-- 通知の送信に失敗する。 -/
def failOnce : List Op :=
  [.set "t" (some { id := "t", state := "STOPPED" }), .subscriber true, .subscriber true, .subscriber true, .subscriber true,
    .subscriber true, .subscriber false, .subscriber true]

theorem retry_taken_failed : ∃ (s : WebhookNotifier) (n : NotificationState),
    s.notifications.lookup "t" = some n ∧ n.retryCount = 1 ∧ (n.retryCount : Int) ≤ ({} : WebhookConfig).withDefaults.maxRetries ∧
      ∀ (s' : WebhookNotifier) (now : Nat) (taskIDs : List String), s'.notifications.lookup "t" = some n →
        s'.retrier = .looking now ("t" :: taskIDs) →
          (s.clock : Int) + ({} : WebhookConfig).withDefaults.maxRetryInterval < now →
            (s'.stepRetrier ({} : WebhookConfig).withDefaults).retrier = .fetching "t" now taskIDs := by
  have hcount : (((notifier {}).run failOnce ({} : WebhookNotifier) : WebhookNotifier).notifications.lookup "t").map
      NotificationState.retryCount = some 1 := by decide
  obtain ⟨n, hn, hone⟩ := Option.map_eq_some_iff.mp hcount
  exact ⟨_, n, hn, hone,
    retry_taken (System.reach_run (System.allMeet_of_forall (fun _ _ => trivial) _ _)) hn (by rw [hone]; exact Nat.one_pos)⟩

end RtcEgress.Webhook
