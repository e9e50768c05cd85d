import RtcEgress.Webhook.Outbox

/-!
# 終わりの通知を一度だけ送ること

終わった状態の通知は、一度だけ受け取られるはずである。送ったことを示すキーは、購読の経路だけが、送る前の別の時に確かめ、
受け取られた後の別の時に書かれる。
-/

namespace RtcEgress.Webhook

open RtcEgress.Lib
open RtcEgress.Queue (second)

/-- 終わった状態の組ごとに、2xx の応答を得た要求は一つ以下である。 -/
def DeliveredOnce (config : WebhookConfig) (g : (notifier config).Condition) : Prop :=
  ∀ s : WebhookNotifier, (notifier config).Reach g ({} : WebhookNotifier) s →
    ∀ taskID state, isTerminalState state = true →
      (s.requests.countP fun r => r.2 && r.1.any fun p => decide (p.key = (taskID, state))) ≤ 1

/-! ## 成り立たない列 -/

/-- 最初の送信に失敗し、遅い再送の間に、次の再送が始まる。 -/
def slowRetry : List Op :=
  [.set "t" (some { id := "t", state := "STOPPED" }), .subscriber true, .subscriber true, .subscriber true, .subscriber true,
    .subscriber true, .subscriber false, .subscriber true, .subscriber true, .subscriber true,
    .tick (16 * second), .startRetries ["t"], .retrier, .retrier, .retrier,
    .tick (15 * second), .startRetries ["t"], .retrier, .retrier, .retrier, .background 0 true, .background 1 true]

theorem not_deliveredOnce : ¬∀ config, DeliveredOnce config fun _ _ => True := by
  intro h
  have hmeet : (notifier {}).AllMeet (fun _ _ => True) slowRetry ({} : WebhookNotifier) :=
    System.allMeet_of_forall (fun _ _ => trivial) _ _
  have hone := h {} _ (System.reach_run hmeet) "t" "STOPPED" rfl
  have htwo : (((notifier {}).run slowRetry ({} : WebhookNotifier) : WebhookNotifier).requests.countP
      fun r => r.2 && r.1.any fun p => decide (p.key = ("t", "STOPPED"))) = 2 := by decide
  rw [htwo] at hone
  cases hone with
  | step hone => cases hone

/-! ## 成り立つ条件 -/

/-- 終わった状態の通知を作るのは、その組の送信がなく、キーもないときに限る。キーは失われず、受け取られた後でキーを書く前に
プロセスは終わらない。 -/
def careful (config : WebhookConfig) : (notifier config).Condition
  | .subscriber _, s => ∀ task, s.subscriber = .deciding task →
      ((s.notifications.lookup task.id).getD {}).inBackoff s.clock = false →
        isTerminalState task.state = true → s.outbox.Fresh WebhookPayload.key (task.id, task.state)
  | .retrier, s => ∀ taskID now taskIDs task, s.retrier = .fetching taskID now taskIDs →
      s.getTaskFromRedis taskID = some task →
        isTerminalState task.state = true → s.outbox.Fresh WebhookPayload.key (task.id, task.state)
  | .tick d, s => ∀ taskID state, isTerminalState state = true → s.hasDelivered taskID state = true →
      ({ s with clock := s.clock + d } : WebhookNotifier).hasDelivered taskID state = true
  | .restart, s => ∀ call ∈ s.calls, ∀ p ∈ call.unmarked, isTerminalState p.state = false
  | _, _ => True

namespace WebhookNotifier

/-- 鍵の状態は終わっている。 -/
def Terminal (key : String × String) : Prop := isTerminalState key.2 = true

variable {config : WebhookConfig} {s : WebhookNotifier} {op : Op} {e : Outbox.Event WebhookPayload (String × String)}

/-- 条件を満たす操作は、送信箱の条件を満たす。 -/
theorem Cause.careful (h : Cause config.withDefaults s op e) (hg : careful config op s) :
    Outbox.Careful WebhookPayload.key Terminal e s.outbox := by
  cases h with
  | event hsub hbackoff => exact hg _ hsub hbackoff
  | retry hretrier htask => exact hg _ _ _ _ hretrier htask
  | sends hsends =>
      cases e with
      | answer batch ok => trivial
      | mark p => trivial
      | skip p => exact fun hterminal => absurd hterminal (ne_true_of_eq_false hsends)
      | put p => cases hsends
      | expire m => cases hsends
      | crash => cases hsends
  | tick d => exact fun key hterminal => hg key.1 key.2 hterminal
  | restart =>
      intro p hp hterminal
      obtain ⟨call, hcall, hin⟩ := List.mem_flatMap.mp (Multiset.mem_coe.mp hp)
      exact absurd hterminal (ne_true_of_eq_false (hg call hcall p hin))

theorem fresh_outbox {key : String × String} (hpending : ∀ p ∈ s.batchQueue ++ s.calls.flatMap Call.pending, p.key ≠ key)
    (hunmarked : ∀ p ∈ s.calls.flatMap Call.unmarked, p.key ≠ key) (hmarked : s.hasDelivered key.1 key.2 = false) :
    s.outbox.Fresh WebhookPayload.key key :=
  ⟨hpending, hunmarked, by simp [outbox, hmarked]⟩

theorem once_init (key : String × String) : ({} : WebhookNotifier).outbox.Once WebhookPayload.key key :=
  ⟨Nat.zero_le 1, fun h => absurd h (Nat.lt_irrefl 0)⟩

theorem once_step {key : String × String} (hkey : Terminal key) (hknown : s.Known)
    (h : s.outbox.Once WebhookPayload.key key) (hg : careful config op s) :
    (step config.withDefaults op s).outbox.Once WebhookPayload.key key := by
  cases step_refines hknown op with
  | inl hsame => rwa [hsame]
  | inr hmove =>
      obtain ⟨e, hcause, hmove⟩ := hmove
      exact h.move hmove (hcause.careful hg) hkey

end WebhookNotifier

theorem deliveredOnce_of_careful (config : WebhookConfig) : DeliveredOnce config (careful config) := by
  intro s hreach taskID state hterminal
  have hinv : s.Known ∧ s.outbox.Once WebhookPayload.key (taskID, state) := by
    refine hreach.invariant (I := fun s : WebhookNotifier => s.Known ∧ s.outbox.Once WebhookPayload.key (taskID, state))
      ⟨WebhookNotifier.known_init, WebhookNotifier.once_init _⟩ ?_
    intro op s h hg
    exact ⟨h.1.step op, WebhookNotifier.once_step hterminal h.1 h.2 hg⟩
  have honce := hinv.2.once
  rw [Outbox.answered] at honce
  exact Nat.le_of_add_left_le honce

/-- 最初の送信に失敗し、次の再送で受け取られて、キーが書かれる。 -/
def retriedOnce : List Op :=
  [.set "t" (some { id := "t", state := "STOPPED" }), .subscriber true, .subscriber true, .subscriber true, .subscriber true,
    .subscriber true, .subscriber false, .subscriber true, .subscriber true, .subscriber true,
    .tick (16 * second), .startRetries ["t"], .retrier, .retrier, .retrier,
    .background 0 true, .background 0 true, .background 0 true]

theorem retriedOnce_delivered : ∃ s : WebhookNotifier, (notifier {}).Reach (careful {}) ({} : WebhookNotifier) s ∧
    s.hasDelivered "t" "STOPPED" = true ∧
      (s.requests.countP fun r => r.2 && r.1.any fun p => decide (p.key = ("t", "STOPPED"))) ≤ 1 := by
  have hmeet : (notifier {}).AllMeet (careful {}) retriedOnce ({} : WebhookNotifier) := by
    refine ⟨trivial, fun _ h => (by cases h), fun _ h => (by cases h), fun _ h => (by cases h), fun _ h => (by cases h), ?_,
      fun _ h => (by cases h), fun _ h => (by cases h), fun _ h => (by cases h), fun _ h => (by cases h),
      fun _ _ _ h => (by cases h),
      trivial, fun _ _ _ _ h => (by cases h), ?_, fun _ _ _ _ h => (by cases h), trivial, trivial, trivial, trivial⟩
    · -- 通知を作る。
      intro task hsub _ _
      cases hsub
      exact WebhookNotifier.fresh_outbox (by decide) (by decide) (by decide)
    · -- 再送のために、記録を読み直す。
      intro taskID now taskIDs task hretrier htask _
      cases hretrier
      cases htask
      exact WebhookNotifier.fresh_outbox (by decide) (by decide) (by decide)
  have hreach := System.reach_run hmeet
  exact ⟨_, hreach, by decide, deliveredOnce_of_careful {} _ hreach "t" "STOPPED" rfl⟩

end RtcEgress.Webhook
