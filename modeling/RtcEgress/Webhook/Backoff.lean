import RtcEgress.Lib.Int64
import RtcEgress.Webhook.Outbox

/-!
# 再送の待ち時間

待ち時間は失敗のたびに倍になり、上限で止まるはずである。積が 64 ビットを超えると、負や零になった値が、上限との比較を通り抜ける。
-/

namespace RtcEgress.Webhook

open RtcEgress.Lib

/-- 間隔は正で、上限を超えない。`time.Duration` は 64 ビットである。 -/
structure WebhookConfig.Intervals (config : WebhookConfig) : Prop where
  base_pos : 0 < config.baseRetryInterval
  base_le_max : config.baseRetryInterval ≤ config.maxRetryInterval
  max_lt : config.maxRetryInterval < 2 ^ 63

/-- 最後の再送の前の積も、64 ビットに収まる。 -/
def WebhookConfig.Fits (config : WebhookConfig) : Prop :=
  1 ≤ config.maxRetries → config.baseRetryInterval * 2 ^ (config.maxRetries - 1).toNat < 2 ^ 63

instance (config : WebhookConfig) : Decidable config.Fits := inferInstanceAs (Decidable (_ → _))

namespace WebhookNotifier

/-- 操作が進める送信。 -/
def call (s : WebhookNotifier) : Op → Option Call
  | .subscriber _ =>
      match s.subscriber with
      | .sending call => some call
      | _ => none
  | .background i _ => s.background[i]?
  | _ => none

/-- `sendNotification` か `sendBatchNotification` が、項目 `n` に失敗を書く。 -/
def Fails (s : WebhookNotifier) (op : Op) (taskID : String) (n : NotificationState) : Prop :=
  ∃ entry payload payloads, s.call op = some (.settling entry (payload :: payloads) false) ∧
    entry.getD payload.taskID = taskID ∧ s.notifications.lookup taskID = some n

/-- 時刻 `now` に始まった `processRetries` が、タスクを送り直すことにする。 -/
def Retries (config : WebhookConfig) (s : WebhookNotifier) (taskID : String) (now : Nat) : Prop :=
  ∃ taskIDs, s.retrier = .looking now (taskID :: taskIDs) ∧ (s.stepRetrier config).retrier = .fetching taskID now taskIDs

end WebhookNotifier

/-- 待ち時間についての性質。`processRetries` は `BaseRetryInterval` ごとに動く。 -/
structure BacksOff (config : WebhookConfig) : Prop where
  pos : ∀ k : Nat, 1 ≤ k → (k : Int) ≤ config.withDefaults.maxRetries → 0 < calculateBackoff config.withDefaults k
  le_max : ∀ k : Nat, 1 ≤ k → (k : Int) ≤ config.withDefaults.maxRetries →
    calculateBackoff config.withDefaults k ≤ config.withDefaults.maxRetryInterval
  mono : ∀ j k : Nat, 1 ≤ j → j ≤ k → (k : Int) ≤ config.withDefaults.maxRetries →
    calculateBackoff config.withDefaults j ≤ calculateBackoff config.withDefaults k
  /-- 失敗のときに定める次の再送の時刻は、その時より後である。 -/
  future : ∀ s : WebhookNotifier, (notifier config).Reach (fun _ _ => True) ({} : WebhookNotifier) s →
    ∀ op taskID n, s.Fails op taskID n → (n.retryCount + 1 : Int) ≤ config.withDefaults.maxRetries →
      ∃ n' t, (WebhookNotifier.step config.withDefaults op s).notifications.lookup taskID = some n' ∧ n'.nextRetryTime = some t ∧
        (s.clock : Int) < t
  /-- 失敗から一回分の間隔の内に動く `processRetries` は、そのタスクを送り直さない。 -/
  skips : ∀ s : WebhookNotifier, (notifier config).Reach (fun _ _ => True) ({} : WebhookNotifier) s →
    ∀ op taskID n, s.Fails op taskID n →
      ∀ s' : WebhookNotifier, (notifier config).Reach (fun _ _ => True) (WebhookNotifier.step config.withDefaults op s) s' →
        ∀ now : Nat, s'.Retries config.withDefaults taskID now → s.clock + config.withDefaults.baseRetryInterval < now

/-! ## 待ち時間 -/

section Backoff

variable {config : WebhookConfig}

theorem calculateBackoff_eq (config : WebhookConfig) (k : Nat) :
    calculateBackoff config k = min (toInt64 (config.baseRetryInterval * 2 ^ (k - 1))) config.maxRetryInterval := by
  change (if config.maxRetryInterval < toInt64 (config.baseRetryInterval * 2 ^ (k - 1)) then config.maxRetryInterval
    else toInt64 (config.baseRetryInterval * 2 ^ (k - 1))) = _
  split
  next h => exact (min_eq_right (le_of_lt h)).symm
  next h => exact (min_eq_left (not_lt.mp h)).symm

theorem calculateBackoff_le_max (config : WebhookConfig) (k : Nat) :
    calculateBackoff config k ≤ config.maxRetryInterval := by
  rw [calculateBackoff_eq]
  exact min_le_right _ _

theorem calculateBackoff_pos_iff (h : config.Intervals) (k : Nat) :
    0 < calculateBackoff config k ↔ 0 < toInt64 (config.baseRetryInterval * 2 ^ (k - 1)) := by
  rw [calculateBackoff_eq, lt_min_iff]
  exact and_iff_left (lt_of_lt_of_le h.base_pos h.base_le_max)

/-- 積が収まる設定では、正しい積と上限の小さい方である。 -/
theorem calculateBackoff_of_fits (h : config.Intervals) (hfits : config.Fits) {k : Nat} (hk : 1 ≤ k)
    (hmax : (k : Int) ≤ config.maxRetries) :
    calculateBackoff config k = min (config.baseRetryInterval * 2 ^ (k - 1)) config.maxRetryInterval := by
  have hretries : 1 ≤ config.maxRetries := by omega
  have hle : config.baseRetryInterval * 2 ^ (k - 1) ≤ config.baseRetryInterval * 2 ^ (config.maxRetries - 1).toNat :=
    mul_two_pow_le (le_of_lt h.base_pos) (by omega)
  have hlow : config.baseRetryInterval ≤ config.baseRetryInterval * 2 ^ (k - 1) := le_mul_two_pow (le_of_lt h.base_pos) _
  have hbase := h.base_pos
  rw [calculateBackoff_eq, toInt64_of_range ⟨by omega, lt_of_le_of_lt hle (hfits hretries)⟩]

theorem base_le_calculateBackoff (h : config.Intervals) (hfits : config.Fits) {k : Nat} (hk : 1 ≤ k)
    (hmax : (k : Int) ≤ config.maxRetries) : config.baseRetryInterval ≤ calculateBackoff config k := by
  rw [calculateBackoff_of_fits h hfits hk hmax]
  exact le_min (le_mul_two_pow (le_of_lt h.base_pos) _) h.base_le_max

theorem calculateBackoff_mono (h : config.Intervals) (hfits : config.Fits) {j k : Nat} (hj : 1 ≤ j) (hjk : j ≤ k)
    (hmax : (k : Int) ≤ config.maxRetries) : calculateBackoff config j ≤ calculateBackoff config k := by
  rw [calculateBackoff_of_fits h hfits hj (by omega), calculateBackoff_of_fits h hfits (hj.trans hjk) hmax]
  exact min_le_min_right _ (mul_two_pow_le (le_of_lt h.base_pos) (by omega))

/-- どの待ち時間も正ならば、積はあふれない。 -/
theorem fits_of_pos (h : config.Intervals)
    (hpos : ∀ k : Nat, 1 ≤ k → (k : Int) ≤ config.maxRetries → 0 < calculateBackoff config k) : config.Fits := by
  intro hretries
  refine (pos_toInt64_two_pow_iff ⟨h.base_pos, lt_of_le_of_lt h.base_le_max h.max_lt⟩ _).mp fun n hn => ?_
  have hstep := hpos (n + 1) (by omega) (by omega)
  rwa [calculateBackoff_pos_iff h, Nat.add_sub_cancel] at hstep

theorem WebhookConfig.Intervals.withDefaults (h : config.Intervals) : config.withDefaults.Intervals := by
  have hbase : config.withDefaults.baseRetryInterval = config.baseRetryInterval := if_neg (ne_of_gt h.base_pos)
  have hmax : config.withDefaults.maxRetryInterval = config.maxRetryInterval :=
    if_neg (ne_of_gt (lt_of_lt_of_le h.base_pos h.base_le_max))
  refine ⟨?_, ?_, ?_⟩
  · rw [hbase]
    exact h.base_pos
  · rw [hbase, hmax]
    exact h.base_le_max
  · rw [hmax]
    exact h.max_lt

end Backoff

/-! ## 項目の変わり方 -/

namespace WebhookNotifier

variable {config : WebhookConfig} {s : WebhookNotifier} {op : Op} {taskID : String} {n : NotificationState}

/-- 一つの操作の後の項目。 -/
inductive Updated (config : WebhookConfig) (s : WebhookNotifier) (taskID : String) : NotificationState → Prop
  | initial : Updated config s taskID {}
  | kept {n : NotificationState} (h : s.notifications.lookup taskID = some n) : Updated config s taskID n
  /-- 送信の結果を書く。 -/
  | settled {n : NotificationState} (state : String) (ok : Bool) (h : s.notifications.lookup taskID = some n) :
      Updated config s taskID (n.settle config s.clock state ok)

theorem send_updated {call : Call} (ok : Bool) (h : (s.send config ok call).2.notifications.lookup taskID = some n) :
    Updated config s taskID n := by
  cases call with
  | requesting entry payloads => exact .kept h
  | waiting payloads success =>
      rw [send] at h
      split at h <;> exact .kept h
  | settling entry payloads success =>
      cases payloads with
      | nil => cases entry <;> exact .kept h
      | cons payload payloads =>
          simp only [send] at h
          split at h
          · exact .kept h
          next old hold =>
            rw [lookup_insert_ite] at h
            split at h
            next heq =>
              cases h
              exact .settled _ _ (heq ▸ hold)
            · exact .kept h
  | marking entry payload payloads => exact .kept h
  | done => exact .kept h

theorem stepSubscriber_updated (ok : Bool) (h : (s.stepSubscriber config ok).notifications.lookup taskID = some n) :
    Updated config s taskID n := by
  rw [stepSubscriber] at h
  split at h
  · split at h
    · exact .kept h
    · split at h <;> exact .kept h
  · split at h <;> exact .kept h
  next task _ =>
    split at h
    · exact .kept h
    · dsimp only at h
      rw [lookup_insert_ite] at h
      split at h
      next heq =>
        -- 無い項目は、初めの値で作られる。
        cases hold : s.notifications.lookup task.id with
        | none =>
            rw [hold] at h
            cases h
            exact .initial
        | some old =>
            rw [hold] at h
            cases h
            exact .kept (heq ▸ hold)
      · exact .kept h
  · split at h <;> exact .kept h
  · split at h
    · exact .kept h
    · dsimp only at h
      split at h
      · exact .kept ((addToBatch_quiet config s _).notifications ▸ h)
      · exact .kept h
  · exact .kept h
  next call _ _ => exact send_updated ok h

theorem step_updated (op : Op) (h : (step config op s).notifications.lookup taskID = some n) :
    Updated config s taskID n := by
  cases op with
  | restart => cases h
  | subscriber ok => exact stepSubscriber_updated ok h
  | background i ok =>
      simp only [step, stepBackground] at h
      split at h
      · exact .kept h
      · exact send_updated ok h
  | set | remove | publish | tick | stop | startRetries | retrier | batchTick | batchStop =>
      rw [(step_quiet config s rfl).notifications] at h
      exact .kept h

/-! ### 時計は戻らない -/

theorem send_clock {call : Call} (ok : Bool) : (s.send config ok call).2.clock = s.clock := by
  cases call with
  | waiting payloads success =>
      rw [send]
      split <;> rfl
  | settling entry payloads success =>
      cases payloads with
      | nil => cases entry <;> rfl
      | cons payload payloads =>
          simp only [send]
          split <;> rfl
  | requesting | marking | done => rfl

theorem stepSubscriber_clock (ok : Bool) : s.clock ≤ (s.stepSubscriber config ok).clock := by
  have hstep := subscribed config ok s
  generalize s.stepSubscriber config ok = s' at hstep ⊢
  cases hstep with
  | batched => exact (addToBatch_quiet config s _).clock
  | sent => exact Nat.le_of_eq (send_clock ok).symm
  | same | received | fetched | locked | passed | unlocked | requested => exact Nat.le_refl _

theorem clock_le_step (op : Op) : s.clock ≤ (step config op s).clock := by
  cases op with
  | restart => exact Nat.le_refl _
  | subscriber ok => exact stepSubscriber_clock ok
  | background i ok =>
      simp only [step, stepBackground]
      split
      · exact Nat.le_refl _
      · exact Nat.le_of_eq (send_clock ok).symm
  | set | remove | publish | tick | stop | startRetries | retrier | batchTick | batchStop =>
      exact (step_quiet config s rfl).clock

/-! ## 失敗の後の待ち -/

/-- 一つの送信を進める操作は、項目をその送信のとおりに変える。 -/
theorem step_call (config : WebhookConfig) {call : Call} (h : s.call op = some call) :
    ∃ ok, (step config op s).notifications = (s.send config ok call).2.notifications := by
  cases op with
  | subscriber ok =>
      refine ⟨ok, ?_⟩
      simp only [WebhookNotifier.call] at h
      split at h
      next hsub =>
        cases h
        simp only [step, stepSubscriber, hsub]
        cases call <;> rfl
      · cases h
  | background i ok =>
      refine ⟨ok, ?_⟩
      change s.background[i]? = some call at h
      simp only [step, stepBackground, h]
  | set | remove | publish | tick | stop | restart | startRetries | retrier | batchTick | batchStop => cases h

theorem Fails.lookup_step (config : WebhookConfig) (h : s.Fails op taskID n) :
    ∃ state, (step config op s).notifications.lookup taskID = some (n.settle config s.clock state false) := by
  obtain ⟨entry, payload, payloads, hcall, rfl, hn⟩ := h
  obtain ⟨ok, hstep⟩ := step_call config hcall
  refine ⟨payload.state, ?_⟩
  rw [hstep]
  simp only [send, hn]
  exact AList.lookup_insert _

end WebhookNotifier

namespace NotificationState

variable {config : WebhookConfig} {now : Nat} {state : String} {n : NotificationState}

theorem settle_retry (hmax : (n.retryCount + 1 : Int) ≤ config.maxRetries) : n.settle config now state false =
    { n with retryCount := n.retryCount + 1, nextRetryTime := some (now + calculateBackoff config (n.retryCount + 1)) } := by
  rw [settle, if_neg Bool.false_ne_true, if_pos hmax]

/-- 結果を書いた後に再送を待つのは、回数の残る失敗に限る。 -/
theorem retry_of_settle {ok : Bool} (h : 0 < (n.settle config now state ok).retryCount) :
    ok = false ∧ (n.retryCount + 1 : Int) ≤ config.maxRetries := by
  cases ok with
  | true => cases h
  | false =>
      refine ⟨rfl, ?_⟩
      by_contra hmax
      rw [settle, if_neg Bool.false_ne_true, if_neg hmax] at h
      cases h

end NotificationState

namespace WebhookNotifier

/-- 時刻 `since` に失敗したタスクは、そこから一回分の間隔の内は送り直されない。 -/
structure Rests (config : WebhookConfig) (since : Nat) (taskID : String) (s : WebhookNotifier) : Prop where
  clock : since ≤ s.clock
  waits : ∀ n, s.notifications.lookup taskID = some n → 0 < n.retryCount →
    ∃ t, n.nextRetryTime = some t ∧ since + config.baseRetryInterval ≤ t

variable {config : WebhookConfig} {s : WebhookNotifier} {op : Op} {taskID : String} {n : NotificationState} {since : Nat}

theorem Rests.step (hconfig : config.Intervals) (hfits : config.Fits) (h : Rests config since taskID s) (op : Op) :
    Rests config since taskID (step config op s) := by
  refine ⟨Nat.le_trans h.clock (clock_le_step op), fun n hn hcount => ?_⟩
  cases step_updated op hn with
  | initial => cases hcount
  | kept hold => exact h.waits n hold hcount
  | @settled old state ok hold =>
      obtain ⟨rfl, hmax⟩ := NotificationState.retry_of_settle hcount
      have hbase := base_le_calculateBackoff hconfig hfits (Nat.le_add_left 1 old.retryCount) hmax
      have hclock := h.clock
      rw [NotificationState.settle_retry hmax]
      exact ⟨_, rfl, by omega⟩

theorem Fails.rests (hconfig : config.Intervals) (hfits : config.Fits) (h : s.Fails op taskID n) :
    Rests config s.clock taskID (step config op s) := by
  obtain ⟨state, hlookup⟩ := h.lookup_step config
  refine ⟨clock_le_step op, fun n' hn hcount => ?_⟩
  rw [hlookup] at hn
  cases hn
  obtain ⟨-, hmax⟩ := NotificationState.retry_of_settle hcount
  have hbase := base_le_calculateBackoff hconfig hfits (Nat.le_add_left 1 n.retryCount) hmax
  rw [NotificationState.settle_retry hmax]
  exact ⟨_, rfl, by omega⟩

theorem Retries.due {now : Nat} (h : s.Retries config taskID now) :
    ((s.notifications.lookup taskID).getD {}).due config now = true := by
  obtain ⟨taskIDs, hlooking, hfetching⟩ := h
  simp only [stepRetrier, hlooking] at hfetching
  split at hfetching
  · assumption
  · cases hfetching

theorem Rests.lt_of_retries {now : Nat} (h : Rests config since taskID s) (hretries : s.Retries config taskID now) :
    since + config.baseRetryInterval < now := by
  have hdue := hretries.due
  cases hn : s.notifications.lookup taskID with
  | none =>
      rw [hn] at hdue
      cases hdue
  | some n =>
      rw [hn, Option.getD_some, NotificationState.due, Bool.and_eq_true, Bool.and_eq_true] at hdue
      obtain ⟨⟨hcount, -⟩, hpast⟩ := hdue
      obtain ⟨t, hnext, hle⟩ := h.waits n hn (of_decide_eq_true hcount)
      rw [hnext] at hpast
      exact lt_of_le_of_lt hle (of_decide_eq_true hpast)

theorem Fails.nextRetryTime (h : s.Fails op taskID n) (hmax : (n.retryCount + 1 : Int) ≤ config.maxRetries) :
    (step config op s).notifications.lookup taskID = some
      { n with
        retryCount := n.retryCount + 1,
        nextRetryTime := some (s.clock + calculateBackoff config (n.retryCount + 1)) } := by
  obtain ⟨state, hlookup⟩ := h.lookup_step config
  rwa [NotificationState.settle_retry hmax] at hlookup

/-- 初めて桁があふれた待ち時間の後は、`processRetries` がいつ動いても、そのタスクを送り直す。 -/
theorem Fails.due_of_overflow (h : s.Fails op taskID n) (hmax : (n.retryCount + 1 : Int) ≤ config.maxRetries)
    (hover : 2 ^ 63 ≤ config.baseRetryInterval * 2 ^ n.retryCount ∧ config.baseRetryInterval * 2 ^ n.retryCount < 2 ^ 64) :
    ∃ n', (step config op s).notifications.lookup taskID = some n' ∧
      ∀ now, s.clock ≤ now → n'.due config now = true := by
  refine ⟨_, h.nextRetryTime hmax, fun now hnow => ?_⟩
  have hneg : calculateBackoff config (n.retryCount + 1) < 0 := by
    rw [calculateBackoff_eq, Nat.add_sub_cancel]
    exact lt_of_le_of_lt (min_le_left _ _) (toInt64_of_overflow hover)
  have hpast : (s.clock : Int) + calculateBackoff config (n.retryCount + 1) < now := by omega
  rw [NotificationState.due, Bool.and_eq_true, Bool.and_eq_true]
  exact ⟨⟨decide_eq_true (Nat.succ_pos _), decide_eq_true hmax⟩, decide_eq_true hpast⟩

end WebhookNotifier

/-! ## 性質が成り立つ条件 -/

theorem backsOff_iff {config : WebhookConfig} (h : config.Intervals) : BacksOff config ↔ config.withDefaults.Fits := by
  have hconfig := h.withDefaults
  constructor
  · exact fun hback => fits_of_pos hconfig hback.pos
  intro hfits
  have hpos : ∀ k : Nat, 1 ≤ k → (k : Int) ≤ config.withDefaults.maxRetries → 0 < calculateBackoff config.withDefaults k :=
    fun k hk hmax => lt_of_lt_of_le hconfig.base_pos (base_le_calculateBackoff hconfig hfits hk hmax)
  refine ⟨hpos, ?_, ?_, ?_, ?_⟩
  · exact fun k _ _ => calculateBackoff_le_max _ k
  · exact fun _ _ hj hjk hmax => calculateBackoff_mono hconfig hfits hj hjk hmax
  · intro s _ op taskID n hfails hmax
    have hwait := hpos (n.retryCount + 1) (Nat.le_add_left 1 _) hmax
    exact ⟨_, _, hfails.nextRetryTime hmax, rfl, by omega⟩
  · intro s _ op taskID n hfails s' hreach now hretries
    have hrests : s'.Rests config.withDefaults s.clock taskID :=
      hreach.invariant (I := fun s' : WebhookNotifier => s'.Rests config.withDefaults s.clock taskID)
        (hfails.rests hconfig hfits) fun op _ hrests _ => hrests.step hconfig hfits op
    exact hrests.lt_of_retries hretries

theorem defaultWebhookConfig_backsOff : BacksOff defaultWebhookConfig :=
  (backsOff_iff ⟨by decide, by decide, by decide⟩).mpr (by decide)

/-- 再送の回数だけを増やした設定。三十一回目の待ち時間は負になる。 -/
def fortyRetries : WebhookConfig := { defaultWebhookConfig with maxRetries := 40 }

theorem not_backsOff : ¬∀ config : WebhookConfig, config.Intervals → BacksOff config := by
  intro h
  have hback := h fortyRetries ⟨by decide, by decide, by decide⟩
  have hneg : ¬0 < calculateBackoff fortyRetries.withDefaults 31 := by decide
  exact hneg (hback.pos 31 (by decide) (by decide))

end RtcEgress.Webhook
