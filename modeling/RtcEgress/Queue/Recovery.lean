import RtcEgress.Lib.Alone
import RtcEgress.Queue.Lemmas.Base

/-!
# 二つの回収

回収は、期限の切れたリースを見つけた `checkAndRecoverTask` と、死んだワーカーの処理の `moveTaskBackToMainQueue` の
二つが別々に行う。どちらも載せるキューを記録の種類とチャンネルだけから作る。取り出したキューは記録に残らない。
-/

namespace RtcEgress.Queue

open RtcEgress.Lib

/-! ## 載せるキュー -/

/-- 回収の命令が載せるタスクと、そのキュー。 -/
def Cmd.requeued : Cmd → Option (String × String)
  | .recoverTx _ id _ read | .moveBackTx _ id read => some (id, buildQueueKey read.cmd read.channel)
  | _ => none

/-- `PublishTaskToRegion` が、地域 `region` を指定されて記録 `task` を載せるキュー。 -/
def Task.publishKey (task : Task) (region : String) : String :=
  getQueueKey (layoutOf task.payload) task.cmd task.channel region

/-- 記録 `task` をキュー `k` へ公開した。 -/
def Published (tr : Trace) (task : Task) (k : String) : Prop := ∃ e ∈ tr, e.cmd = .publishTx k task

/-- 回収がタスク `id` をキュー `k` に載せた。 -/
def Requeued (tr : Trace) (id k : String) : Prop := ∃ e ∈ tr, e.cmd.requeued = some (id, k)

/-- 開始の記録は、指定された地域のキューに公開する。 -/
def Cmd.PublishesHome : Cmd → Prop
  | .publishTx k task => task.action ≠ "stop" → ∃ region, k = task.publishKey region
  | _ => True

theorem publishTaskToRegion_publishesHome {cmd action channel requestID payload region} {h : Acts} :
    (publishTaskToRegion cmd action channel requestID payload region).Follows
      (fun c _ => c.PublishesHome) (fun _ _ => True) h := by
  refine .perform trivial fun dup => ?_
  cases dup with
  | true => trivial
  | false =>
      refine .perform trivial fun id => ?_
      refine .perform trivial fun now => ?_
      exact .perform (fun _ => ⟨region, rfl⟩) fun _ => trivial

section Published

-- 名前の比較を計算で進めない。
attribute [local irreducible] trimSpace

theorem publishesHome_of_pod {c : Cmd} {h : Acts} (hE : Expected podScope c h) : c.PublishesHome := by
  cases c
  case publishTx => simp [Expected, podScope] at hE
  all_goals trivial

theorem stopTargetPod_publishesHome {orig : Task} {originalTaskID : String} {h : Acts} :
    (stopTargetPod orig originalTaskID).Follows (fun c _ => c.PublishesHome) (fun _ _ => True) h := by
  have hsafe : Safe podScope (stopTargetPod orig originalTaskID) h := safe_stopTargetPod
  exact hsafe.mono (fun _ _ => publishesHome_of_pod) fun _ _ _ => trivial

theorem publishStopTaskFor_publishesHome {originalTaskID requestID region : String} {h : Acts} :
    (publishStopTaskFor originalTaskID requestID region).Follows
      (fun c _ => c.PublishesHome) (fun _ _ => True) h := by
  refine .perform trivial fun found => ?_
  cases found with
  | none => trivial
  | some orig =>
      refine Prog.Follows.bind (fun podID h _ => ?_) stopTargetPod_publishesHome
      refine .perform trivial fun dup => ?_
      cases dup with
      | true => trivial
      | false =>
          refine .perform trivial fun stopID => .perform trivial fun now => ⟨?_, fun _ => trivial⟩
          exact fun haction => absurd rfl haction

theorem bodies_publishesHome (g : Guard machine) : Bodies g fun c _ => c.PublishesHome := by
  have hdone : ∀ h, (Prog.ret () : P Unit).Follows (fun c _ => c.PublishesHome) (fun _ _ => True) h := fun _ => trivial
  refine bodies_publishing (fun _ _ => publishesHome_of_pod) fun k _ hwrites => ?_
  cases k
  case publish => exact Prog.Follows.bind (fun _ h _ => hdone h) publishTaskToRegion_publishesHome
  case publishStop => exact Prog.Follows.bind (fun _ h _ => hdone h) publishStopTaskFor_publishesHome
  all_goals simp [Call.writers] at hwrites

theorem publishesHome_inductive (g : Guard machine) :
    Inductive g (fun c _ => c.PublishesHome) fun _ tr => ∀ e ∈ tr, e.cmd.PublishesHome := by
  refine ⟨fun h _ hE _ e he => ?_, fun h _ => h⟩
  rcases List.mem_cons.mp he with rfl | he
  · exact hE
  · exact h e he

/-- 公開したキューは、指定された地域のキューである。 -/
theorem exists_region_of_published {g : Guard machine} {p : Pool machine} (hrun : Run g (.start .init) p)
    {task : Task} {k : String} (hpub : Published p.trace task k) (haction : task.action ≠ "stop") :
    ∃ region, k = task.publishKey region := by
  obtain ⟨e, he, hcmd⟩ := hpub
  have hhome := (publishesHome_inductive g).of_start (bodies_publishesHome g) (by simp) hrun e he
  rw [hcmd] at hhome
  exact hhome haction

end Published

theorem getQueueKey_eq_buildQueueKey {layout cmd channel region : String} :
    buildQueueKey cmd channel = getQueueKey layout cmd channel region ↔ layout ≠ "freestyle" ∧ region = "" := by
  constructor
  · intro h
    have hlen := congrArg String.length h
    have h₁ : "egress:".length = 7 := rfl
    have h₂ : "egress:web:".length = 11 := rfl
    have h₃ : ":web:".length = 5 := rfl
    have h₄ : ":".length = 1 := rfl
    by_cases hl : layout = "freestyle" <;> by_cases hr : region = ""
    · simp [buildQueueKey, getQueueKey, hl, hr] at hlen
      omega
    · simp [buildQueueKey, getQueueKey, hl, hr] at hlen
      omega
    · exact ⟨hl, hr⟩
    · have hpos : region.length ≠ 0 := by simpa using hr
      simp [buildQueueKey, getQueueKey, hl, hr] at hlen
      omega
  · rintro ⟨hl, rfl⟩
    simp [buildQueueKey, getQueueKey, hl]

/-- 書いた記録の、公開のときに決まる欄は、今の記録の欄である。 -/
def IdentityKept (w : World) (tr : Trace) : Prop :=
  ∀ e ∈ tr, ∀ id t, e.cmd.written e.resp = some (id, t) → ∃ t', w.task id = some t' ∧ t'.identity = t.identity

theorem identityKept_inductive (g : Guard machine) :
    Inductive g (Expected .all) fun w tr => Base w tr ∧ IdentityKept w tr :=
  (base_inductive g .all).extend
    (fun {i c o w tr r w'} hb h _ hE he e hmem id t hw => by
      obtain ⟨-, rfl⟩ := exec_eq he
      rcases List.mem_cons.mp hmem with rfl | hmem
      · have hw : c.written r = some (id, t) := hw
        exact ⟨t, by simp [effect_task, hw], rfl⟩
      · obtain ⟨t', ht', hid'⟩ := h e hmem id t hw
        obtain ⟨t'', ht'', hid''⟩ := (hb.le_effect hE).identity id t' ht'
        exact ⟨t'', ht'', hid''.trans hid'⟩)
    fun _ h he e hmem id t hw => by
      obtain ⟨t', ht', hid'⟩ := h e hmem id t hw
      obtain ⟨t'', ht'', hid''⟩ := (World.le_env he).identity id t' ht'
      exact ⟨t'', ht'', hid''.trans hid'⟩

/-- 回収が書く記録の種類とチャンネルから、載せるキューが決まる。 -/
theorem requeued_written {c : Cmd} {id k : String} (h : c.requeued = some (id, k)) (r : c.Resp) :
    ∃ t, c.written r = some (id, t) ∧ k = buildQueueKey t.cmd t.channel := by
  cases c <;> simp only [Cmd.requeued, reduceCtorEq, Option.some.injEq, Prod.mk.injEq] at h <;>
    obtain ⟨rfl, rfl⟩ := h <;> exact ⟨_, rfl, rfl⟩

/-- 回収したタスクは、公開した記録の種類とチャンネルのキューに載る。 -/
theorem requeued_key {g : Guard machine} {p : Pool machine} (hrun : Run g (.start .init) p) {task : Task} {k k' : String}
    (hpub : Published p.trace task k') (hre : Requeued p.trace task.id k) : k = buildQueueKey task.cmd task.channel := by
  obtain ⟨-, hkept⟩ := (identityKept_inductive g).of_start (bodies_all g) ⟨base_init, by simp [IdentityKept]⟩ hrun
  obtain ⟨⟨i, c, r, w⟩, he, rfl⟩ := hpub
  obtain ⟨⟨j, c', r', w'⟩, he', hc'⟩ := hre
  obtain ⟨t, ht, hid⟩ := hkept _ he task.id task rfl
  obtain ⟨t₁, hw, rfl⟩ := requeued_written hc' r'
  obtain ⟨t', ht', hid'⟩ := hkept _ he' task.id t₁ hw
  obtain rfl := Option.some.inj (ht.symm.trans ht')
  -- 公開した記録と回収が書いた記録は、種類もチャンネルも同じである
  have hfields := hid.symm.trans hid'
  simp only [Task.identity, Prod.mk.injEq] at hfields
  obtain ⟨-, hcmd, -, hchannel, -⟩ := hfields
  rw [← hcmd, ← hchannel]

/-- 回収したタスクが公開されたキューへ戻るのは、地域もウェブの経路も指定されていないときに限る。 -/
theorem requeued_home_iff {g : Guard machine} {p : Pool machine} (hrun : Run g (.start .init) p) {task : Task}
    {region k : String} (hpub : Published p.trace task (task.publishKey region)) (hre : Requeued p.trace task.id k) :
    k = task.publishKey region ↔ layoutOf task.payload ≠ "freestyle" ∧ region = "" := by
  rw [requeued_key hrun hpub hre]
  exact getQueueKey_eq_buildQueueKey

/-- 公開、ポッド `p` による取り出しと確保までの実行。 -/
def publishAndClaim (payload : Option Payload) (region : String) : List (Move machine) :=
  begin (.publish "record" "start" "room" "r1" payload region) ++
    advance 0 1 ++ advanceWith 0 { text := "a" } ++ advance 0 2 ++
  begin (.subscribe (nativePod "p") ["egress:*"]) ++ advance 1 6

/-- ポッド `p` が落ち、リースの期限の後に回収する。 -/
def expireAndRecover : List (Move machine) :=
  [.env (.tick leaseTimeout), .env (.leaseExpire "a")] ++ begin .cleanupExpiredLeases ++ advance 2 6

/-- 公開の命令の記録とキュー。 -/
def Cmd.publication : Cmd → Option (Task × String)
  | .publishTx k task => some (task, k)
  | _ => none

theorem published_of_publication {tr : Trace} {task : Task} {k : String}
    (h : (task, k) ∈ tr.filterMap (·.cmd.publication)) : Published tr task k := by
  obtain ⟨e, he, hc⟩ := List.mem_filterMap.mp h
  refine ⟨e, he, ?_⟩
  cases hcmd : e.cmd <;> rw [hcmd] at hc <;> cases hc
  rfl

theorem requeued_of_mem {tr : Trace} {id k : String} (h : (id, k) ∈ tr.filterMap (·.cmd.requeued)) :
    Requeued tr id k := by
  obtain ⟨e, he, hc⟩ := List.mem_filterMap.mp h
  exact ⟨e, he, hc⟩

/-- 一度だけ公開し、一度だけ回収する実行の結果。公開したタスクとキュー、回収が載せたキューである。 -/
def outcome (region : String) (ms : List (Move machine)) : Option (List (String × String × String) × List (String × String)) :=
  (Pool.play ms (.start .init)).map fun p =>
    ((p.trace.filterMap (·.cmd.publication)).map fun (task, k) => (task.id, task.publishKey region, k),
      p.trace.filterMap (·.cmd.requeued))

theorem exists_of_outcome {region id k k' : String} {ms : List (Move machine)}
    (h : outcome region ms = some ([(id, k, k)], [(id, k')])) : ∃ p task, Pool.play ms (.start .init) = some p ∧
      k = task.publishKey region ∧ Published p.trace task (task.publishKey region) ∧ Requeued p.trace task.id k' := by
  obtain ⟨p, hp, heq⟩ := Option.map_eq_some_iff.mp h
  obtain ⟨hpub, hre⟩ := Prod.mk.inj heq
  obtain ⟨⟨task, key⟩, htr, htask⟩ := List.map_eq_singleton_iff.mp hpub
  simp only [Prod.mk.injEq] at htask
  obtain ⟨rfl, hkey, rfl⟩ := htask
  refine ⟨p, task, hp, hkey.symm, published_of_publication ?_, requeued_of_mem ?_⟩
  · rw [htr, hkey]
    exact List.mem_singleton_self _
  · rw [hre]
    exact List.mem_singleton_self _

/-- ウェブの録画が、取り出した `egress:eu:web:record:room` でなく、共通のキューへ戻る。 -/
theorem not_requeued_home : ¬∀ (p : Pool machine) (task : Task) (region k : String),
    Run entries (.start .init) p → Published p.trace task (task.publishKey region) → Requeued p.trace task.id k →
    k = task.publishKey region := by
  intro h
  have hplay : outcome "eu" (publishAndClaim (some [("layout", .str "freestyle")]) "eu" ++ expireAndRecover) =
      some ([("a", "egress:eu:web:record:room", "egress:eu:web:record:room")], [("a", "egress:record:room")]) := by
    decide
  obtain ⟨p, task, hp, hkey, hpub, hre⟩ := exists_of_outcome hplay
  have heq := h p task "eu" _ (Pool.play_sound (Pool.allMeet_ofCalls (by decide)) hp) hpub hre
  rw [← hkey] at heq
  exact absurd heq (by decide)

/-- 死んだワーカーの処理は、共通のキューから取り出した録画をそこへ戻す。 -/
theorem globalTask_requeued_home : ∃ (p : Pool machine) (task : Task), Run entries (.start .init) p ∧
    Published p.trace task "egress:record:room" ∧ Requeued p.trace task.id "egress:record:room" ∧
    layoutOf task.payload ≠ "freestyle" := by
  have hplay : outcome "" (publishAndClaim (some []) "" ++ begin (.moveBack "p" "a") ++ advance 2 2) =
      some ([("a", "egress:record:room", "egress:record:room")], [("a", "egress:record:room")]) := by
    decide
  obtain ⟨p, task, hp, hkey, hpub, hre⟩ := exists_of_outcome hplay
  have hrun : Run entries (.start .init) p := Pool.play_sound (Pool.allMeet_ofCalls (by decide)) hp
  have hlayout := (requeued_home_iff hrun hpub hre).mp hkey
  exact ⟨p, task, hrun, hkey ▸ hpub, hre, hlayout.1⟩

/-! ## 二つの回収の一致 -/

/-- 変更の回数を除いて、Redis の内容が同じである。 -/
structure SameStore (w w' : World) : Prop where
  task : w'.task = w.task
  lease : w'.lease = w.lease
  dedupe : w'.dedupe = w.dedupe
  list : ∀ k, w'.list k = w.list k

/-- ポッド `podID` の処理中のリストにあるタスク `id` を、同じ時刻に二つの方法で回収した結果が同じである。 -/
def RecoveriesAgree (podID id : String) (w : World) : Prop :=
  ∃ w₁ w₂, ((checkAndRecoverTask id (buildProcessingQueueKey podID)).evaluate machine {} w).map (·.2.2) = some w₁ ∧
    ((moveTaskBackToMainQueue podID id).evaluate machine {} w).map (·.2.2) = some w₂ ∧ SameStore w₁ w₂

section Recoveries

variable {podID id : String} {w : World} {t : Task}

/-- 終わったタスクは処理中のリストから除くだけで、ほかは待ち始めに戻す。 -/
theorem evaluate_checkAndRecoverTask (ht : w.task id = some t) (hlease : w.lease id = none) :
    ((checkAndRecoverTask id (buildProcessingQueueKey podID)).evaluate machine {} w).map (·.2.2) =
      some (if t.isTerminal then w.lrem (buildProcessingQueueKey podID) id
        else Cmd.effect w (.recoverTx (buildProcessingQueueKey podID) id w.now t) ()) := by
  by_cases hterm : t.isTerminal = true <;>
    simp [checkAndRecoverTask, perform, Prog.perform, Prog.evaluate, exec, Cmd.reply, Cmd.effect, ht, hlease, hterm]

theorem evaluate_moveTaskBackToMainQueue (ht : w.task id = some t) :
    ((moveTaskBackToMainQueue podID id).evaluate machine {} w).map (·.2.2) =
      some (Cmd.effect w (.moveBackTx podID id t) ()) := by
  simp [moveTaskBackToMainQueue, getTaskStatus, perform, Prog.perform, Prog.evaluate, exec, Cmd.reply, Cmd.effect, ht]

theorem RecoveriesAgree.enqueuedNow (h : RecoveriesAgree podID id w) (ht : w.task id = some t)
    (hlease : w.lease id = none) : t.isTerminal = false ∧ t.enqueuedAt = some w.now := by
  obtain ⟨w₁, w₂, h₁, h₂, hsame⟩ := h
  obtain rfl := Option.some.inj ((evaluate_checkAndRecoverTask ht hlease).symm.trans h₁)
  obtain rfl := Option.some.inj ((evaluate_moveTaskBackToMainQueue ht).symm.trans h₂)
  have htask := congrFun hsame.task id
  have hmoved : (Cmd.effect w (.moveBackTx podID id t) ()).task id = some t.movedBack := by
    simp [effect_task, Cmd.written]
  rw [hmoved] at htask
  by_cases hterm : t.isTerminal = true
  · -- 終わった記録を、一方は残し、他方は待ち始めに戻す
    rw [if_pos hterm] at htask
    have heq : t.movedBack = t := Option.some.inj (htask.trans ht)
    rw [← heq] at hterm
    cases hterm
  · rw [if_neg hterm, effect_task] at htask
    have heq : t.movedBack = t.recovered w.now := by simpa [Cmd.written] using htask
    exact ⟨by simpa using hterm, congrArg Task.enqueuedAt heq⟩

/-- 二つの回収が一致するのは、終わっていないタスクの待ち始めが、たまたま回収の時刻のときに限る。 -/
theorem recoveriesAgree_iff (ht : w.task id = some t) (hlease : w.lease id = none) :
    RecoveriesAgree podID id w ↔ t.isTerminal = false ∧ t.enqueuedAt = some w.now := by
  constructor
  · intro h
    exact h.enqueuedNow ht hlease
  · rintro ⟨hterm, henq⟩
    refine ⟨_, _, evaluate_checkAndRecoverTask ht hlease, evaluate_moveTaskBackToMainQueue ht, ?_⟩
    have heq : t.recovered w.now = t.movedBack := by simp [Task.recovered, Task.movedBack, henq]
    rw [if_neg (by simp [hterm])]
    simp only [Cmd.effect, heq]
    exact ⟨rfl, rfl, rfl, fun _ => rfl⟩

end Recoveries

/-- ポッド `p` の処理中のリストに、時刻零に公開して確保したタスク `a` がある。 -/
def processing (now : Nat) (t : Task) : World :=
  (World.setTask { World.init with now } "a" t).lpush (buildProcessingQueueKey "p") "a"

def claimedTask : Task := (Task.published "a" "record" "start" "room" "r1" none 0).claimed "p" 0

theorem recoveriesAgree_atOnce : RecoveriesAgree "p" "a" (processing 0 claimedTask) :=
  (recoveriesAgree_iff rfl rfl).mpr ⟨rfl, rfl⟩

/-- 五秒後にワーカーが落ちたとき、一方は待ち始めを新しくし、他方はもとのままにする。 -/
theorem not_recoveriesAgree : ¬∀ podID id w t, w.task id = some t → w.lease id = none →
    (w.list (buildProcessingQueueKey podID)).count id = 1 → RecoveriesAgree podID id w := by
  intro h
  have hagree := h "p" "a" (processing (5 * second) claimedTask) claimedTask rfl rfl (by decide)
  exact absurd (hagree.enqueuedNow rfl rfl).2 (by decide)

end RtcEgress.Queue
