import RtcEgress.Queue.Lemmas.Lists
import RtcEgress.Queue.Patterns

/-!
# 待ち時間の点検の届く範囲

`CleanupAgedTasks` を、他のプログラムを挟まずに最後まで実行したときに、期限を過ぎたタスクがどうなるかを調べる。
点検のパターンは `egress:*:channel:*` だが、キーに `channel` という欄が現れるのは、チャンネルの名前がそれを
含むときだけである。
-/

namespace RtcEgress.Queue

open RtcEgress.Lib

/-! ## パターン -/

theorem agedQueuePattern_eq : agedQueuePattern = middlePattern "channel" := by decide

/-- 点検に照合するのは、`:` の前に `channel` という欄のあるチャンネルのキーである。 -/
theorem Route.matches_aged (r : Route) :
    matchesKey agedQueuePattern r.key = true ↔ "channel" ∈ (splitColon r.channel).dropLast := by
  have hplain : isPlain "channel" = true := by decide
  have hne := splitColon_ne_nil r.channel
  have hcmd : r.cmd ≠ "channel" := by
    rcases validCmds_cases r.cmd_valid with h | h | h | h <;> rw [h] <;> decide
  rw [agedQueuePattern_eq, (matches_iff_fields hplain r.splitColon_key).2, Route.fields, routeFields]
  by_cases hr : r.region = "" <;> by_cases hl : r.layout = "freestyle" <;>
    simp [hr, hl, hne, Ne.symm hcmd, List.dropLast_cons_of_ne_nil]

theorem stopQueueKey_not_aged {podID : String} (h : isPodID podID) :
    matchesKey agedQueuePattern (stopQueueKey podID) = false := by
  have hplain : isPlain "channel" = true := by decide
  rw [← Bool.not_eq_true, agedQueuePattern_eq,
    (matches_iff_fields hplain (splitColon_stopQueueKey (plain_of_isPodID h))).2]
  simp

/-! ## 一つのタスクの点検 -/

/-- 点検が残す変化。 -/
inductive Checked (id queue : String) (w w' : World) : Prop where
  | gone {w₁} : w.task id = none → Same w w₁ → Same (w₁.lrem queue id) w' → Checked id queue w w'
  | kept {t} : w.task id = some t →
      ¬(t.state = .enqueued ∧ taskTimeout < w.now - t.enqueuedTime ∧ id ∈ w.list queue) → Same w w' →
      Checked id queue w w'
  | timedOut {w₁ t age} : w.task id = some t → t.state = .enqueued → id ∈ w.list queue → Same w w₁ →
      Same ((w₁.setTask id (t.timedOut age)).lrem queue id) w' → Checked id queue w w'

theorem checkAndTimeout_alone {id queue : String} {w w' : World}
    (h : Alone machine (checkAndTimeoutEnqueuedTask id queue) w () w') : Checked id queue w w' := by
  obtain ⟨_, watched, w₁, h₁, hwatched, h⟩ := call_alone h
  obtain ⟨_, found, w₂, h₂, hfound, h⟩ := call_alone h
  simp only [Cmd.reply, Option.some.injEq] at hwatched hfound
  subst hwatched hfound
  simp only [Cmd.effect, Prog.bind] at h₂ h
  have hw₂ := h₁.trans h₂
  cases hread : w₂.task id with
  | none =>
      simp only [hread] at h
      obtain ⟨_, _, w₃, h₃, -, h⟩ := call_alone h
      obtain ⟨-, rfl⟩ := Alone.ret_inv h
      exact .gone (by rw [← hw₂.task, hread]) (hw₂.trans h₃) (.refl _)
  | some t =>
      have ht : w.task id = some t := by rw [← hw₂.task, hread]
      simp only [hread] at h
      by_cases hstate : t.state = .enqueued
      · simp only [hstate, ne_eq, not_true_eq_false, if_false] at h
        obtain ⟨_, now, w₃, h₃, hnow, h⟩ := call_alone h
        simp only [Cmd.reply, Option.some.injEq] at hnow
        subst hnow
        simp only [Cmd.effect, Prog.bind] at h
        have hw₃ := hw₂.trans h₃
        by_cases hage : w₃.now - t.enqueuedTime ≤ taskTimeout
        · simp only [hage, if_true] at h
          obtain ⟨-, rfl⟩ := Alone.ret_inv h
          have hnow := hw₃.now
          exact .kept ht (fun h => by omega) hw₃
        · simp only [hage, if_false] at h
          obtain ⟨_, position, w₄, h₄, hposition, h⟩ := call_alone h
          simp only [Cmd.reply, Option.some.injEq] at hposition
          subst hposition
          simp only [Cmd.effect, Prog.bind] at h
          have hw₄ := hw₃.trans h₄
          have hlist : w₄.list queue = w.list queue := by rw [World.list, hw₄.lists, World.list]
          by_cases hin : id ∈ w.list queue
          · -- 監視の間に変化はないので、トランザクションは通る
            simp only [hlist, hin, if_true] at h
            obtain ⟨_, passed, w₅, h₅, hpassed, h⟩ := call_alone h
            obtain ⟨-, rfl⟩ := Alone.ret_inv h
            have hw₅ := (h₂.trans h₃).trans (h₄.trans h₅)
            obtain rfl : passed = true := by
              simpa [Cmd.reply, World.revs, hw₅.taskRev, hw₅.listRev] using hpassed.symm
            exact .timedOut ht hstate hin (h₁.trans hw₅) (.refl _)
          · simp only [hlist, hin, if_false] at h
            obtain ⟨-, rfl⟩ := Alone.ret_inv h
            exact .kept ht (fun h => hin h.2.2) hw₄
      · simp only [hstate, ne_eq, not_false_eq_true, if_true] at h
        obtain ⟨-, rfl⟩ := Alone.ret_inv h
        exact .kept ht (fun h => hstate h.1) hw₂

/-! ## 一巡の点検 -/

/-- 始めの状態 `w` から、タスク `id` は点検されていないか、一つのキューから除かれて期限切れになった。 -/
inductive Aged (w : World) (id : String) (task : Task) (w' : World) : Prop where
  | untouched : w'.task id = some task → (∀ k, w'.lists.occ id k = w.lists.occ id k) → w.now ≤ w'.now →
      Aged w id task w'
  | timedOut {t q} : w'.task id = some t → t.state = .timeout → w.lists.occ id q = w'.lists.occ id q + 1 →
      (∀ k, k ≠ q → w.lists.occ id k = w'.lists.occ id k) → Aged w id task w'

/-- 期限切れになった。 -/
def TimedOut (w : World) (id : String) : Prop := ∃ t, w.task id = some t ∧ t.state = .timeout

variable {id id' queue : String} {task : Task} {w w₁ w₂ : World}

theorem Same.occ (h : Same w w₁) (k : String) : w₁.lists.occ id k = w.lists.occ id k := by rw [h.lists]

/-- 他のタスクの点検は、記録にも出現の数にも触れない。 -/
theorem Checked.other (h : Checked id' queue w₁ w₂) (hne : id ≠ id') :
    w₂.task id = w₁.task id ∧ (∀ k, w₂.lists.occ id k = w₁.lists.occ id k) ∧ w₁.now ≤ w₂.now := by
  cases h with
  | gone _ hs hs' =>
      refine ⟨by rw [hs'.task]; exact congrFun hs.task id, fun k => ?_, Nat.le_trans hs.now hs'.now⟩
      rw [hs'.occ, World.occ_lrem, hs.occ]
      simp [hne]
  | kept _ _ hs => exact ⟨congrFun hs.task id, hs.occ, hs.now⟩
  | timedOut _ _ _ hs hs' =>
      refine ⟨?_, fun k => ?_, Nat.le_trans hs.now hs'.now⟩
      · rw [hs'.task]
        simp [World.lrem, World.setList, World.setTask, hne, hs.task]
      · rw [hs'.occ, World.occ_lrem]
        simp [hne, World.setTask, hs.occ]

/-- 記録のあるタスクは、点検されても変わらないか、キューから一つ除かれて期限切れになる。 -/
theorem Checked.own {t : Task} (h : Checked id queue w₁ w₂) (ht : w₁.task id = some t) :
    (w₂.task id = some t ∧ (∀ k, w₂.lists.occ id k = w₁.lists.occ id k) ∧ w₁.now ≤ w₂.now ∧
      ¬(t.state = .enqueued ∧ taskTimeout < w₁.now - t.enqueuedTime ∧ id ∈ w₁.list queue)) ∨
    (t.state = .enqueued ∧ TimedOut w₂ id ∧ w₁.lists.occ id queue = w₂.lists.occ id queue + 1 ∧
      ∀ k, k ≠ queue → w₁.lists.occ id k = w₂.lists.occ id k) := by
  cases h with
  | gone hnone => simp [hnone] at ht
  | kept ht' hkept hs =>
      obtain rfl := Option.some.inj (ht.symm.trans ht')
      exact .inl ⟨(congrFun hs.task id).trans ht, hs.occ, hs.now, hkept⟩
  | @timedOut wx t' age ht' hstate hin hs hs' =>
      obtain rfl := Option.some.inj (ht.symm.trans ht')
      right
      refine ⟨hstate, ⟨t.timedOut age, ?_, rfl⟩, ?_, fun k hk => ?_⟩
      · rw [hs'.task]
        simp [World.lrem, World.setList, World.setTask]
      · have hpos : 0 < w₁.lists.occ id queue := KeyedLists.occ_pos.mpr hin
        rw [hs'.occ, World.occ_lrem, if_pos ⟨rfl, rfl⟩]
        change _ = wx.lists.occ id queue - 1 + 1
        rw [hs.occ]
        omega
      · rw [hs'.occ, World.occ_lrem, if_neg (fun h => hk h.1)]
        exact (hs.occ k).symm

/-- 点検は、どのタスクの状況も保つ。 -/
theorem Aged.check (h : Aged w id task w₁) (hc : Checked id' queue w₁ w₂) :
    Aged w id task w₂ := by
  by_cases hid : id = id'
  · subst hid
    cases h with
    | untouched ht ho hn =>
        rcases hc.own ht with ⟨ht', ho', hn', -⟩ | ⟨-, ⟨t, ht', hs'⟩, hq, hk⟩
        · exact .untouched ht' (fun k => (ho' k).trans (ho k)) (Nat.le_trans hn hn')
        · exact .timedOut ht' hs' (by rw [← ho, hq]) fun k hne => by rw [← ho, hk k hne]
    | @timedOut t q ht hs hq hk =>
        rcases hc.own ht with ⟨ht', ho', -, -⟩ | ⟨hs', -⟩
        · exact .timedOut ht' hs (by rw [hq, ho']) fun k hne => by rw [hk k hne, ho']
        · simp [hs] at hs'
  · obtain ⟨htask, hocc, hnow⟩ := hc.other hid
    cases h with
    | untouched ht ho hn => exact .untouched (htask.trans ht) (fun k => (hocc k).trans (ho k)) (Nat.le_trans hn hnow)
    | timedOut ht hs hq hk =>
        exact .timedOut (htask.trans ht) hs (by rw [hq, hocc]) fun k hne => by rw [hk k hne, hocc]

/-- 期限切れになったタスクは、その後の点検でも期限切れのままである。 -/
theorem TimedOut.check (h : TimedOut w₁ id) (hc : Checked id' queue w₁ w₂) : TimedOut w₂ id := by
  obtain ⟨t, ht, hs⟩ := h
  by_cases hid : id = id'
  · subst hid
    rcases hc.own ht with ⟨ht', -⟩ | ⟨hs', -⟩
    · exact ⟨t, ht', hs⟩
    · simp [hs] at hs'
  · exact ⟨t, (hc.other hid).1.trans ht, hs⟩

/-- 期限を過ぎたタスクは、自分の点検で期限切れになる。 -/
theorem Aged.check_own (h : Aged w id task w₁) (hstate : task.state = .enqueued)
    (hage : taskTimeout < w.now - task.enqueuedTime) (hin : id ∈ w.list queue) (hc : Checked id queue w₁ w₂) :
    TimedOut w₂ id := by
  cases h with
  | untouched ht ho hn =>
      rcases hc.own ht with ⟨-, -, -, hkept⟩ | ⟨-, h, -⟩
      · refine absurd ⟨hstate, by omega, ?_⟩ hkept
        rw [World.list, ← KeyedLists.occ_pos, ho]
        exact KeyedLists.occ_pos.mpr hin
      · exact h
  | timedOut ht hs => exact TimedOut.check ⟨_, ht, hs⟩ hc

theorem Aged.same (h : Aged w id task w₁) (hs : Same w₁ w₂) : Aged w id task w₂ := by
  cases h with
  | untouched ht ho hn =>
      exact .untouched ((congrFun hs.task id).trans ht) (fun k => (hs.occ k).trans (ho k)) (Nat.le_trans hn hs.now)
  | timedOut ht hst hq hk =>
      exact .timedOut ((congrFun hs.task id).trans ht) hst (by rw [hq, hs.occ]) fun k hne => by rw [hk k hne, hs.occ]

theorem TimedOut.same (h : TimedOut w₁ id) (hs : Same w₁ w₂) : TimedOut w₂ id := by
  obtain ⟨t, ht, hst⟩ := h
  exact ⟨t, (congrFun hs.task id).trans ht, hst⟩

/-- 一つのキューの点検。 -/
def checkQueue (queue : String) : P Unit := do
  let taskIDs : List String ← perform (.lrange queue)
  Prog.forEach (fun taskID => checkAndTimeoutEnqueuedTask taskID queue) taskIDs

theorem checkQueue_alone (h : Alone machine (checkQueue queue) w₁ () w₂) :
    ∃ w₃, Same w₁ w₃ ∧
      Alone machine (Prog.forEach (fun taskID => checkAndTimeoutEnqueuedTask taskID queue) (w₃.list queue)) w₃ () w₂ := by
  obtain ⟨_, ids, w₃, hs, hids, h⟩ := call_alone h
  obtain rfl : w₃.list queue = ids := by simpa [Cmd.reply] using hids
  exact ⟨w₃, hs, h⟩

theorem Aged.checkQueue (h : Aged w id task w₁) (hq : Alone machine (checkQueue queue) w₁ () w₂) :
    Aged w id task w₂ := by
  obtain ⟨w₃, hs, hall⟩ := checkQueue_alone hq
  exact Alone.forEach_keeps (fun _ _ _ hI hc => hI.check (checkAndTimeout_alone hc)) _ (h.same hs) hall

theorem TimedOut.checkQueue (h : TimedOut w₁ id) (hq : Alone machine (checkQueue queue) w₁ () w₂) :
    TimedOut w₂ id := by
  obtain ⟨w₃, hs, hall⟩ := checkQueue_alone hq
  exact Alone.forEach_keeps (I := (TimedOut · id)) (fun _ _ _ hI hc => hI.check (checkAndTimeout_alone hc)) _ (h.same hs) hall

/-- 自分のキューの点検で期限切れになる。 -/
theorem Aged.checkQueue_own (h : Aged w id task w₁) (hstate : task.state = .enqueued)
    (hage : taskTimeout < w.now - task.enqueuedTime) (hin : id ∈ w.list queue)
    (hq : Alone machine (Queue.checkQueue queue) w₁ () w₂) : TimedOut w₂ id := by
  cases h with
  | untouched ht ho hn =>
      obtain ⟨w₃, hs, hall⟩ := checkQueue_alone hq
      have hmem : id ∈ w₃.list queue := by
        rw [World.list, ← KeyedLists.occ_pos, hs.occ, ho]
        exact KeyedLists.occ_pos.mpr hin
      exact Alone.forEach_reaches (I := Aged w id task)
        (fun _ _ _ hI hc => hI.check (checkAndTimeout_alone hc))
        (fun _ _ _ hQ hc => hQ.check (checkAndTimeout_alone hc))
        (fun _ _ hI hc => hI.check_own hstate hage hin (checkAndTimeout_alone hc)) _ hmem
        ((Aged.untouched ht ho hn).same hs) hall
  | timedOut ht hst => exact TimedOut.checkQueue ⟨_, ht, hst⟩ hq

/-! ## 点検の全体 -/

theorem cleanupAgedTasks_alone (h : Alone machine cleanupAgedTasks w () w₁) :
    ∃ w₂, Same w w₂ ∧
      Alone machine (Prog.forEach checkQueue (w.lists.keys.filter (matchesKey agedQueuePattern))) w₂ () w₁ := by
  obtain ⟨_, queues, w₂, hs, hqueues, h⟩ := call_alone h
  have hp : matchesKey agedQueuePattern = fun k => globMatch agedQueuePattern.toList k.toList := rfl
  obtain rfl : w.lists.keys.filter (matchesKey agedQueuePattern) = queues := by
    simpa [Cmd.reply, hs.lists, hp] using hqueues
  exact ⟨w₂, hs, h⟩

theorem Aged.refl (ht : w.task id = some task) : Aged w id task w := .untouched ht (fun _ => rfl) (Nat.le_refl _)

theorem aged_of_cleanup (ht : w.task id = some task) (h : Alone machine cleanupAgedTasks w () w₁) :
    Aged w id task w₁ := by
  obtain ⟨w₂, hs, hall⟩ := cleanupAgedTasks_alone h
  exact Alone.forEach_keeps (fun _ _ _ hI hq => hI.checkQueue hq) _ ((Aged.refl ht).same hs) hall

/-- 照合するキューの、期限を過ぎたタスクは、期限切れになる。 -/
theorem timedOut_of_cleanup {key : String} (ht : w.task id = some task) (hstate : task.state = .enqueued)
    (hage : taskTimeout < w.now - task.enqueuedTime) (hin : id ∈ w.list key)
    (hm : matchesKey agedQueuePattern key = true) (h : Alone machine cleanupAgedTasks w () w₁) : TimedOut w₁ id := by
  obtain ⟨w₂, hs, hall⟩ := cleanupAgedTasks_alone h
  have hkey : key ∈ w.lists.keys.filter (matchesKey agedQueuePattern) :=
    List.mem_filter.mpr ⟨KeyedLists.mem_keys_of_mem hin, hm⟩
  exact Alone.forEach_reaches (I := Aged w id task) (fun _ _ _ hI hq => hI.checkQueue hq)
    (fun _ _ _ hQ hq => hQ.checkQueue hq) (fun _ _ hI hq => hI.checkQueue_own hstate hage hin hq) _ hkey
    ((Aged.refl ht).same hs) hall

/-- キューのキー。検査を通った名前から作られたか、ポッドの停止のキューである。 -/
def IsQueueKey (key : String) : Prop :=
  (∃ r : Route, key = r.key) ∨ ∃ podID, isPodID podID ∧ key = stopQueueKey podID

/-- 点検がキー `key` を見つけ、単独の点検のあと、タスクが期限切れになってどのキューにもない。 -/
def FoundByScan (w : World) (key id : String) : Prop :=
  matchesKey agedQueuePattern key = true ∧ (∃ w', Alone machine cleanupAgedTasks w () w') ∧
    ∀ w', Alone machine cleanupAgedTasks w () w' → TimedOut w' id ∧ w'.lists.Nowhere id

/-- 期限を過ぎたタスクが見つかるのは、チャンネルの名前に `channel` という欄が途中にあり、タスクが一つの
キューに一度だけ載っているときである。 -/
theorem foundByScan_iff {key : String} (hkey : IsQueueKey key) (ht : w.task id = some task)
    (hstate : task.state = .enqueued) (hage : taskTimeout < w.now - task.enqueuedTime) (hin : id ∈ w.list key) :
    FoundByScan w key id ↔
      (∃ r : Route, key = r.key ∧ "channel" ∈ (splitColon r.channel).dropLast) ∧ w.lists.Located id key := by
  constructor
  · rintro ⟨hm, ⟨w', hpass⟩, hall⟩
    constructor
    · rcases hkey with ⟨r, rfl⟩ | ⟨podID, hpod, rfl⟩
      · exact ⟨r, rfl, r.matches_aged.mp hm⟩
      · rw [stopQueueKey_not_aged hpod] at hm
        cases hm
    · obtain ⟨-, hnow⟩ := hall w' hpass
      have hpos : 0 < w.lists.occ id key := KeyedLists.occ_pos.mpr hin
      cases aged_of_cleanup ht hpass with
      | untouched _ ho _ =>
          rw [← ho, hnow key] at hpos
          exact absurd hpos (Nat.lt_irrefl 0)
      | @timedOut t q _ _ hq hk =>
          -- 除かれた一つのほかに、どこにもなかった
          obtain rfl : key = q := by
            by_contra hne
            rw [hk key hne, hnow key] at hpos
            exact absurd hpos (Nat.lt_irrefl 0)
          intro k
          by_cases hkk : k = key
          · subst hkk
            simp [hq, hnow k]
          · rw [hk k hkk, hnow k, if_neg hkk]
  · rintro ⟨⟨r, rfl, hchannel⟩, hloc⟩
    have hm := r.matches_aged.mpr hchannel
    refine ⟨hm, ?_, fun w' hpass => ?_⟩
    · obtain ⟨_, w', hpass⟩ := Alone.exists_of_total (M := machine) exec_total cleanupAgedTasks w
      exact ⟨w', hpass⟩
    · have hdone := timedOut_of_cleanup ht hstate hage hin hm hpass
      refine ⟨hdone, fun k => ?_⟩
      cases aged_of_cleanup ht hpass with
      | untouched ht' _ _ =>
          obtain ⟨t, htt, hs⟩ := hdone
          obtain rfl := Option.some.inj (ht'.symm.trans htt)
          simp [hstate] at hs
      | @timedOut t q _ _ hq hk =>
          have hqk : q = r.key := by
            apply hloc.eq_of_mem
            rw [← KeyedLists.occ_pos, hq]
            exact Nat.succ_pos _
          have := hloc k
          by_cases hkq : k = q
          · subst hkq
            rw [hq, if_pos hqk] at this
            omega
          · rw [hk k hkq, if_neg (hqk ▸ hkq)] at this
            exact this

/-- 三十一秒待っているタスクが一つのキューにある状態。 -/
def waiting (key channel : String) : World :=
  { World.single key with
    now := 31 * second
    task := fun _ => some (Task.published "task" "record" "start" channel "request" none 0) }

theorem located_waiting (key channel : String) : (waiting key channel).lists.Located "task" key := by
  intro k
  by_cases hk : k = key <;> simp [waiting, World.single, KeyedLists.occ, hk]

/-- チャンネルの名前に `channel` という欄があれば見つかる。 -/
theorem channelField_found : FoundByScan (waiting "egress:record:channel:1" "channel:1") "egress:record:channel:1" "task" := by
  let r : Route := ⟨"flat", "record", "channel:1", "", by decide, by decide, by decide, by decide⟩
  have hkey : "egress:record:channel:1" = r.key := by decide
  exact (foundByScan_iff (.inl ⟨r, hkey⟩) rfl rfl (by decide) (located_waiting _ _).mem).mpr
    ⟨⟨r, hkey, by decide⟩, located_waiting _ _⟩

/-- ふつうの名前のチャンネルのキューは、点検のパターンに照合しない。 -/
theorem not_foundByScan : ¬∀ w key id task, IsQueueKey key → w.task id = some task → task.state = .enqueued →
    taskTimeout < w.now - task.enqueuedTime → w.lists.Located id key → FoundByScan w key id := by
  intro h
  let r : Route := ⟨"flat", "record", "room", "", by decide, by decide, by decide, by decide⟩
  have hfound := h (waiting r.key "room") r.key "task" _ (.inl ⟨r, rfl⟩) rfl rfl (by decide) (located_waiting _ _)
  exact absurd hfound.1 (by decide)

end RtcEgress.Queue
