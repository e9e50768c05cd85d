import RtcEgress.Lib.History
import RtcEgress.Queue.Manager

/-!
# 各関数が命令を出すときに、それまでに自分が出した命令

書き込みの命令は、同じスレッドが直前に出した読み取りの結果から組み立てられる。これを命令ごとに
`Expected` として述べ、すべての関数がそれに従うことを示す。書き込みを出す関数の種類も併せて述べるので、
呼び出しの種類を限った実行では、現れない書き込みを除ける。
-/

namespace RtcEgress.Queue

open RtcEgress.Lib

/-- 自分が出した命令と応答の列。新しいものが先頭である。 -/
abbrev Acts := List (Act Cmd Cmd.Resp)

/-- 生成したがまだ公開していない名前。 -/
def pending : Acts → Option String
  | ⟨.generateTaskID _ _ _, id⟩ :: _ => some id
  | ⟨.timeNow, _⟩ :: ⟨.generateTaskID _ _ _, id⟩ :: _ => some id
  | _ => none

/-- ポッドが取り出して、まだ確保も譲渡もしていないタスク。ポッドとタスクの組である。 -/
def inFlight : Acts → Option (String × String)
  | ⟨.brPopLPush podID _, some id⟩ :: _ => some (podID, id)
  | ⟨.getTask _ _, _⟩ :: h => inFlight h
  | ⟨.timeNow, _⟩ :: h => inFlight h
  | ⟨.setTarget _ _ _ _ _, _⟩ :: h => inFlight h
  | _ => none

/-- 古いタスクを探す走査で見つけたキュー。 -/
def Scanned (queue : String) (h : Acts) : Prop :=
  ∃ queues : List String, ⟨.keys agedQueuePattern, queues⟩ ∈ h ∧ queue ∈ queues

/-- 走査でキュー `queue` の中に見つけたタスク。 -/
def Listed (queue id : String) (h : Acts) : Prop :=
  ∃ ids : List String, ⟨.lrange queue, ids⟩ ∈ h ∧ id ∈ ids

/-- 書き込みを出す関数の種類。`directClaim` は取り出しを経ない確保、`directPop` は選ばれたものに限らないキュー
からの取り出し、`directRecover` は走査を経ない回収、`web` はウェブの録画サービスへの要求と停止の対象の調査である。 -/
inductive Writer where
  | publish | claim | directClaim | directPop | directRecover | fetch | worker | result | fail | renew | recover
  | moveBack | timeout | web
  deriving DecidableEq

/-- 実行に現れる書き込みの種類と、取り出しを行うポッドの範囲。 -/
structure Scope where
  writers : List Writer
  pod : String → Prop

/-- 範囲 `sc` の関数が命令を出すときに、自分の命令の列が満たすこと。 -/
def Expected (sc : Scope) : Cmd → Acts → Prop
  | .publishTx _ task, h =>
      .publish ∈ sc.writers ∧ pending h = some task.id ∧ task.state = .enqueued ∧
        (task.action ≠ "stop" → task.workerID = -1)
  | .claimTx podID id now read, h =>
      .claim ∈ sc.writers ∧ (∃ h', h = ⟨.timeNow, now⟩ :: ⟨.getTask (.claim podID) id, some read⟩ :: h') ∧
        (inFlight h = some (podID, id) ∨ .directClaim ∈ sc.writers)
  | .setWorker id _ read, h => .worker ∈ sc.writers ∧ ∃ h', h = ⟨.getTask .worker id, some read⟩ :: h'
  | .setResult id state _ now read, h =>
      .result ∈ sc.writers ∧ ∃ h', h = ⟨.timeNow, now⟩ :: ⟨.getTask (.result state) id, some read⟩ :: h'
  | .delDedupe id key, h =>
      .result ∈ sc.writers ∧ ∃ state message now read h', h = ⟨.setResult id state message now read, ()⟩ :: h' ∧
        state.isTerminal = true ∧ key = read.dedupeKey
  | .renewTx podID id now read, h =>
      .renew ∈ sc.writers ∧ ∃ h', h = ⟨.timeNow, now⟩ :: ⟨.getTask (.renew podID) id, some read⟩ ::
        ⟨.getLease (.renew podID) id, some podID⟩ :: h'
  | .recoverTx _ id now read, h =>
      .recover ∈ sc.writers ∧ read.isTerminal = false ∧ ∃ h', h = ⟨.timeNow, now⟩ ::
        ⟨.getTask .recover id, some read⟩ :: ⟨.getLease .recover id, none⟩ :: h'
  | .moveBackTx _ id read, h => .moveBack ∈ sc.writers ∧ ∃ h', h = ⟨.getTask .moveBack id, some read⟩ :: h'
  | .timeoutTx id queue watched age read, h =>
      .timeout ∈ sc.writers ∧ read.state = .enqueued ∧ taskTimeout < age ∧ ∃ (position now : Nat) (h' : Acts),
        h = ⟨.lpos queue id, some position⟩ :: ⟨.timeNow, now⟩ :: ⟨.getTask .aged id, some read⟩ ::
          ⟨.watch id queue, watched⟩ :: h' ∧ age = now - read.enqueuedTime ∧ Scanned queue h'
  | .setTarget podID id _ _ read, h =>
      .fetch ∈ sc.writers ∧ read.action = "stop" ∧ ⟨.getTask .deferTask id, some read⟩ ∈ h ∧
        inFlight h = some (podID, id)
  | .deferTx podID id _, h => .fetch ∈ sc.writers ∧ inFlight h = some (podID, id)
  | .lrem queue id, h =>
      (.timeout ∈ sc.writers ∧ ∃ h', h = ⟨.getTask .aged id, none⟩ :: h' ∧ Scanned queue h' ∧
        Listed queue id h') ∨
      (.recover ∈ sc.writers ∧ ∃ (found : Option Task) (h' : Acts), h = ⟨.getTask .recover id, found⟩ :: h' ∧
        (∀ t, found = some t → t.isTerminal = true) ∧ (Listed queue id h' ∨ .directRecover ∈ sc.writers)) ∨
      .fetch ∈ sc.writers ∧ ∃ podID h', h = ⟨.getTask (.claim podID) id, none⟩ :: h' ∧
        inFlight h = some (podID, id) ∧ queue = buildProcessingQueueKey podID
  | .lpush _ id, h =>
      .fetch ∈ sc.writers ∧ ∃ queue podID h', h = ⟨.lrem queue id, ()⟩ :: ⟨.getTask (.claim podID) id, none⟩ :: h' ∧
        inFlight h' = some (podID, id)
  | .getTask (.claim podID) id, h => inFlight h = some (podID, id) ∨ .directClaim ∈ sc.writers
  | .lremLast _ _, _ | .delLease _, _ => .fail ∈ sc.writers
  | .getTask (.stopLookup _ _) _, _ | .hasProxy _, _ | .httpPost _ _, _ => .web ∈ sc.writers
  | .brPopLPush podID queue, _ =>
      sc.pod podID ∧ (isValidQueueKey (splitColon queue) = true ∨ .directPop ∈ sc.writers)
  | _, _ => True

section Programs

-- 名前の比較を計算で進めない。
attribute [local irreducible] trimSpace

variable {sc : Scope} {h : Acts}

/-- 事後条件を問わずに `Expected` に従う。 -/
abbrev Safe (sc : Scope) {α : Type} (p : P α) (h : Acts) : Prop :=
  p.Follows (Expected sc) (fun _ _ => True) h

theorem Safe.bind {α β : Type} {p : P α} {f : α → P β} (hp : Safe sc p h) (hf : ∀ a h, Safe sc (f a) h) :
    Safe sc (p >>= f) h :=
  Prog.Follows.bind (fun a h' _ => hf a h') hp

/-! ## `redis_queue.go` -/

theorem safe_publishTaskToRegion {cmd action channel requestID payload region} (hpublish : .publish ∈ sc.writers) :
    Safe sc (publishTaskToRegion cmd action channel requestID payload region) h := by
  refine .perform trivial fun dup => ?_
  cases dup with
  | true => trivial
  | false =>
      refine .perform trivial fun id => ?_
      refine .perform trivial fun now => ?_
      exact .perform ⟨hpublish, rfl, rfl, fun _ => rfl⟩ fun _ => trivial

theorem safe_stopTargetPod {orig id} : Safe sc (stopTargetPod orig id) h := by
  simp only [stopTargetPod]
  split
  · trivial
  · refine .perform trivial fun holder => ?_
    cases holder <;> trivial

theorem safe_publishStopTaskFor {id requestID region} (hpublish : .publish ∈ sc.writers) :
    Safe sc (publishStopTaskFor id requestID region) h := by
  refine .perform trivial fun found => ?_
  cases found with
  | none => trivial
  | some orig =>
      refine safe_stopTargetPod.bind fun target h => ?_
      refine .perform trivial fun dup => ?_
      cases dup with
      | true => trivial
      | false =>
          refine .perform trivial fun stopID => ?_
          refine .perform trivial fun now => ?_
          exact .perform ⟨hpublish, rfl, rfl, fun ha => absurd rfl ha⟩ fun _ => trivial

theorem safe_claimTaskWithLease {id podID} (hclaim : .claim ∈ sc.writers)
    (hh : inFlight h = some (podID, id) ∨ Writer.directClaim ∈ sc.writers) :
    Safe sc (claimTaskWithLease id podID) h := by
  refine .perform hh fun found => ?_
  cases found with
  | none => trivial
  | some task =>
      refine .perform trivial fun now => ?_
      exact .perform ⟨hclaim, ⟨h, rfl⟩, hh⟩ fun _ => trivial

theorem safe_updateTaskWorker {id workerID} (hworker : .worker ∈ sc.writers) : Safe sc (updateTaskWorker id workerID) h := by
  refine .perform trivial fun found => ?_
  cases found with
  | none => trivial
  | some task => exact .perform ⟨hworker, h, rfl⟩ fun _ => trivial

theorem safe_updateTaskResult {id state message} (hresult : .result ∈ sc.writers) :
    Safe sc (updateTaskResult id state message) h := by
  refine .perform trivial fun found => ?_
  cases found with
  | none => trivial
  | some task =>
      refine .perform trivial fun now => ?_
      refine .perform ⟨hresult, h, rfl⟩ fun _ => ?_
      split
      · rename_i hterm
        exact .perform ⟨hresult, state, message, now, task, _, rfl, hterm, rfl⟩ fun _ => trivial
      · trivial

theorem safe_renewLease {id podID} (hrenew : .renew ∈ sc.writers) : Safe sc (renewLease id podID) h := by
  refine .perform trivial fun holder => ?_
  split
  · trivial
  · rename_i hholder
    obtain rfl : holder = some podID := not_not.mp hholder
    refine .perform trivial fun found => ?_
    cases found with
    | none => trivial
    | some task =>
        refine .perform trivial fun now => ?_
        exact .perform ⟨hrenew, h, rfl⟩ fun _ => trivial

theorem Listed.cons {queue id} {a : Act Cmd Cmd.Resp} (hl : Listed queue id h) : Listed queue id (a :: h) := by
  obtain ⟨ids, hmem, hid⟩ := hl
  exact ⟨ids, List.mem_cons_of_mem _ hmem, hid⟩

theorem Scanned.cons {queue} {a : Act Cmd Cmd.Resp} (hs : Scanned queue h) : Scanned queue (a :: h) := by
  obtain ⟨queues, hmem, hq⟩ := hs
  exact ⟨queues, List.mem_cons_of_mem _ hmem, hq⟩

theorem safe_checkAndRecoverTask {id queue} (hrecover : .recover ∈ sc.writers)
    (hl : Listed queue id h ∨ Writer.directRecover ∈ sc.writers) : Safe sc (checkAndRecoverTask id queue) h := by
  refine .perform trivial fun holder => ?_
  cases holder with
  | some p => trivial
  | none =>
      have hl' := hl.imp_left (Listed.cons (a := ⟨.getLease .recover id, none⟩))
      refine .perform trivial fun found => ?_
      cases found with
      | none => exact ⟨.inr (.inl ⟨hrecover, none, _, rfl, by simp, hl'⟩), fun _ => trivial⟩
      | some task =>
          refine .ite (fun hterm => ?_) fun hterm => ?_
          · exact ⟨.inr (.inl ⟨hrecover, some task, _, rfl, by simp [hterm], hl'⟩), fun _ => trivial⟩
          · refine .perform trivial fun now => ?_
            exact ⟨⟨hrecover, by simpa using hterm, h, rfl⟩, fun _ => trivial⟩

theorem safe_cleanupExpiredLeases (hrecover : .recover ∈ sc.writers) : Safe sc cleanupExpiredLeases h := by
  refine .perform trivial fun queues => ?_
  refine .forEach (fun queue _ h _ => ?_) trivial
  refine .perform trivial fun ids => ?_
  let P : Acts → Prop := fun h => ⟨.lrange queue, ids⟩ ∈ h
  refine Prog.Follows.mono (fun _ _ hE => hE) (fun _ _ _ => trivial)
    (Prog.Follows.forEach (P := P) (fun id hid h hP => ?_) List.mem_cons_self)
  refine (safe_checkAndRecoverTask hrecover (.inl ⟨ids, hP, hid⟩)).extends.mono (fun _ _ hE => hE) ?_
  exact fun _ _ hsub => hsub.2 hP

theorem safe_checkAndTimeoutEnqueuedTask {id queue} (htimeout : .timeout ∈ sc.writers) (hs : Scanned queue h)
    (hl : Listed queue id h) : Safe sc (checkAndTimeoutEnqueuedTask id queue) h := by
  refine .perform trivial fun watched => ?_
  refine .perform trivial fun found => ?_
  cases found with
  | none => exact ⟨.inl ⟨htimeout, _, rfl, hs.cons, hl.cons⟩, fun _ => trivial⟩
  | some task =>
      dsimp only
      split
      · trivial
      · rename_i hstate
        refine .perform trivial fun now => ?_
        split
        · trivial
        · rename_i hage
          refine .perform trivial fun position => ?_
          cases position with
          | none => trivial
          | some n =>
              exact .perform ⟨htimeout, not_not.mp hstate, Nat.lt_of_not_le hage, n, now, h, rfl, rfl, hs⟩
                fun _ => trivial

theorem safe_cleanupAgedTasks (htimeout : .timeout ∈ sc.writers) : Safe sc cleanupAgedTasks h := by
  refine .perform trivial fun queues => ?_
  -- 走査で得た一覧は、以後も自分の列に残る。
  let P : Acts → Prop := fun h => ⟨.keys agedQueuePattern, queues⟩ ∈ h
  refine Prog.Follows.mono (fun _ _ hE => hE) (fun _ _ _ => trivial)
    (Prog.Follows.forEach (P := P) (fun queue hq h hP => ?_) List.mem_cons_self)
  refine .perform trivial fun ids => ?_
  let P' : Acts → Prop := fun h => P h ∧ ⟨.lrange queue, ids⟩ ∈ h
  refine Prog.Follows.mono (fun _ _ hE => hE) (fun _ _ hP' => hP'.1)
    (Prog.Follows.forEach (P := P') (fun id hid h hP' => ?_) ⟨List.mem_cons_of_mem _ hP, List.mem_cons_self⟩)
  refine (safe_checkAndTimeoutEnqueuedTask htimeout ⟨queues, hP'.1, hq⟩ ⟨ids, hP'.2, hid⟩).extends.mono
    (fun _ _ hE => hE) ?_
  exact fun _ _ hsub => ⟨hsub.2 hP'.1, hsub.2 hP'.2⟩

/-! ## `manager.go` と `web_recorder_proxy.go` -/

theorem follows_retargetStop {task} :
    (retargetStop task).Follows (Expected sc)
      (fun r h' => (∀ u, r.2 = some u → task.action = "stop") ∧ inFlight h' = inFlight h) h := by
  simp only [retargetStop]
  split
  · exact ⟨by simp, rfl⟩
  · rename_i hstop
    have hstop : task.action = "stop" := not_not.mp hstop
    split
    · exact ⟨by simp, rfl⟩
    · split
      · exact ⟨by simp, rfl⟩
      · refine .perform trivial fun found => ?_
        cases found <;> dsimp only <;> split <;> exact ⟨fun _ _ => hstop, rfl⟩

theorem follows_deferTaskForAnotherPod {podID id} (hfetch : .fetch ∈ sc.writers) (hh : inFlight h = some (podID, id)) :
    (deferTaskForAnotherPod podID id).Follows (Expected sc)
      (fun skip h' => skip = false → inFlight h' = some (podID, id)) h := by
  refine .perform trivial fun found => ?_
  cases found with
  | none => exact fun _ => hh
  | some task =>
      refine Prog.Follows.bind (fun r h' hr => ?_) follows_retargetStop.extends
      obtain ⟨target, update⟩ := r
      obtain ⟨⟨hstop, hflight⟩, hsub⟩ := hr
      have hh' : inFlight h' = some (podID, id) := hflight.trans hh
      have rest : ∀ h', inFlight h' = some (podID, id) → Prog.Follows (Expected sc)
          (fun skip h' => skip = false → inFlight h' = some (podID, id)) (do
            if target = "" ∨ target = podID then return false
            perform (.deferTx podID id target)
            return true) h' := by
        intro h' hh'
        exact .ite (fun _ _ => hh') fun _ => .perform ⟨hfetch, hh'⟩ fun _ hfalse => nomatch hfalse
      cases update with
      | none => exact rest h' hh'
      | some u =>
          refine .perform ⟨hfetch, hstop u rfl, hsub List.mem_cons_self, hh'⟩ fun _ => ?_
          exact rest _ hh'

/-- 返るタスクは、確保のときに読んだ記録に、確保の変更を加えたものである。 -/
theorem follows_tryQueues {podID} (hfetch : .fetch ∈ sc.writers) (hclaim : .claim ∈ sc.writers)
    (hpod : sc.pod podID) : (queues : List String) → (∀ q ∈ queues, isValidQueueKey (splitColon q) = true) →
      ∀ {h}, (tryQueues podID queues).Follows (Expected sc) (fun fetched h' => ∀ t, fetched = some t →
        ∃ id read now queue, ⟨.getTask (.claim podID) id, some read⟩ ∈ h' ∧
          t = { read.claimed podID now with sourceQueue := queue }) h
  | [], _, _ => fun _ ht => by cases ht
  | queue :: queues, hq, h => by
      have rest := @follows_tryQueues podID hfetch hclaim hpod queues
        fun q hmem => hq q (List.mem_cons_of_mem _ hmem)
      refine .perform ⟨hpod, .inl (hq queue List.mem_cons_self)⟩ fun popped => ?_
      cases popped with
      | none => exact rest
      | some id =>
          refine Prog.Follows.bind (fun skip h hskip => ?_) (follows_deferTaskForAnotherPod hfetch rfl)
          cases skip with
          | true => exact rest
          | false =>
              have hh : inFlight h = some (podID, id) := hskip rfl
              refine .perform (.inl hh) fun found => ?_
              cases found with
              | none =>
                  refine .perform (.inr (.inr ⟨hfetch, podID, h, rfl, hh, rfl⟩)) fun _ => ?_
                  exact .perform ⟨hfetch, _, podID, h, rfl, hh⟩ fun _ _ ht => by cases ht
              | some task =>
                  refine .perform trivial fun now => ?_
                  refine .perform ⟨hclaim, ⟨h, rfl⟩, .inl hh⟩ fun _ t ht => ?_
                  exact ⟨id, task, now, queue, by simp, (Option.some.inj ht).symm⟩

theorem safe_gatherKeys : (patterns : List String) → ∀ {h}, Safe sc (gatherKeys patterns) h
  | [], _ => trivial
  | _ :: patterns, _ => by
      refine .perform trivial fun keys => ?_
      refine (safe_gatherKeys patterns).bind fun rest h => ?_
      trivial

theorem follows_getPrioritizedQueues {region patterns} :
    (getPrioritizedQueues region patterns).Follows (Expected sc)
      (fun queues _ => ∀ q ∈ queues, isValidQueueKey (splitColon q) = true) h := by
  refine Prog.Follows.bind (fun keys h _ => ?_) (safe_gatherKeys patterns)
  intro q hq
  simp only [List.mem_eraseDups, List.mem_append, List.mem_filter] at hq
  obtain (h | h) | h := hq <;> exact h.1.2

theorem follows_fetchTaskFromRedis {podID region patterns} (hfetch : .fetch ∈ sc.writers)
    (hclaim : .claim ∈ sc.writers) (hpod : sc.pod podID) :
    (fetchTaskFromRedis podID region patterns).Follows (Expected sc) (fun fetched h' => ∀ t, fetched = some t →
      ∃ id read now queue, ⟨.getTask (.claim podID) id, some read⟩ ∈ h' ∧
        t = { read.claimed podID now with sourceQueue := queue }) h :=
  Prog.Follows.bind (fun queues _ hq => follows_tryQueues hfetch hclaim hpod queues hq) follows_getPrioritizedQueues

theorem Safe.of_follows {α : Type} {p : P α} {Q : α → Acts → Prop} (hp : p.Follows (Expected sc) Q h) : Safe sc p h :=
  hp.mono (fun _ _ hE => hE) fun _ _ _ => trivial

theorem safe_makeHTTPRequest {podID request} (hweb : .web ∈ sc.writers) :
    (n : Nat) → ∀ {lastErr h}, Safe sc (makeHTTPRequest podID request lastErr n) h
  | 0, _, _ => trivial
  | n + 1, _, _ => by
      refine .perform hweb fun response => ?_
      cases response with
      | ok r => trivial
      | error e => exact safe_makeHTTPRequest hweb n

theorem safe_checkedRequest {pod request accepted what} (hweb : .web ∈ sc.writers) :
    Safe sc (checkedRequest pod request accepted what) h := by
  refine (safe_makeHTTPRequest hweb pod.maxRetries).bind fun response h => ?_
  cases response with
  | error e => trivial
  | ok r => dsimp only; split <;> trivial

theorem safe_validateRedisTask {task} : Safe sc (validateRedisTask task) h := by
  simp only [validateRedisTask]
  split
  · trivial
  · exact .ite (fun _ => .perform trivial fun _ => trivial) fun _ => trivial

theorem safe_proxyProcessRedisTask {pod task} (hweb : .web ∈ sc.writers) :
    Safe sc (proxyProcessRedisTask pod task) h := by
  refine safe_validateRedisTask.bind fun invalid h => ?_
  cases invalid with
  | some e => trivial
  | none =>
      dsimp only
      split
      · simp only [proxyStartTask]
        repeat' split
        all_goals first | trivial | exact safe_checkedRequest hweb
      · split
        · simp only [proxyStopTask]
          repeat' split
          all_goals first | trivial | exact safe_checkedRequest hweb
        · split
          · refine (safe_makeHTTPRequest hweb pod.maxRetries).bind fun response h => ?_
            cases response with
            | error e => trivial
            | ok r => dsimp only; split <;> trivial
          · trivial

theorem safe_startTask {pod task} (hworker : .worker ∈ sc.writers) (hweb : .web ∈ sc.writers) :
    Safe sc (startTask pod task) h := by
  simp only [startTask]
  split
  · refine .perform trivial fun _ => ?_
    refine (safe_proxyProcessRedisTask hweb).bind fun err h => ?_
    cases err <;> trivial
  · refine .perform trivial fun assigned => ?_
    cases assigned with
    | error e => trivial
    | ok workerID => exact (safe_updateTaskWorker hworker).bind fun _ _ => trivial

theorem safe_statusTask {pod task} (hweb : .web ∈ sc.writers) : Safe sc (statusTask pod task) h := by
  refine .ite (fun _ => ?_) fun _ => ?_
  · refine .ite (fun _ => trivial) fun _ => ?_
    refine .perform hweb fun ready => ?_
    cases ready with
    | true => exact safe_proxyProcessRedisTask hweb
    | false => trivial
  · exact .ite (fun _ => trivial) fun _ => ⟨trivial, fun _ => trivial⟩

theorem safe_recordStopped {id message} (hresult : .result ∈ sc.writers) :
    Safe sc (do let _ ← updateTaskResult id .stopped message; return message) h :=
  (safe_updateTaskResult hresult).bind fun _ _ => trivial

theorem safe_stopOriginal {pod task id} (hresult : .result ∈ sc.writers) (hweb : .web ∈ sc.writers) :
    Safe sc (stopOriginal pod task id) h := by
  refine (safe_updateTaskResult hresult).bind fun _ h => ?_
  refine .perform hweb fun found => ?_
  cases found with
  | none => exact safe_recordStopped hresult
  | some original =>
      dsimp only
      split
      · exact safe_recordStopped hresult
      · split
        · refine .perform hweb fun ready => ?_
          cases ready with
          | true => exact (safe_proxyProcessRedisTask hweb).bind fun _ _ => safe_recordStopped hresult
          | false => exact safe_recordStopped hresult
        · refine .perform trivial fun target => ?_
          cases target with
          | none => exact safe_recordStopped hresult
          | some workerID => exact .perform trivial fun stopped => safe_recordStopped hresult

theorem safe_stopTask {pod task} (hresult : .result ∈ sc.writers) (hweb : .web ∈ sc.writers) :
    Safe sc (stopTask pod task) h := by
  simp only [stopTask]
  split
  · trivial
  · split
    · trivial
    · exact (safe_stopOriginal hresult hweb).bind fun _ _ => (safe_updateTaskResult hresult).bind fun _ _ => trivial

theorem safe_recordOutcome {id err} (hresult : .result ∈ sc.writers) : Safe sc (recordOutcome id err) h := by
  cases err <;> exact (safe_updateTaskResult hresult).bind fun _ _ => trivial

theorem safe_processRedisTask {pod task} (hworker : .worker ∈ sc.writers) (hresult : .result ∈ sc.writers)
    (hweb : .web ∈ sc.writers) : Safe sc (processRedisTask pod task) h := by
  refine safe_validateRedisTask.bind fun invalid h => ?_
  cases invalid with
  | some e => exact (safe_updateTaskResult hresult).bind fun _ _ => trivial
  | none =>
      dsimp only
      split
      · exact (safe_startTask hworker hweb).bind fun _ _ => safe_recordOutcome hresult
      · split
        · exact safe_stopTask hresult hweb
        · split
          · exact (safe_statusTask hweb).bind fun _ _ => safe_recordOutcome hresult
          · exact safe_recordOutcome hresult

theorem safe_subscribeOnce {pod patterns} (hfetch : .fetch ∈ sc.writers) (hclaim : .claim ∈ sc.writers)
    (hworker : .worker ∈ sc.writers) (hresult : .result ∈ sc.writers) (hweb : .web ∈ sc.writers)
    (hpod : sc.pod pod.id) : Safe sc (subscribeOnce pod patterns) h := by
  refine (Safe.of_follows (follows_fetchTaskFromRedis hfetch hclaim hpod)).bind fun fetched h => ?_
  cases fetched with
  | none => trivial
  | some task => exact safe_processRedisTask hworker hresult hweb

theorem safe_hasAssignedWorker {pod task} : Safe sc (hasAssignedWorker pod task) h :=
  .ite (fun _ => trivial) fun _ => ⟨trivial, fun _ => trivial⟩

theorem safe_failTask {pod task reason} (hresult : .result ∈ sc.writers) (hfail : .fail ∈ sc.writers) :
    Safe sc (failTask pod task reason) h := by
  refine .perform trivial fun begun => ?_
  cases begun with
  | false => trivial
  | true =>
      refine safe_hasAssignedWorker.bind fun assigned h => ?_
      refine (safe_updateTaskResult hresult).bind fun _ h => ?_
      cases assigned with
      | false => trivial
      | true => exact .perform hfail fun _ => ⟨hfail, fun _ => trivial⟩

theorem safe_handleTaskCompletion {pod c} (hresult : .result ∈ sc.writers) (hfail : .fail ∈ sc.writers) :
    Safe sc (handleTaskCompletion pod c) h := by
  have record : ∀ h, Safe sc (recordCompletion c) h := fun h => (safe_updateTaskResult hresult).bind fun _ _ => trivial
  refine .ite (fun _ => ?_) fun _ => record h
  refine .perform trivial fun found => ?_
  cases found with
  | some task => exact safe_failTask hresult hfail
  | none => exact record _

theorem safe_moveTaskBackToMainQueue {podID id} (hmoveBack : .moveBack ∈ sc.writers) :
    Safe sc (moveTaskBackToMainQueue podID id) h := by
  refine .perform trivial fun found => ?_
  cases found with
  | none => trivial
  | some task => exact ⟨⟨hmoveBack, h, rfl⟩, fun _ => trivial⟩

theorem safe_popAndClaim {podID queue} (hclaim : .claim ∈ sc.writers) (hpop : .directPop ∈ sc.writers)
    (hpod : sc.pod podID) : Safe sc (popAndClaim podID queue) h := by
  refine .perform ⟨hpod, .inr hpop⟩ fun popped => ?_
  cases popped with
  | none => trivial
  | some id => exact (safe_claimTaskWithLease hclaim (.inl rfl)).bind fun _ _ => trivial

end Programs

/-- 呼び出しの中で書き込みを出す関数の種類。 -/
def Call.writers : Call → List Writer
  | .publish .. | .publishStop .. => [.publish]
  | .subscribe .. => [.fetch, .claim, .worker, .result, .web]
  | .completion .. => [.result, .fail]
  | .renew .. => [.renew]
  | .moveBack .. => [.moveBack]
  | .cleanupExpiredLeases => [.recover]
  | .recover .. => [.recover, .directRecover]
  | .cleanupAgedTasks => [.timeout]
  | .fetch .. => [.fetch, .claim]
  | .popAndClaim .. => [.claim, .directPop]
  | .claim .. => [.claim, .directClaim]
  | .result .. => [.result]

/-- 取り出しを行うポッド。 -/
def Call.popper : Call → Option String
  | .subscribe pod _ => some pod.id
  | .fetch podID _ _ => some podID
  | .popAndClaim podID _ => some podID
  | _ => none

/-- 呼び出しが範囲に収まる。 -/
def Call.Within (sc : Scope) (k : Call) : Prop :=
  k.writers ⊆ sc.writers ∧ ∀ podID, k.popper = some podID → sc.pod podID

/-- 範囲に収まる呼び出しの本体は `Expected` に従う。 -/
theorem bodies {g : Guard machine} {sc : Scope} (hw : ∀ k, g.call k → k.Within sc) : Bodies g (Expected sc) := by
  intro k hk
  obtain ⟨hw, hp⟩ := hw k hk
  cases k <;> simp only [Call.writers, List.cons_subset, List.nil_subset, and_true] at hw
  case publish => exact (safe_publishTaskToRegion hw).bind fun _ _ => trivial
  case publishStop => exact (safe_publishStopTaskFor hw).bind fun _ _ => trivial
  case subscribe => exact safe_subscribeOnce hw.1 hw.2.1 hw.2.2.1 hw.2.2.2.1 hw.2.2.2.2 (hp _ rfl)
  case completion => exact safe_handleTaskCompletion hw.1 hw.2
  case renew => exact (safe_renewLease hw).bind fun _ _ => trivial
  case moveBack => exact safe_moveTaskBackToMainQueue hw
  case cleanupExpiredLeases => exact safe_cleanupExpiredLeases hw
  case cleanupAgedTasks => exact safe_cleanupAgedTasks hw
  case fetch => exact (Safe.of_follows (follows_fetchTaskFromRedis hw.1 hw.2 (hp _ rfl))).bind fun _ _ => trivial
  case popAndClaim => exact safe_popAndClaim hw.1 hw.2 (hp _ rfl)
  case claim => exact (safe_claimTaskWithLease hw.1 (.inr hw.2)).bind fun _ _ => trivial
  case result => exact (safe_updateTaskResult hw).bind fun _ _ => trivial
  case recover => exact safe_checkAndRecoverTask hw.1 (.inr hw.2)

/-- すべての呼び出しを含む範囲。 -/
def Scope.all : Scope where
  writers := [.publish, .claim, .directClaim, .directPop, .directRecover, .fetch, .worker, .result, .fail, .renew,
    .recover, .moveBack, .timeout, .web]
  pod := fun _ => True

theorem bodies_all (g : Guard machine) : Bodies g (Expected .all) :=
  bodies fun k _ => ⟨by cases k <;> simp [Call.writers, Scope.all], fun _ _ => trivial⟩

/-- 公開のほかの書き込みをすべて含む範囲。 -/
def podScope : Scope where
  writers := [.claim, .directClaim, .directPop, .directRecover, .fetch, .worker, .result, .fail, .renew, .recover,
    .moveBack, .timeout, .web]
  pod := fun _ => True

/-- 公開しない命令が満たす条件には、公開する呼び出しだけを確かめればよい。 -/
theorem bodies_publishing {g : Guard machine} {E : Cmd → Acts → Prop} (hpod : ∀ c h, Expected podScope c h → E c h)
    (hpublish : ∀ k, g.call k → .publish ∈ k.writers → (machine.body k).Follows E (fun _ _ => True) []) : Bodies g E := by
  have hpods : Bodies (M := machine) (.ofCalls fun k => .publish ∉ k.writers) (Expected podScope) := by
    refine bodies fun k hk => ⟨?_, fun _ _ => trivial⟩
    cases k <;> simp [Guard.ofCalls, Call.writers, podScope] at hk ⊢
  intro k hk
  by_cases hwrites : .publish ∈ k.writers
  · exact hpublish k hk hwrites
  · exact (hpods k hwrites).mono hpod fun _ _ _ => trivial

end RtcEgress.Queue
