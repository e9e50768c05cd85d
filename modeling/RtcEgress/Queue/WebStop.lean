import RtcEgress.Queue.Lemmas.Base

/-!
# ウェブの録画の停止は、録画サービスに届くか

`stopTask` は、もとの記録の `PodID` と `WorkerID` を見て、持ち主のない記録をサービスに問い合わせずに `STOPPED` に
する。ウェブの経路では `UpdateTaskWorker` が呼ばれず、`WorkerID` は確保のときの `-1` のままである。
-/

namespace RtcEgress.Queue

open RtcEgress.Lib

/-- 停止の処理のうち、外から見える出来事。`lookedUp` は、調べた記録が、要求を送る場合に当たるかどうかを持つ。 -/
inductive Mark where
  | accepted (podID id : String)
  | marking (id : String) (processing : Bool)
  | lookedUp (podID id : String) (assigned : Bool)
  | proxied (podID : String) (ready : Bool)
  | requested (podID id : String)
  | stopped (id : String)
  deriving DecidableEq

/-- 記録が持ち主とワーカーを示し、ウェブの録画である。 -/
def isAssignedWeb (mode : WorkerManagerMode) : Option Task → Bool
  | some t => trimSpace t.podID ≠ "" && 0 ≤ t.workerID && isWebTask mode t
  | none => false

def Mark.of : Act Cmd Cmd.Resp → Option Mark
  | ⟨.httpPost podID request, response⟩ =>
      match request.action, response with
      | .start, .ok r => if r.status ∈ ["success", "started"] then some (.accepted podID request.taskID) else none
      | .stop, _ => some (.requested podID request.taskID)
      | _, _ => none
  | ⟨.getTask (.result .stopping) id, some t⟩ => some (.marking id (t.state = .processing))
  | ⟨.getTask (.stopLookup podID mode) id, found⟩ => some (.lookedUp podID id (isAssignedWeb mode found))
  | ⟨.hasProxy podID, ready⟩ => some (.proxied podID ready)
  | ⟨.setResult id .stopped _ _ _, _⟩ => some (.stopped id)
  | _ => none

def marks (tr : Trace) : List (Nat × Mark) := tr.filterMap fun e => (Mark.of e.act).map (e.tid, ·)

/-- ポッド `podID` で受け付けられた録画 `id` について、スレッド `i` がそのポッドで停止を処理し、まだ処理中の記録を
調べ、`STOPPED` を書く。`mid` は、調べてから書くまでの出来事である。 -/
def WebStop (ms : List (Nat × Mark)) (i : Nat) (podID id : String) (assigned : Bool) (mid : List (Nat × Mark)) : Prop :=
  ∃ later marked before, ms = later ++ (i, .stopped id) :: (mid ++ (i, .lookedUp podID id assigned) ::
      (marked ++ (i, .marking id true) :: before)) ∧ ∃ j, (j, .accepted podID id) ∈ before

/-- どの停止も、`STOPPED` を書く前に、録画サービスに停止を求める。 -/
def StopsRecorder (g : Guard machine) : Prop :=
  ∀ p, Run g (.start .init) p → ∀ i podID id assigned mid, WebStop (marks p.trace) i podID id assigned mid →
    (i, .requested podID id) ∈ mid

/-! ## 届かない実行 -/

def webPod : Pod := { nativePod "p" with mode := .modeWeb }

/-- ウェブの録画 `a` をポッド `p` が始め、`b` がそれを止める。 -/
def startThenStop : List (Move machine) :=
  begin (.publish "record" "start" "ch" "r1" (some [("layout", .str "freestyle"), ("url", .str "u")]) "") ++
    advance 0 1 ++ advanceWith 0 { text := "a" } ++ advance 0 2 ++
  begin (.subscribe webPod ["egress:web:*"]) ++ advance 1 9 ++
    advanceWith 1 { http := .ok ⟨"started", ""⟩ } ++ advance 1 3 ++
  begin (.publishStop "a" "r2" "") ++
    advance 2 2 ++ advanceWith 2 { text := "b" } ++ advance 2 2 ++
  begin (.subscribe webPod ["egress:stop:p"]) ++ advance 3 15

theorem not_stopsRecorder : ¬StopsRecorder entries := by
  intro h
  have hplay : (Pool.play startThenStop (.start .init)).map (fun p => marks p.trace) =
      some [(3, .stopped "a"), (3, .lookedUp "p" "a" false), (3, .marking "a" true), (1, .accepted "p" "a")] := by
    decide
  obtain ⟨p, hp, hmarks⟩ := Option.map_eq_some_iff.mp hplay
  have hrun : Run entries (.start .init) p := Pool.play_sound (Pool.allMeet_ofCalls (by decide)) hp
  have hstop : WebStop (marks p.trace) 3 "p" "a" false [] := by
    rw [hmarks]
    exact ⟨[], [], _, rfl, 1, by decide⟩
  exact absurd (h p hrun 3 "p" "a" false [] hstop) (by decide)

/-! ## 自分の出来事の列 -/

abbrev ownMarks (h : Acts) : List Mark := h.filterMap Mark.of

/-- まだ対象を調べていない。 -/
def NoLookup (ms : List Mark) : Prop := ∀ podID id b, .lookedUp podID id b ∉ ms

/-- 調べた後の出来事。要求を送る場合に当たらなければ要求はなく、当たれば、代理があるときには要求がある。 -/
def Outcome (podID id : String) (m : List Mark) : Bool → Prop
  | false => .requested podID id ∉ m
  | true => ∃ ready, .proxied podID ready ∈ m ∧ (ready = true → .requested podID id ∈ m)

/-- 一度だけ調べた後である。 -/
def LookedOnce (ms : List Mark) : Prop :=
  ∃ m₁ podID id b m₂, ms = m₁ ++ .lookedUp podID id b :: m₂ ∧ NoLookup m₁ ∧ NoLookup m₂ ∧ Outcome podID id m₁ b

def Tracked (ms : List Mark) : Prop :=
  ∀ m₁ podID id b m₂, ms = m₁ ++ .lookedUp podID id b :: m₂ → Outcome podID id m₁ b

theorem NoLookup.tracked {ms : List Mark} (h : NoLookup ms) : Tracked ms := by
  rintro m₁ podID id b m₂ rfl
  exact absurd (by simp) (h podID id b)

theorem LookedOnce.tracked {ms : List Mark} (h : LookedOnce ms) : Tracked ms := by
  obtain ⟨m₁, podID, id, b, m₂, rfl, h₁, h₂, ho⟩ := h
  intro n₁ podID' id' b' n₂ heq
  obtain ⟨l, rfl, hl⟩ | ⟨l, rfl, hl⟩ := List.append_eq_append_iff.mp heq
  · cases l with
    | nil =>
        cases hl
        simpa using ho
    | cons m l =>
        cases hl
        exact absurd (by simp) (h₂ podID' id' b')
  · cases l with
    | nil =>
        cases hl
        simpa using ho
    | cons m l =>
        cases hl
        exact absurd (by simp) (h₁ podID' id' b')

/-- 調べることにも、要求を送ることにも関わらない出来事。 -/
def Mark.Neutral : Mark → Prop
  | .accepted _ _ | .marking _ _ | .stopped _ => True
  | _ => False

theorem NoLookup.cons {ms : List Mark} (h : NoLookup ms) {m : Mark} (hm : ∀ podID id b, m ≠ .lookedUp podID id b) :
    NoLookup (m :: ms) := by
  intro podID id b hmem
  rcases List.mem_cons.mp hmem with heq | hmem
  · exact hm podID id b heq.symm
  · exact h podID id b hmem

theorem LookedOnce.cons {ms : List Mark} (h : LookedOnce ms) {m : Mark} (hm : m.Neutral) : LookedOnce (m :: ms) := by
  obtain ⟨m₁, podID, id, b, m₂, rfl, h₁, h₂, ho⟩ := h
  refine ⟨m :: m₁, podID, id, b, m₂, rfl, h₁.cons ?_, h₂, ?_⟩
  · rintro podID' id' b' rfl
    exact hm
  · cases b with
    | false =>
        intro hmem
        rcases List.mem_cons.mp hmem with rfl | hmem
        · exact hm
        · exact ho hmem
    | true =>
        obtain ⟨ready, hready, hreq⟩ := ho
        exact ⟨ready, List.mem_cons_of_mem _ hready, fun h => List.mem_cons_of_mem _ (hreq h)⟩

/-- 関わらない出来事で保たれ、結論を与える性質。 -/
structure Steady (I : List Mark → Prop) : Prop where
  cons : ∀ m ms, m.Neutral → I ms → I (m :: ms)
  tracked : ∀ ms, I ms → Tracked ms

theorem steady_noLookup : Steady NoLookup where
  cons _ _ hm h := h.cons fun _ _ _ heq => by rw [heq] at hm; exact hm
  tracked _ h := h.tracked

theorem steady_lookedOnce : Steady LookedOnce where
  cons _ _ hm h := h.cons hm
  tracked _ h := h.tracked

/-! ## 各関数が出す要求 -/

/-- 開始の要求は、代理を作った後に、確保した開始のタスクについて送る。`STOPPED` を書くときには、それまでの出来事が
`Tracked` である。 -/
def WebExpected : Cmd → Acts → Prop
  | .httpPost podID request, h => request.action = .start → ⟨.createProxy podID, ()⟩ ∈ h ∧
      ∃ id read, ⟨.getTask (.claim podID) id, some read⟩ ∈ h ∧ read.id = request.taskID ∧ read.action = "start"
  | .setResult _ .stopped _ _ _, h => Tracked (ownMarks h)
  | _, _ => True

theorem ownMarks_cons {a : Act Cmd Cmd.Resp} {h : Acts} :
    ownMarks (a :: h) = (Mark.of a).toList ++ ownMarks h := by
  unfold ownMarks
  rw [List.filterMap_cons]
  cases Mark.of a <;> rfl

theorem ownMarks_append {h₁ h₂ : Acts} : ownMarks (h₁ ++ h₂) = ownMarks h₁ ++ ownMarks h₂ := List.filterMap_append

theorem Steady.act {I : List Mark → Prop} (hI : Steady I) {a : Act Cmd Cmd.Resp} {h : Acts}
    (ha : ∀ m, Mark.of a = some m → m.Neutral) (hh : I (ownMarks h)) : I (ownMarks (a :: h)) := by
  rw [ownMarks_cons]
  cases hm : Mark.of a with
  | none => exact hh
  | some m => exact hI.cons m _ (ha m hm) hh

/-- ウェブの録画に関わらない命令。 -/
theorem neutral_of_expected {sc : Scope} (hweb : .web ∉ sc.writers) {c : Cmd} {h : Acts} (hE : Expected sc c h)
    (r : c.Resp) {m : Mark} (hm : Mark.of ⟨c, r⟩ = some m) : m.Neutral := by
  cases c
  case httpPost => exact absurd hE hweb
  case hasProxy => exact absurd hE hweb
  case getTask reader id =>
      cases reader
      case stopLookup => exact absurd hE hweb
      case result state =>
          cases state <;> cases r <;> simp [Mark.of] at hm
          subst hm
          trivial
      all_goals cases hm
  case setResult id state message now read =>
      cases state <;> cases hm
      trivial
  all_goals cases hm

/-- ウェブの録画に関わらないプログラムは、条件に従い、出来事の性質を保つ。 -/
theorem follows_of_safe {α : Type} {sc : Scope} (hweb : .web ∉ sc.writers) {I : List Mark → Prop} (hI : Steady I)
    {p : P α} {Q : α → Acts → Prop} {h : Acts} (hh : I (ownMarks h)) (hp : p.Follows (Expected sc) Q h) :
    p.Follows WebExpected (fun a h' => Q a h' ∧ I (ownMarks h')) h := by
  refine Prog.Follows.strengthen (I := fun h => I (ownMarks h)) (fun c h hh hE => ⟨?_, fun r => ?_⟩) hh hp
  · cases c
    case httpPost => exact absurd hE hweb
    case setResult id state message now read =>
        cases state
        case stopped => exact hI.tracked _ hh
        all_goals trivial
    all_goals trivial
  · exact hI.act (fun m hm => neutral_of_expected hweb hE r hm) hh

/-- 要求は、応答を得た回数だけ自分の列に並ぶ。 -/
theorem follows_makeHTTPRequest {podID : String} {request : WebRecorderRequest} :
    (n : Nat) → ∀ {lastErr h}, (∀ h', h ⊆ h' → WebExpected (.httpPost podID request) h') →
      (makeHTTPRequest podID request lastErr n).Follows WebExpected (fun _ h' =>
        ∃ responses : List (Except String WebRecorderResponse), (0 < n → responses ≠ []) ∧
          h' = (responses.map fun r => (⟨.httpPost podID request, r⟩ : Act Cmd Cmd.Resp)) ++ h) h
  | 0, _, _, _ => ⟨[], fun hn => absurd hn (Nat.lt_irrefl 0), rfl⟩
  | n + 1, lastErr, h, hE => by
      refine .perform (hE h fun _ ha => ha) fun response => ?_
      cases response with
      | ok r => exact ⟨[.ok r], fun _ => by simp, rfl⟩
      | error e =>
          refine (follows_makeHTTPRequest n fun h' hsub => hE h' fun _ ha => hsub (List.mem_cons_of_mem _ ha)).mono
            (fun _ _ hE => hE) fun _ h' ⟨responses, _, heq⟩ => ?_
          exact ⟨responses ++ [.error e], fun _ => by simp, by simp [heq]⟩

theorem follows_checkedRequest {pod : Pod} {request accepted what} {h : Acts}
    (hE : ∀ h', h ⊆ h' → WebExpected (.httpPost pod.id request) h') :
    (checkedRequest pod request accepted what).Follows WebExpected (fun _ h' =>
      ∃ responses : List (Except String WebRecorderResponse), responses ≠ [] ∧
        h' = (responses.map fun r => (⟨.httpPost pod.id request, r⟩ : Act Cmd Cmd.Resp)) ++ h) h := by
  refine Prog.Follows.bind (fun response h' hr => ?_) (follows_makeHTTPRequest pod.maxRetries hE)
  obtain ⟨responses, hne, heq⟩ := hr
  have hpost := hne pod.maxRetries_pos
  cases response with
  | error e => exact ⟨responses, hpost, heq⟩
  | ok r => exact .ite (fun _ => ⟨responses, hpost, heq⟩) fun _ => ⟨responses, hpost, heq⟩

/-- ウェブの録画に関わらない範囲。 -/
def nativeScope : Scope := { Scope.all with writers := Scope.all.writers.erase .web }

theorem web_not_mem_nativeScope : .web ∉ nativeScope.writers := by decide

section Programs

variable {pod : Pod} {task : Task} {h : Acts}

theorem follows_native {α : Type} {I : List Mark → Prop} (hI : Steady I) {p : P α} (hh : I (ownMarks h))
    (hp : Safe nativeScope p h) : p.Follows WebExpected (fun _ h' => I (ownMarks h')) h :=
  (follows_of_safe web_not_mem_nativeScope hI hh hp).mono (fun _ _ hE => hE) fun _ _ hQ => hQ.2

theorem follows_updateTaskResult {I : List Mark → Prop} (hI : Steady I) (hh : I (ownMarks h)) {id state message} :
    (updateTaskResult id state message).Follows WebExpected (fun _ h' => I (ownMarks h')) h :=
  follows_native hI hh (safe_updateTaskResult (by decide))

theorem Steady.requests {I : List Mark → Prop} (hI : Steady I) (podID : String) {request : WebRecorderRequest}
    (hneutral : request.action ≠ .stop) (hh : I (ownMarks h)) (responses : List (Except String WebRecorderResponse)) :
    I (ownMarks ((responses.map fun r => (⟨.httpPost podID request, r⟩ : Act Cmd Cmd.Resp)) ++ h)) := by
  induction responses with
  | nil => exact hh
  | cons r responses ih =>
      refine hI.act (fun m hm => ?_) ih
      unfold Mark.of at hm
      cases haction : request.action with
      | stop => exact absurd haction hneutral
      | status => simp [haction] at hm
      | start =>
          simp only [haction] at hm
          split at hm
          · split at hm
            · cases hm
              trivial
            · cases hm
          · rename_i heq
            cases heq
          · cases hm

/-- 代理による開始と問い合わせ。 -/
theorem follows_proxyProcessRedisTask {I : List Mark → Prop} (hI : Steady I) (hh : I (ownMarks h))
    (hstop : task.action ≠ "stop") (hstart : task.action = "start" → ⟨.createProxy pod.id, ()⟩ ∈ h ∧
      ∃ id read, ⟨.getTask (.claim pod.id) id, some read⟩ ∈ h ∧ read.id = task.id ∧ read.action = "start") :
    (proxyProcessRedisTask pod task).Follows WebExpected (fun _ h' => I (ownMarks h')) h := by
  refine Prog.Follows.bind (fun invalid h' hv => ?_) (follows_native hI hh safe_validateRedisTask).extends
  obtain ⟨hh', hsub⟩ := hv
  cases invalid with
  | some e => exact hh'
  | none =>
      refine .ite (fun ha => ?_) fun _ => .ite (fun ha => absurd ha hstop) fun _ => .ite (fun _ => ?_) fun _ => hh'
      · obtain ⟨hproxy, id, read, hread, hid, hact⟩ := hstart ha
        unfold proxyStartTask
        split
        · exact hh'
        · split
          · exact hh'
          · refine .ite (fun _ => hh') fun _ => ?_
            refine (follows_checkedRequest fun h'' hsub' _ => ?_).mono (fun _ _ hE => hE) ?_
            · exact ⟨hsub' (hsub hproxy), id, read, hsub' (hsub hread), hid, hact⟩
            · rintro _ _ ⟨responses, -, rfl⟩
              exact hI.requests pod.id (by simp) hh' responses
      · have hneutral : (⟨task.requestID, .status, task.id, "", []⟩ : WebRecorderRequest).action ≠ .stop := nofun
        refine Prog.Follows.bind (fun response h'' hr => ?_)
          (follows_makeHTTPRequest pod.maxRetries fun _ _ ha => by cases ha)
        obtain ⟨responses, -, rfl⟩ := hr
        have hpost := hI.requests pod.id hneutral hh' responses
        cases response with
        | error e => exact hpost
        | ok r => exact .ite (fun _ => hpost) fun _ => hpost

/-- 代理による停止は、少なくとも一度は要求を送る。 -/
theorem follows_proxyStop {id : String} (haction : task.action = "stop") (hvalid : validateTaskFields task = none)
    (hpayload : task.payloadStr? "task_id" = some id) (hid : id ≠ "") :
    (proxyProcessRedisTask pod task).Follows WebExpected (fun _ h' => ∃ m, m ≠ [] ∧
      (∀ x ∈ m, x = .requested pod.id id) ∧ ownMarks h' = m ++ ownMarks h) h := by
  have hvalidate : validateRedisTask task = pure none := by
    simp [validateRedisTask, hvalid, haction]
  unfold proxyProcessRedisTask
  rw [hvalidate]
  simp only [Prog.pure_eq, Prog.ret_bind, haction, proxyStopTask, hpayload, if_neg hid, reduceIte,
    show ¬("stop" = "start") by decide]
  refine (follows_checkedRequest fun _ _ ha => by cases ha).mono (fun _ _ hE => hE) ?_
  rintro _ _ ⟨responses, hne, rfl⟩
  refine ⟨responses.map fun _ => .requested pod.id id, by simpa using hne, by simp, ?_⟩
  clear hne
  induction responses with
  | nil => rfl
  | cons r responses ih => exact ownMarks_cons.trans (congrArg _ ih)

/-- 停止の対象を調べ終えると、要求の有無が決まっている。 -/
theorem follows_stopOriginal {id : String} (haction : task.action = "stop") (hvalid : validateTaskFields task = none)
    (hpayload : task.payloadStr? "task_id" = some id) (hid : id ≠ "") (hh : NoLookup (ownMarks h)) :
    (stopOriginal pod task id).Follows WebExpected (fun _ h' => LookedOnce (ownMarks h')) h := by
  refine Prog.Follows.bind (fun _ h₁ hh₁ => ?_) (follows_updateTaskResult steady_noLookup hh)
  refine .perform trivial fun found => ?_
  -- 終わりの書き込みは、どの枝でも同じである。
  have finish : ∀ message h', LookedOnce (ownMarks h') → Prog.Follows WebExpected
      (fun _ h'' => LookedOnce (ownMarks h'')) (do let _ ← updateTaskResult id .stopped message; return message) h' :=
    fun message h' hl => Prog.Follows.bind (fun _ _ hl' => hl') (follows_updateTaskResult steady_lookedOnce hl)
  have idle : isAssignedWeb pod.mode found = false →
      LookedOnce (ownMarks (⟨.getTask (.stopLookup pod.id pod.mode) id, found⟩ :: h₁)) := fun hb =>
    ⟨[], pod.id, id, _, _, rfl, by simp [NoLookup], hh₁, by simp [hb, Outcome]⟩
  cases found with
  | none => exact finish _ _ (idle rfl)
  | some original =>
      refine .ite (fun hidle => finish _ _ (idle ?_)) fun hidle => .ite (fun hweb => ?_) fun hweb => ?_
      · rcases hidle with hpod | hworker
        · simp [isAssignedWeb, hpod]
        · simp [isAssignedWeb, Int.not_le.mpr hworker]
      · have hb : isAssignedWeb pod.mode (some original) = true := by
          simp only [not_or, Int.not_lt] at hidle
          simp [isAssignedWeb, hidle.1, hidle.2, hweb]
        have hlook : Mark.of ⟨.getTask (.stopLookup pod.id pod.mode) id, some original⟩ =
            some (.lookedUp pod.id id true) := by
          rw [← hb]
          rfl
        refine .perform trivial fun ready => ?_
        cases ready with
        | false =>
            refine finish _ _ ⟨[.proxied pod.id false], pod.id, id, true, _, ?_, by simp [NoLookup], hh₁,
              false, by simp, by simp⟩
            rw [ownMarks_cons, ownMarks_cons, hlook]
            rfl
        | true =>
            refine Prog.Follows.bind (fun _ h₂ hm => ?_) (follows_proxyStop haction hvalid hpayload hid)
            obtain ⟨m, hne, hall, heq⟩ := hm
            obtain ⟨x, hx⟩ := List.exists_mem_of_ne_nil m hne
            have hreq : .requested pod.id id ∈ m := hall x hx ▸ hx
            refine finish _ _ ⟨m ++ [.proxied pod.id true], pod.id, id, true, _, ?_, ?_, hh₁,
              true, by simp, by simp [hreq]⟩
            · rw [heq, ownMarks_cons, ownMarks_cons, hlook, List.append_assoc]
              rfl
            · intro podID' id' b' hmem
              rcases List.mem_append.mp hmem with hmem | hmem
              · cases hall _ hmem
              · simp at hmem
      · have hl := idle (by simp [isAssignedWeb, hweb])
        have native : ∀ a : Act Cmd Cmd.Resp, Mark.of a = none → LookedOnce (ownMarks (a ::
            ⟨.getTask (.stopLookup pod.id pod.mode) id, some original⟩ :: h₁)) := fun a ha =>
          steady_lookedOnce.act (fun m hm => by rw [ha] at hm; cases hm) hl
        refine .perform trivial fun target => ?_
        have hl' := native ⟨.findWorker pod.id task original, target⟩ rfl
        cases target with
        | none => exact finish _ _ hl'
        | some workerID =>
            refine .perform trivial fun stopped => finish _ _ ?_
            exact steady_lookedOnce.act (fun m hm => by cases hm) hl'

theorem follows_stopTask (haction : task.action = "stop") (hvalid : validateTaskFields task = none)
    (hh : NoLookup (ownMarks h)) : (stopTask pod task).Follows WebExpected (fun _ _ => True) h := by
  unfold stopTask
  split
  · trivial
  · rename_i id hpayload
    refine .ite (fun _ => trivial) fun hid => ?_
    refine Prog.Follows.bind (fun _ h' hl => ?_) (follows_stopOriginal haction hvalid hpayload hid hh)
    refine Prog.Follows.bind ?_ (follows_updateTaskResult steady_lookedOnce hl)
    exact fun _ _ _ => trivial

theorem follows_startTask (hh : NoLookup (ownMarks h)) (haction : task.action = "start") {id : String} {read : Task}
    (hread : ⟨.getTask (.claim pod.id) id, some read⟩ ∈ h) (hid : read.id = task.id) (hact : read.action = "start") :
    (startTask pod task).Follows WebExpected (fun _ h' => NoLookup (ownMarks h')) h := by
  refine .ite (fun _ => .perform trivial fun _ => ?_) fun _ => ?_
  · have hh' : NoLookup (ownMarks (⟨.createProxy pod.id, ()⟩ :: h)) := hh
    refine Prog.Follows.bind (fun err h' hh' => ?_) (follows_proxyProcessRedisTask steady_noLookup hh'
      (by simp [haction]) fun _ => ⟨List.mem_cons_self, id, read, List.mem_cons_of_mem _ hread, hid, hact⟩)
    cases err <;> exact hh'
  · refine follows_native steady_noLookup hh ?_
    refine .perform trivial fun assigned => ?_
    cases assigned with
    | error e => trivial
    | ok workerID => exact (safe_updateTaskWorker (by decide)).bind fun _ _ => trivial

theorem follows_statusTask (hh : NoLookup (ownMarks h)) (haction : task.action = "status") :
    (statusTask pod task).Follows WebExpected (fun _ h' => NoLookup (ownMarks h')) h := by
  refine .ite (fun _ => .ite (fun _ => hh) fun _ => ?_) fun _ => .ite (fun _ => hh) fun _ => ⟨trivial, fun _ => hh⟩
  refine .perform trivial fun ready => ?_
  have hh' : NoLookup (ownMarks (⟨.hasProxy pod.id, ready⟩ :: h)) := hh.cons fun _ _ _ => nofun
  refine .ite (fun _ => ?_) fun _ => hh'
  exact follows_proxyProcessRedisTask steady_noLookup hh' (by simp [haction]) fun ha => by
    rw [haction] at ha
    exact absurd ha (by decide)

theorem follows_validateRedisTask {sc : Scope} :
    (validateRedisTask task).Follows (Expected sc) (fun invalid _ => invalid = none → validateTaskFields task = none) h := by
  unfold validateRedisTask
  split
  · exact nofun
  · rename_i hvalid
    exact .ite (fun _ => .perform trivial fun _ _ => hvalid) fun _ _ => hvalid

theorem follows_processRedisTask (hh : NoLookup (ownMarks h)) {id : String} {read : Task}
    (hread : ⟨.getTask (.claim pod.id) id, some read⟩ ∈ h) (hid : read.id = task.id) (hact : read.action = task.action) :
    (processRedisTask pod task).Follows WebExpected (fun _ _ => True) h := by
  have record : ∀ {id err} h', NoLookup (ownMarks h') →
      (recordOutcome id err).Follows WebExpected (fun _ _ => True) h' := fun {id err} h' hh' =>
    (follows_native steady_noLookup hh' (safe_recordOutcome (by decide))).mono (fun _ _ hE => hE) fun _ _ _ => trivial
  refine Prog.Follows.bind (fun invalid h' hv => ?_)
    (follows_of_safe web_not_mem_nativeScope steady_noLookup hh follows_validateRedisTask).extends
  obtain ⟨⟨hvalid, hh'⟩, hsub⟩ := hv
  cases invalid with
  | some e =>
      refine Prog.Follows.bind ?_ (follows_updateTaskResult steady_noLookup hh')
      exact fun _ _ _ => trivial
  | none =>
      refine .ite (fun ha => ?_) fun _ => .ite (fun ha => follows_stopTask ha (hvalid rfl) hh') fun _ =>
        .ite (fun ha => ?_) fun _ => record h' hh'
      · exact Prog.Follows.bind (fun _ h'' hh'' => record h'' hh'')
          (follows_startTask hh' ha (hsub hread) hid (hact.trans ha))
      · exact Prog.Follows.bind (fun _ h'' hh'' => record h'' hh'') (follows_statusTask hh' ha)

end Programs

/-! ## 全体の実行 -/

theorem bodies_web (g : Guard machine) : Bodies g WebExpected := by
  intro k _
  have hnil : NoLookup (ownMarks []) := by simp [NoLookup]
  by_cases hsub : ∃ pod patterns, k = .subscribe pod patterns
  · obtain ⟨pod, patterns, rfl⟩ := hsub
    refine Prog.Follows.bind (fun fetched h hf => ?_) (follows_of_safe web_not_mem_nativeScope steady_noLookup hnil
      (follows_fetchTaskFromRedis (by decide) (by decide) trivial))
    obtain ⟨htask, hh⟩ := hf
    cases fetched with
    | none => trivial
    | some task =>
        obtain ⟨id, read, now, queue, hread, rfl⟩ := htask task rfl
        exact follows_processRedisTask hh hread rfl rfl
  · have hbody : Safe nativeScope (callBody k) [] := by
      refine bodies (g := .ofCalls fun k' => k' = k) (fun k' hk' => ?_) k rfl
      obtain rfl : k' = k := hk'
      refine ⟨?_, fun _ _ => trivial⟩
      cases k' <;> first | exact absurd ⟨_, _, rfl⟩ hsub | (simp only [Call.writers]; decide)
    exact (follows_native steady_noLookup hnil hbody).mono (fun _ _ hE => hE) fun _ _ _ => trivial

/-- 代理は一度作られると残るので、作った後の問い合わせは、あると答える。 -/
structure Proxied (w : World) (tr : Trace) : Prop where
  created : ∀ e ∈ tr, ∀ podID, e.cmd = .createProxy podID → w.proxy podID = true
  ready : ∀ tr₁ i podID ready w₀ tr₂, tr = tr₁ ++ ⟨i, .hasProxy podID, ready, w₀⟩ :: tr₂ →
    (∃ e ∈ tr₂, e.cmd = .createProxy podID) → ready = true

theorem proxied_inductive {g : Guard machine} : Inductive g WebExpected Proxied := by
  refine ⟨fun {i c o w tr r w'} h _ _ he => ?_, fun {e w tr w'} h he => ?_⟩
  · obtain ⟨hreply, rfl⟩ := exec_eq he
    refine ⟨fun e hmem podID hc => ?_, fun tr₁ j podID ready w₀ tr₂ heq hcreated => ?_⟩
    · rw [effect_proxy]
      rcases List.mem_cons.mp hmem with rfl | hmem
      · cases hc
        simp
      · have hw := h.created e hmem podID hc
        cases c <;> simp [hw]
    · cases tr₁ with
      | nil =>
          obtain ⟨hhead, rfl⟩ := List.cons.inj heq
          cases hhead
          obtain ⟨e, hmem, hc⟩ := hcreated
          rw [← h.created e hmem podID hc]
          exact (Option.some.inj hreply).symm
      | cons e' tr₁ =>
          obtain ⟨-, rfl⟩ := List.cons.inj heq
          exact h.ready tr₁ j podID ready w₀ tr₂ rfl hcreated
  · have hproxy : w'.proxy = w.proxy := by
      obtain ⟨d, rfl⟩ | ⟨id, l, -, -, rfl⟩ := env_cases he <;> rfl
    exact ⟨fun e hmem podID hc => by rw [hproxy]; exact h.created e hmem podID hc, h.ready⟩

theorem marks_split {tr : Trace} {m₁ m₂ : List (Nat × Mark)} {x} (h : marks tr = m₁ ++ x :: m₂) :
    ∃ tr₁ e tr₂, tr = tr₁ ++ e :: tr₂ ∧ marks tr₁ = m₁ ∧ Mark.of e.act = some x.2 ∧ e.tid = x.1 ∧ marks tr₂ = m₂ := by
  obtain ⟨l₁, l₂, rfl, h₁, h₂⟩ := List.filterMap_eq_append_iff.mp h
  obtain ⟨l₃, e, l₄, rfl, h₃, he, h₄⟩ := List.filterMap_eq_cons_iff.mp h₂
  obtain ⟨m, hm, rfl⟩ := Option.map_eq_some_iff.mp he
  refine ⟨l₁ ++ l₃, e, l₄, by simp, ?_, hm, rfl, h₄⟩
  rw [marks, List.filterMap_append, h₁, List.filterMap_eq_nil_iff.mpr h₃, List.append_nil]

/-- スレッド `i` の出来事。 -/
def marksOf (i : Nat) (ms : List (Nat × Mark)) : List Mark :=
  ms.filterMap fun x => if x.1 = i then some x.2 else none

theorem ownMarks_own {i : Nat} {tr : Trace} : ownMarks (own i tr) = marksOf i (marks tr) := by
  induction tr with
  | nil => rfl
  | cons e tr ih =>
      obtain ⟨j, c, r, w⟩ := e
      simp only [marks, marksOf, List.filterMap_cons, Event.act] at ih ⊢
      by_cases hj : i = j
      · subst hj
        rw [own_cons_self, ownMarks_cons]
        cases hm : Mark.of ⟨c, r⟩ <;> simp [ih]
      · rw [own_cons_ne hj]
        cases hm : Mark.of ⟨c, r⟩ <;> simp [ih, Ne.symm hj]

theorem mem_marksOf {i : Nat} {ms : List (Nat × Mark)} {m : Mark} : m ∈ marksOf i ms ↔ (i, m) ∈ ms := by
  simp only [marksOf, List.mem_filterMap, Option.ite_none_right_eq_some, Option.some.injEq, Prod.exists]
  constructor
  · rintro ⟨j, m', hmem, rfl, rfl⟩
    exact hmem
  · exact fun hmem => ⟨i, m, hmem, rfl, rfl⟩

theorem Mark.of_accepted {a : Act Cmd Cmd.Resp} {podID id : String} (h : Mark.of a = some (.accepted podID id)) :
    ∃ request response, a = ⟨.httpPost podID request, response⟩ ∧ request.action = .start ∧ request.taskID = id := by
  unfold Mark.of at h
  split at h
  · rename_i podID' request response
    split at h
    · rename_i haction
      split at h
      · cases h
        exact ⟨request, _, rfl, haction, rfl⟩
      · cases h
    · cases h
    · cases h
  all_goals cases h

theorem Mark.of_proxied {a : Act Cmd Cmd.Resp} {podID : String} {ready : Bool}
    (h : Mark.of a = some (.proxied podID ready)) : a = ⟨.hasProxy podID, ready⟩ := by
  unfold Mark.of at h
  split at h
  · split at h
    · split at h <;> cases h
    · cases h
    · cases h
  all_goals first
    | (cases h; rfl)
    | cases h

theorem Mark.of_stopped {a : Act Cmd Cmd.Resp} {id : String} (h : Mark.of a = some (.stopped id)) :
    ∃ message now read, a = ⟨.setResult id .stopped message now read, ()⟩ := by
  unfold Mark.of at h
  split at h
  · split at h
    · split at h <;> cases h
    · cases h
    · cases h
  all_goals first
    | (cases h; exact ⟨_, _, _, rfl⟩)
    | cases h

theorem Mark.of_lookedUp {a : Act Cmd Cmd.Resp} {podID id : String} {b : Bool}
    (h : Mark.of a = some (.lookedUp podID id b)) :
    ∃ mode found, a = ⟨.getTask (.stopLookup podID mode) id, found⟩ ∧ b = isAssignedWeb mode found := by
  unfold Mark.of at h
  split at h
  · split at h
    · split at h <;> cases h
    · cases h
    · cases h
  all_goals first
    | (cases h; exact ⟨_, _, rfl, rfl⟩)
    | cases h

/-- `id` の番号を書いた。 -/
def WorkerSet (id : String) (tr : Trace) : Prop := ∃ e ∈ tr, ∃ workerID read, e.cmd = .setWorker id workerID read

theorem WorkerSet.cons {id : String} {tr : Trace} {e : Event machine} (h : WorkerSet id tr) : WorkerSet id (e :: tr) := by
  obtain ⟨e', he', hc⟩ := h
  exact ⟨e', List.mem_cons_of_mem _ he', hc⟩

/-- 停止でない記録の番号は、`UpdateTaskWorker` が書くまで `-1` である。 -/
structure Unassigned (w : World) (tr : Trace) : Prop where
  keyed : ∀ id t, w.task id = some t → t.id = id
  stored : ∀ id t, w.task id = some t → t.action ≠ "stop" → t.workerID = -1 ∨ WorkerSet id tr
  read : ∀ i reader id t w₀, ⟨i, .getTask reader id, some t, w₀⟩ ∈ tr → t.action ≠ "stop" →
    t.workerID = -1 ∨ WorkerSet id tr

theorem unassigned_init : Unassigned .init [] :=
  ⟨by simp [World.init], by simp [World.init], by simp⟩

/-- 書き込む記録の番号は、`-1` か、読んだ写しのままか、`UpdateTaskWorker` によるものである。 -/
theorem Unassigned.written {w : World} {tr : Trace} (h : Unassigned w tr) {i c} {r : c.Resp} {id t}
    (hE : Expected .all c (own i tr)) (hw : c.written r = some (id, t)) (hact : t.action ≠ "stop") :
    t.workerID = -1 ∨ WorkerSet id (⟨i, c, r, w⟩ :: tr) := by
  have copied : ∀ read, c.copy = some (id, read) → read.action ≠ "stop" → read.workerID = -1 ∨
      WorkerSet id (⟨i, c, r, w⟩ :: tr) := by
    intro read hc hact
    obtain ⟨reader, hmem⟩ := hE.copy hc
    obtain ⟨w₀, he⟩ := mem_of_own hmem
    exact (h.read i reader id read w₀ he hact).imp_right WorkerSet.cons
  cases c <;> simp only [Cmd.written, reduceCtorEq, Option.some.injEq, Prod.mk.injEq] at hw
  case publishTx =>
      obtain ⟨rfl, rfl⟩ := hw
      exact .inl (hE.2.2.2 hact)
  case claimTx | recoverTx | moveBackTx =>
      obtain ⟨rfl, rfl⟩ := hw
      exact .inl rfl
  case setWorker id' workerID read =>
      obtain ⟨rfl, rfl⟩ := hw
      exact .inr ⟨_, List.mem_cons_self, workerID, read, rfl⟩
  case setResult id' state message now read =>
      obtain ⟨rfl, rfl⟩ := hw
      exact copied read rfl hact
  case renewTx podID id' now read =>
      obtain ⟨rfl, rfl⟩ := hw
      exact copied read rfl hact
  case setTarget =>
      obtain ⟨rfl, rfl⟩ := hw
      exact absurd hE.2.1 hact
  case timeoutTx id' queue watched age read =>
      cases r
      · cases hw
      · simp only [Option.some.injEq, Prod.mk.injEq] at hw
        obtain ⟨rfl, rfl⟩ := hw
        exact copied read rfl hact

theorem unassigned_inductive {g : Guard machine} :
    Inductive g (Expected .all) fun w tr => Base w tr ∧ Unassigned w tr := by
  refine (base_inductive g .all).extend (fun {i c o w tr r w'} hb h _ hE he => ?_) fun {e w tr w'} _ h he => ?_
  · obtain ⟨hreply, rfl⟩ := exec_eq he
    refine ⟨fun id t ht => ?_, fun id t ht hact => ?_, fun j reader id t w₀ hmem hact => ?_⟩
    · obtain ⟨heq, -⟩ | ⟨t', hw, heq⟩ := effect_task_cases w c r id
      · exact h.keyed id t (heq ▸ ht)
      · rw [heq] at ht
        cases ht
        obtain ⟨_, _, hid, _⟩ | ⟨read, t₀, _, ht₀, h₀, h₁⟩ := hb.written hE hw
        · exact hid.symm
        · have hid : t.id = t₀.id := congrArg Prod.fst (h₁.trans h₀.symm)
          exact hid.trans (h.keyed id t₀ ht₀)
    · obtain ⟨heq, -⟩ | ⟨t', hw, heq⟩ := effect_task_cases w c r id
      · exact (h.stored id t (heq ▸ ht) hact).imp_right WorkerSet.cons
      · rw [heq] at ht
        cases ht
        exact h.written hE hw hact
    · rcases List.mem_cons.mp hmem with heq | hmem
      · cases heq
        exact (h.stored id t (Option.some.inj hreply) hact).imp_right WorkerSet.cons
      · exact (h.read j reader id t w₀ hmem hact).imp_right WorkerSet.cons
  · have htask : w'.task = w.task := by
      obtain ⟨d, rfl⟩ | ⟨id, l, -, -, rfl⟩ := env_cases he <;> rfl
    exact ⟨by rw [htask]; exact h.keyed, by rw [htask]; exact h.stored, h.read⟩

section Run

variable {g : Guard machine} {p : Pool machine} {i : Nat} {podID id : String} {assigned : Bool}
  {mid : List (Nat × Mark)}

/-- 受け付けられた開始より前に、代理が作られ、開始のタスクが確保のために読まれている。 -/
theorem accepted_cases {tr : Trace} (ho : Obeyed WebExpected tr) {j : Nat} (hj : (j, .accepted podID id) ∈ marks tr) :
    (∃ e ∈ tr, e.cmd = .createProxy podID) ∧
      ∃ k key read w, ⟨k, .getTask (.claim podID) key, some read, w⟩ ∈ tr ∧ read.id = id ∧ read.action = "start" := by
  obtain ⟨m₁, m₂, hm⟩ := List.append_of_mem hj
  obtain ⟨tr₁, ⟨k, c, r, w⟩, tr₂, rfl, -, hmark, -, -⟩ := marks_split hm
  obtain ⟨request, response, heq, hstart, rfl⟩ := Mark.of_accepted hmark
  cases heq
  obtain ⟨hproxy, key, read, hread, hid, hact⟩ := ho tr₁ _ tr₂ rfl hstart
  obtain ⟨w₁, hw₁⟩ := mem_of_own hproxy
  obtain ⟨w₂, hw₂⟩ := mem_of_own hread
  exact ⟨⟨_, List.mem_append_right _ (List.mem_cons_of_mem _ hw₁), rfl⟩, k, key, read, w₂,
    List.mem_append_right _ (List.mem_cons_of_mem _ hw₂), hid, hact⟩

/-- 止める処理の出来事を、命令の列に戻す。 -/
theorem WebStop.split {tr : Trace} (h : WebStop (marks tr) i podID id assigned mid) :
    ∃ later e between look before, tr = later ++ e :: (between ++ look :: before) ∧ marks between = mid ∧
      (∃ message now read w, e = ⟨i, .setResult id .stopped message now read, (), w⟩) ∧
      (∃ mode found w, look = ⟨i, .getTask (.stopLookup podID mode) id, found, w⟩ ∧
        assigned = isAssignedWeb mode found) ∧ ∃ j, (j, .accepted podID id) ∈ marks before := by
  obtain ⟨_, marked, before, hms, j, hj⟩ := h
  obtain ⟨tr₁, ⟨_, c, r, w⟩, tr₂, rfl, -, he, rfl, htr₂⟩ := marks_split hms
  obtain ⟨tr₃, ⟨_, c', r', w'⟩, tr₄, rfl, hmid, hlook, rfl, htr₄⟩ := marks_split htr₂
  obtain ⟨message, now, read, heq⟩ := Mark.of_stopped he
  obtain ⟨mode, found, heq', hb⟩ := Mark.of_lookedUp hlook
  cases heq
  cases heq'
  exact ⟨tr₁, _, tr₃, _, tr₄, rfl, hmid, ⟨message, now, read, w, rfl⟩, ⟨mode, _, w', rfl, hb⟩, j, by simp [htr₄, hj]⟩

theorem requested_iff (hrun : Run g (.start .init) p) (h : WebStop (marks p.trace) i podID id assigned mid) :
    (i, .requested podID id) ∈ mid ↔ assigned = true := by
  have ho := obeyed_inductive.of_start (bodies_web g) (s := World.init) (fun _ _ _ => by simp) hrun
  have hp := proxied_inductive.of_start (bodies_web g) (s := World.init) ⟨by simp, by simp⟩ hrun
  obtain ⟨later, e, between, look, before, htr, rfl, ⟨message, now, read, w, he⟩, ⟨mode, found, w', hlook, hb⟩, j, hj⟩ :=
    h.split
  have htracked : Tracked (ownMarks (own i (between ++ look :: before))) := by
    have hE := ho later e _ htr
    rw [he] at hE
    exact hE
  have hsplit : ownMarks (own i (between ++ look :: before)) =
      marksOf i (marks between) ++ .lookedUp podID id assigned :: ownMarks (own i before) := by
    rw [hlook, own_append, own_cons_self, ownMarks_append, ownMarks_own, hb]
    rfl
  have hout := htracked _ _ _ _ _ hsplit
  rw [← mem_marksOf]
  cases assigned with
  | false => exact ⟨fun hreq => absurd hreq hout, fun h => absurd h Bool.false_ne_true⟩
  | true =>
      refine ⟨fun _ => rfl, fun _ => ?_⟩
      obtain ⟨ready, hready, hreq⟩ := hout
      refine hreq ?_
      -- 代理は、開始が受け付けられる前に作られている。
      obtain ⟨m₁, m₂, hm⟩ := List.append_of_mem (mem_marksOf.mp hready)
      obtain ⟨tr₁, ⟨k, c, r, w₁⟩, tr₂, rfl, -, hmark, -, -⟩ := marks_split hm
      cases Mark.of_proxied hmark
      rw [htr, List.append_cons, ← List.append_assoc, List.append_cons] at ho
      obtain ⟨⟨e', he', hc'⟩, -⟩ := accepted_cases ho.of_append hj
      exact hp.ready (later ++ e :: tr₁) k podID r w₁ (tr₂ ++ look :: before) (by simp [htr]) ⟨e', by simp [he'], hc'⟩

/-- 番号が書かれない限り、調べた記録は、要求を送る場合に当たらない。 -/
theorem not_assigned (hrun : Run g (.start .init) p) (h : WebStop (marks p.trace) i podID id assigned mid)
    (hno : ¬WorkerSet id p.trace) : assigned = false := by
  have ho := obeyed_inductive.of_start (bodies_web g) (s := World.init) (fun _ _ _ => by simp) hrun
  obtain ⟨hb, hu⟩ := unassigned_inductive.of_start (bodies_all g) ⟨base_init, unassigned_init⟩ hrun
  obtain ⟨later, e, between, look, before, htr, -, -, ⟨mode, found, w', rfl, rfl⟩, j, hj⟩ := h.split
  have hbefore : before ⊆ p.trace := fun e' he' => by simp [htr, he']
  rw [htr, List.append_cons, ← List.append_assoc, List.append_cons] at ho
  obtain ⟨-, k, key, read, w, hread, hid, hact⟩ := accepted_cases ho.of_append hj
  -- 開始のために読んだ記録と、調べた記録は、同じ名前の記録の写しである。
  obtain ⟨t₁, ht₁, hid₁⟩ := (hb.ordered.le (hbefore hread)).identity key read
    (recorded_getTask hb.recorded _ _ (hbefore hread))
  have hkey : key = id := by
    rw [← hu.keyed key t₁ ht₁, ← hid]
    exact congrArg Prod.fst hid₁
  subst hkey
  have hlook : ⟨i, .getTask (.stopLookup podID mode) key, found, w'⟩ ∈ p.trace := by simp [htr]
  cases found with
  | none => rfl
  | some t =>
      obtain ⟨t₂, ht₂, hid₂⟩ := (hb.ordered.le hlook).identity key t (recorded_getTask hb.recorded _ _ hlook)
      rw [ht₁] at ht₂
      cases ht₂
      have haction : t.action = "start" := by
        have hsame : t.identity = read.identity := hid₂.symm.trans hid₁
        rw [← hact]
        exact congrArg (fun x => x.2.2.1) hsame
      have hworker : t.workerID = -1 :=
        (hu.read i _ key t w' hlook (by simp [haction])).resolve_right hno
      simp [isAssignedWeb, hworker]

end Run

/-- 停止が録画サービスに求めるのは、調べた記録が持ち主とワーカーを示し、ウェブの録画であるとき、そしてそのときに
限る。`UpdateTaskWorker` が番号を書いていなければ、求めることはない。 -/
theorem requested_iff_assigned {p : Pool machine} (hrun : Run entries (.start .init) p) {i : Nat}
    {podID id : String} {assigned : Bool} {mid : List (Nat × Mark)}
    (h : WebStop (marks p.trace) i podID id assigned mid) :
    ((i, .requested podID id) ∈ mid ↔ assigned = true) ∧
      (¬WorkerSet id p.trace → (i, .requested podID id) ∉ mid) := by
  refine ⟨requested_iff hrun h, fun hno hreq => ?_⟩
  have hb := (requested_iff hrun h).mp hreq
  rw [not_assigned hrun h hno] at hb
  cases hb

/-- ウェブのポッド `p` が始めた `a` が期限切れで回収され、ポッド `q` が自分のワーカーで始め直す。`p` は、その確保より
前に `a` の停止を引き取っている。 -/
def restartedNatively : List (Move machine) :=
  begin (.publish "record" "start" "ch" "r1" (some [("url", .str "u")]) "") ++
    advance 0 1 ++ advanceWith 0 { text := "a" } ++ advance 0 2 ++
  begin (.subscribe webPod ["egress:record:*"]) ++ advance 1 9 ++
    advanceWith 1 { http := .ok ⟨"started", ""⟩ } ++ advance 1 3 ++
  [.env (.tick leaseTimeout), .env (.leaseExpire "a")] ++ begin .cleanupExpiredLeases ++ advance 2 6 ++
  begin (.publishStop "a" "r2" "") ++ advance 3 3 ++ advanceWith 3 { text := "b" } ++ advance 3 2 ++
  begin (.subscribe (nativePod "q") ["egress:record:*"]) ++
    advance 4 2 ++
  begin (.subscribe webPod ["egress:record:*"]) ++ advance 5 7 ++
  advance 4 5 ++ advanceWith 4 { num := some 0 } ++ advance 4 5 ++
  advance 5 5 ++ advanceWith 5 { http := .ok ⟨"stopped", ""⟩ } ++ advance 5 3

theorem restartedNatively_requested : ∃ p mid, Run entries (.start .init) p ∧
    WebStop (marks p.trace) 5 "p" "a" true mid ∧ (5, .requested "p" "a") ∈ mid := by
  have hplay : (Pool.play restartedNatively (.start .init)).map (fun p => marks p.trace) =
      some [(5, .stopped "a"), (5, .requested "p" "a"), (5, .proxied "p" true), (5, .lookedUp "p" "a" true),
        (5, .marking "a" true), (1, .accepted "p" "a")] := by
    decide
  obtain ⟨p, hp, hmarks⟩ := Option.map_eq_some_iff.mp hplay
  have hrun : Run entries (.start .init) p := Pool.play_sound (Pool.allMeet_ofCalls (by decide)) hp
  have hstop : WebStop (marks p.trace) 5 "p" "a" true [(5, .requested "p" "a"), (5, .proxied "p" true)] := by
    rw [hmarks]
    exact ⟨[], [], _, rfl, 1, by decide⟩
  exact ⟨p, _, hrun, hstop, (requested_iff_assigned hrun hstop).1.mpr rfl⟩

end RtcEgress.Queue
