import RtcEgress.Message.ApiServer
import RtcEgress.Queue.Provenance

/-!
# 受け付けた要求だけから作られる記録

API サーバーだけが公開するならば、どの順に交互に進んでも、どの記録もポッドの検査に通る。開始の記録には受け付けた中身があり、停止の
記録は、同じ種類とチャンネルの記録を指して、伝言に組み立てられる。
-/

namespace RtcEgress.Message

open RtcEgress.Lib RtcEgress.Queue

namespace ApiServer

/-! ## 公開の由来 -/

/-- 公開する記録は、受け付けた要求か、読み取った記録から作られる。 -/
inductive Origin (task : Task) (h : Acts) : Prop where
  | start {appID r r' id now} : Message.startTask appID r = .ok (r', task.channel) →
      task = .published id r'.cmd "start" task.channel r'.requestID r'.payload now → Origin task h
  | stop {stopID requestID originalTaskID podID workerID orig now} :
      ⟨.getTask .publishStop originalTaskID, some orig⟩ ∈ h → validateStopTaskRequest requestID originalTaskID = none →
      task = .publishedStop stopID requestID originalTaskID podID workerID orig now → Origin task h

def Publishes : Cmd → Acts → Prop
  | .publishTx _ task, h => Origin task h
  | _, _ => True

section Programs

-- 名前の比較を計算で進めない。
attribute [local irreducible] trimSpace

theorem publishes_of_pod {c : Cmd} {h : Acts} (hE : Expected podScope c h) : Publishes c h := by
  cases c
  case publishTx => simp [Expected, podScope] at hE
  all_goals trivial

theorem publishes_publish {cmd channel requestID : String} {payload : Option Payload} {region : String}
    (hk : Accepted (.publish cmd "start" channel requestID payload region)) :
    (callBody (.publish cmd "start" channel requestID payload region)).Follows Publishes (fun _ _ => True) [] := by
  obtain ⟨appID, r, r', hstart, rfl, -, rfl, rfl, -⟩ := hk
  refine .perform trivial fun dup => ?_
  cases dup with
  | true => trivial
  | false => exact .perform trivial fun id => .perform trivial fun now => ⟨.start hstart rfl, fun _ => trivial⟩

/-- 読み取った記録は、宛先を調べた後も自分の列に残る。 -/
theorem publishes_stopTargetPod {a : Act Cmd Cmd.Resp} {orig : Task} {originalTaskID : String} :
    (stopTargetPod orig originalTaskID).Follows Publishes (fun _ h => a ∈ h) [a] :=
  (safe_stopTargetPod : Safe podScope (stopTargetPod orig originalTaskID) [a]).extends.mono
    (fun _ _ hE => publishes_of_pod hE) fun _ _ hsub => hsub.2 List.mem_cons_self

theorem publishes_publishStopTaskFor {originalTaskID requestID region : String}
    (hvalid : validateStopTaskRequest requestID originalTaskID = none) :
    (publishStopTaskFor originalTaskID requestID region).Follows Publishes (fun _ _ => True) [] := by
  refine .perform trivial fun found => ?_
  cases found with
  | none => trivial
  | some orig =>
      refine Prog.Follows.bind (fun podID h hread => ?_) publishes_stopTargetPod
      refine .perform trivial fun dup => ?_
      cases dup with
      | true => trivial
      | false =>
          refine .perform trivial fun stopID => .perform trivial fun now => ⟨?_, fun _ => trivial⟩
          exact .stop (List.mem_cons_of_mem _ (List.mem_cons_of_mem _ (List.mem_cons_of_mem _ hread))) hvalid rfl

theorem bodies_publishes : Bodies (M := machine) (.ofCalls Accepted) Publishes := by
  refine bodies_publishing (fun _ _ => publishes_of_pod) fun k hk hwrites => ?_
  cases k
  case publish =>
      obtain ⟨_, _, _, _, _, rfl, _⟩ := id hk
      exact publishes_publish hk
  case publishStop originalTaskID requestID region =>
      have hret (published : Option Task) (h : Acts) (hany : True) :
          (Prog.ret () : P Unit).Follows Publishes (fun _ _ => True) h := hany
      exact Prog.Follows.bind hret (publishes_publishStopTaskFor hk.1)
  all_goals simp [Call.writers] at hwrites

end Programs

/-! ## 記録の欄 -/

/-- 記録の種類ごとに要る欄。 -/
inductive Kind (w : World) (t : Task) : Prop where
  | start {appID payload} : t.action = "start" → t.payload = some payload → StartAccepted t.requestID t.cmd payload →
      payload.lookup "app_id" = some (.str appID) → payload.lookup "channel" = some (.str t.channel) →
      (chosenLayout payload = "freestyle" → value? payload "web_recorder" ≠ none) → Kind w t
  | stop {originalTaskID orig} : t.action = "stop" → t.payload = some [("task_id", .str originalTaskID)] →
      validateTaskID originalTaskID = none → w.task originalTaskID = some orig → orig.cmd = t.cmd →
      orig.channel = t.channel → Kind w t

structure Sound (w : World) (t : Task) : Prop where
  cmd : t.cmd ∈ validCmds
  channel : isValidChannel t.channel = true
  requestID : validateRequestID t.requestID = none
  kind : Kind w t

section
variable {w w' : World} {t t' : Task}

theorem Sound.congr (h : Sound w t) (hid : t'.identity = t.identity) : Sound w t' := by
  simp only [Task.identity, Prod.mk.injEq] at hid
  obtain ⟨-, hcmd, haction, hchannel, hrequest, hpayload⟩ := hid
  refine ⟨hcmd ▸ h.cmd, hchannel ▸ h.channel, hrequest ▸ h.requestID, ?_⟩
  cases h.kind with
  | start ha hp haccepted happ hc hweb =>
      exact .start (haction.trans ha) (hpayload.trans hp) (by rwa [hrequest, hcmd]) happ (by rwa [hchannel]) hweb
  | stop ha hp hvalid horig hcmd' hchannel' =>
      exact .stop (haction.trans ha) (hpayload.trans hp) hvalid horig (hcmd'.trans hcmd.symm) (hchannel'.trans hchannel.symm)

/-- 記録は消えず、公開のときに決まる欄は変わらない。 -/
theorem Sound.mono (h : Sound w t) (hle : w.Le w') : Sound w' t := by
  refine ⟨h.cmd, h.channel, h.requestID, ?_⟩
  cases h.kind with
  | start ha hp haccepted happ hc hweb => exact .start ha hp haccepted happ hc hweb
  | @stop originalTaskID orig ha hp hvalid horig hcmd hchannel =>
      obtain ⟨orig', horig', hid⟩ := hle.identity _ _ horig
      simp only [Task.identity, Prod.mk.injEq] at hid
      obtain ⟨-, hcmd', -, hchannel', -⟩ := hid
      exact .stop ha hp hvalid horig' (hcmd'.trans hcmd) (hchannel'.trans hchannel)

theorem isValidChannel_of_accepted {channel : String} (h : validateChannel (some (.str channel)) = none) :
    isValidChannel channel = true := by
  simp only [validateChannel, ite_some_eq_none] at h
  obtain ⟨hne, hlen, hchars⟩ := h
  have hall : channel.toList.all isChannelChar = true := by
    cases hall : channel.toList.all isChannelChar with
    | true => rfl
    | false => simp [hall] at hchars
  simp only [isValidChannel, hall, Bool.and_true, Bool.and_eq_true, decide_eq_true_eq]
  exact ⟨hne, Nat.le_of_not_lt hlen⟩

/-- `freestyle` の要求には、ウェブの録画の設定がある。 -/
theorem startTask_webRecorder {appID channel : String} {r r' : TaskRequest} {payload : Payload}
    (h : Message.startTask appID r = .ok (r', channel)) (hp : r.payload = some payload)
    (hl : chosenLayout (setKey payload "app_id" (.str appID)) = "freestyle") :
    value? (setKey payload "app_id" (.str appID)) "web_recorder" ≠ none := by
  intro hnone
  unfold Message.startTask at h
  split_ifs at h
  simp only [hp] at h
  split_ifs at h with hlayout hweb
  exact hweb ⟨hl, by rw [hnone]; rfl⟩

/-- 受け付けた要求から公開する記録。 -/
theorem sound_published {appID channel id : String} {r r' : TaskRequest} {now : Nat}
    (h : Message.startTask appID r = .ok (r', channel)) :
    Sound w (.published id r'.cmd "start" channel r'.requestID r'.payload now) := by
  obtain ⟨payload, hp, haccepted, rfl, hchannel, -⟩ := startTask_eq_ok h
  have hweb := startTask_webRecorder h hp
  have hvalid : validateChannel (some (.str channel)) = none := hchannel ▸ haccepted.channel
  have happ : (withLayout (setKey payload "app_id" (.str appID))).lookup "app_id" = some (.str appID) := by
    rw [lookup_withLayout (by decide), lookup_setKey_self]
  refine ⟨haccepted.supported, isValidChannel_of_accepted hvalid, haccepted.request, ?_⟩
  refine .start rfl rfl (startAccepted_withLayout.mpr haccepted) happ ?_ fun hl => ?_
  · rw [lookup_withLayout (by decide)]
    exact hchannel
  · rw [chosenLayout_withLayout] at hl
    rw [value?_withLayout (by decide)]
    exact hweb hl

/-- 今の記録から公開する停止の記録。 -/
theorem Sound.publishedStop {orig : Task} {originalTaskID requestID stopID podID : String} {workerID : Int} {now : Nat}
    (h : Sound w t) (ht : w.task originalTaskID = some t) (hid : t.identity = orig.identity)
    (hvalid : validateStopTaskRequest requestID originalTaskID = none) :
    Sound w (.publishedStop stopID requestID originalTaskID podID workerID orig now) := by
  obtain ⟨hrequest, htaskID⟩ := Option.or_eq_none_iff.mp hvalid
  simp only [Task.identity, Prod.mk.injEq] at hid
  obtain ⟨-, hcmd, -, hchannel, -⟩ := hid
  exact ⟨hcmd ▸ h.cmd, hchannel ▸ h.channel, hrequest, .stop rfl rfl htaskID ht hcmd hchannel⟩

end

/-! ## すべての実行 -/

/-- どの記録も、由来の条件を満たす。 -/
def AllSound (w : World) : Prop := ∀ id t, w.task id = some t → t.id = id ∧ Sound w t

theorem allSound_cmd {w : World} {tr : Trace} {i : Nat} {c : Cmd} {r : c.Resp} (hb : Base w tr) (h : AllSound w)
    (hE : Expected .all c (own i tr)) (hP : Publishes c (own i tr)) : AllSound (c.effect w r) := by
  have hle := hb.le_effect (r := r) hE
  intro id t ht
  obtain ⟨heq, -⟩ | ⟨t', hw, heq⟩ := effect_task_cases w c r id
  · rw [heq] at ht
    obtain ⟨hid, hsound⟩ := h id t ht
    exact ⟨hid, hsound.mono hle⟩
  · cases heq.symm.trans ht
    obtain ⟨queue, rfl, rfl, hnone, hpending⟩ | ⟨read, t₀, hc, ht₀, hread, hcopy⟩ := hb.written hE hw
    · refine ⟨rfl, Sound.mono ?_ hle⟩
      cases hP with
      | start hstart htask =>
          rw [htask]
          exact sound_published hstart
      | stop hmem hvalid htask =>
          obtain ⟨orig, horig, hid⟩ := hb.read hmem
          rw [htask]
          exact (h _ orig horig).2.publishedStop horig hid hvalid
    · obtain ⟨hid, hsound⟩ := h id t₀ ht₀
      have hidentity : t.identity = t₀.identity := hcopy.trans hread.symm
      have hid' : t.id = t₀.id := congrArg Prod.fst hidentity
      exact ⟨hid'.trans hid, (hsound.congr hidentity).mono hle⟩

theorem allSound_run {q : Pool machine} (hrun : Run (.ofCalls Accepted) (.start World.init) q) : AllSound q.state := by
  have hbodies : Bodies (M := machine) (.ofCalls Accepted) fun c h => Expected .all c h ∧ Publishes c h := fun k hk =>
    ((bodies_all _ k hk).and (bodies_publishes k hk)).mono (fun _ _ hE => hE) fun _ _ _ => trivial
  have hbase : Inductive (M := machine) (.ofCalls Accepted) (fun c h => Expected .all c h ∧ Publishes c h) Base :=
    (base_inductive _ .all).mono fun _ _ => And.left
  have hsound := hbase.extend (J := fun w _ => AllSound w)
    (fun hb h _ hE he => by
      obtain ⟨-, rfl⟩ := exec_eq he
      exact allSound_cmd hb h hE.1 hE.2)
    (fun _ h he id t ht => by
      have hle := World.le_env he
      rw [task_env he] at ht
      obtain ⟨hid, hsound⟩ := h id t ht
      exact ⟨hid, hsound.mono hle⟩)
  exact (hsound.of_start hbodies ⟨base_init, fun id t ht => by cases ht⟩ hrun).2

/-! ## ポッドの検査 -/

theorem Sound.fields {w : World} {t : Task} (h : Sound w t) (hid : validateTaskID t.id = none) :
    validateTaskFields t = none := by
  have hchannel := h.channel
  simp only [isValidChannel, Bool.and_eq_true, decide_eq_true_eq] at hchannel
  obtain ⟨⟨-, hlen⟩, hchars⟩ := hchannel
  have haction : t.action ∈ validActions := by
    cases h.kind with
    | start ha => simp [ha, validActions]
    | stop ha => simp [ha, validActions]
  simp [validateTaskFields, hid, h.cmd, haction, hlen, hchars, h.requestID]

/-- 停止の記録から組み立てる伝言。 -/
def stopMessage (t : Task) (originalTaskID : String) : UDSMessage where
  taskID := originalTaskID
  cmd := t.cmd
  action := "stop"
  channel := t.channel
  videoDecodeMode := -1
  outputTimeoutMs := 5000
  outputReconnectAttempts := 5
  outputReconnectDelayMs := 1000

theorem buildUDSMessage_stop {t : Task} {originalTaskID : String} (ha : t.action = "stop")
    (hp : t.payload = some [("task_id", .str originalTaskID)]) (hne : originalTaskID ≠ "") (hcmd : t.cmd ∈ validCmds) :
    buildUDSMessageFromQueueTask t = .ok (stopMessage t originalTaskID) := by
  have haction : "stop" ∈ validActions := by decide
  have hlayout : "flat" ∈ validLayouts := by decide
  rw [buildUDSMessageFromQueueTask_eq_ok, hp, Option.getD_some]
  constructor
  · constructor
    case taskID => simp [buildTaskID, Payload.str?, hne, stopMessage]
    case cmd => rfl
    case action => exact ha.symm
    case channel =>
        have hnone : List.lookup "channel" [("task_id", Json.str originalTaskID)] = none := rfl
        simp [buildChannel, hnone, ha, stopMessage, bind, Except.bind]
    case token => rw [ha]; rfl
    case workerUid => rw [ha]; rfl
    case interval => rw [ha]; rfl
    all_goals rfl
  · simp [validateUDSMessage, stopMessage, hcmd, haction, hlayout, validateCanvasURL]

/-- ポッドが処理できる記録。 -/
structure Served (w : World) (t : Task) : Prop where
  kind : Kind w t
  valid : ∃ t', validateRedisTask t = .ok t'
  stops : ∀ originalTaskID, t.action = "stop" → t.payload = some [("task_id", .str originalTaskID)] →
    buildUDSMessageFromQueueTask t = .ok (stopMessage t originalTaskID)

theorem Sound.served {w : World} {t : Task} (h : Sound w t) (hid : validateTaskID t.id = none) : Served w t := by
  have hfields := h.fields hid
  refine ⟨h.kind, ?_, fun originalTaskID ha hp => ?_⟩
  · cases h.kind with
    | start ha hp haccepted => exact ⟨_, (validateRedisTask_start ha hp).mpr ⟨hfields, haccepted, rfl⟩⟩
    | stop ha => exact ⟨t, by simp [validateRedisTask, hfields, ha]⟩
  · cases h.kind with
    | start ha' => exact absurd (ha'.symm.trans ha) (by decide)
    | stop _ hp' hvalid =>
        have hne : originalTaskID ≠ "" := by
          rintro rfl
          cases hp.symm.trans hp'
          cases hvalid
        exact buildUDSMessage_stop ha hp hne h.cmd

/-- API サーバーだけが公開するならば、どの記録もポッドが処理できる。 -/
theorem stored_served {p : Pool service} (hrun : Run requests (.start World.init) p) {hash : Vector UInt8 32} {t : Task}
    (ht : p.state.task (taskIDOf hash) = some t) : Served p.state t := by
  obtain ⟨q, hq, hstate⟩ := accepted_run hrun
  rw [← hstate] at ht ⊢
  obtain ⟨hid, hsound⟩ := allSound_run hq _ t ht
  exact hsound.served (hid ▸ validateTaskID_taskIDOf hash)

def stopHash : Vector UInt8 32 := .replicate 32 0xCD

/-- 開始の要求と、そのタスクの停止の要求。 -/
def startedAndStopped : List (Move service) :=
  [.spawn (.startTask "192.0.2.1" "app" (.ok (requestWithToken (.str "0123456789")))), .run 0 {},
    .run 0 { text := taskIDOf someHash }, .run 0 {}, .run 0 {},
    .spawn (.stopTask "192.0.2.1" "app" (taskIDOf someHash) (.ok "r2")), .run 1 {}, .run 1 {}, .run 1 {}, .run 1 {},
    .run 1 { text := taskIDOf stopHash }, .run 1 {}, .run 1 {}]

theorem stored_served_stopped : ∃ (p : Pool service) (t : Task), Run requests (.start World.init) p ∧
    p.state.task (taskIDOf stopHash) = some t ∧ t.action = "stop" ∧ Served p.state t := by
  have hplay : (Pool.play startedAndStopped (.start World.init)).map
      (fun p => (p.state.task (taskIDOf stopHash)).map Task.action) = some (some "stop") := by decide
  obtain ⟨p, hp, htask⟩ := Option.map_eq_some_iff.mp hplay
  obtain ⟨t, ht, haction⟩ := Option.map_eq_some_iff.mp htask
  have hrun : Run requests (.start World.init) p :=
    Pool.play_sound (Pool.allMeet_ofCalls (by simp [startedAndStopped, Move.call?, Request.isOrdinary])) hp
  exact ⟨p, t, hrun, ht, haction, stored_served hrun ht⟩

end ApiServer

end RtcEgress.Message
