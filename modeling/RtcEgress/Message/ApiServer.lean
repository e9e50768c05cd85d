import RtcEgress.Lib.Quiet
import RtcEgress.Message.StartTask
import RtcEgress.Queue.Lemmas.Base

/-!
# `cmd/api_server/main.go`

要求の処理を、応答を返すプログラムとして写す。`parseRegionFromIP` は常に空の地域を返す。`redisQueue` は、起動のときに必ず作られて
いる。公開の前の問い合わせは状態を変えないので、要求とポッドの呼び出しがどの順に交互に進んでも、到達する状態には、受け付けた公開
だけを始める実行も到達する。
-/

namespace RtcEgress.Message

open RtcEgress.Lib RtcEgress.Queue

namespace ApiServer

/-! ## 応答 -/

/-- 状態の定数の文字列。 -/
def stateName : TaskState → String
  | .enqueued => "ENQUEUED"
  | .processing => "PROCESSING"
  | .stopping => "STOPPING"
  | .stopped => "STOPPED"
  | .failed => "FAILED"
  | .timeout => "TIMEOUT"

/-- 初めの三つはエラーの状態、残りは `200` である。Redis のエラーの文は残さない。 -/
inductive Reply where
  | badRequest (error : String)
  | internalServerError
  | notFound
  | enqueued (taskID : String)
  | rejected (taskID error : String)
  | completed (taskID message : String)
  | status (taskID state action : String) (createdAt : Nat) (message : String) (workerID : Int)

/-! ## 要求の処理 -/

def parseRegionFromIP (_ip : String) : String := ""

/-- 復号に失敗した本文は、そのエラーで表す。 -/
def startTask (clientIP appID : String) (body : Except String TaskRequest) : P Reply :=
  if appID = "" then return .badRequest "app_id is required"
  else match body with
    | .error e => return .badRequest e
    | .ok request =>
        match Message.startTask appID request with
        | .error e => return .badRequest e
        | .ok (request, channel) => do
            let published ← publishTaskToRegion request.cmd "start" channel request.requestID request.payload
              (parseRegionFromIP clientIP)
            match published with
            | none => return .internalServerError
            | some task => return .enqueued task.id

def validateStopTaskRequest (requestID taskID : String) : Option String :=
  (validateRequestID requestID).or (validateTaskID taskID)

def validateStatusTaskRequest (requestID taskID : String) : Option String := validateStopTaskRequest requestID taskID

/-- 停止と問い合わせの要求の検査。本文は `request_id` だけである。 -/
def checkTaskID (appID taskID : String) (body : Except String String) (validate : String → String → Option String) :
    Except String String :=
  if appID = "" then .error "app_id is required"
  else if taskID = "" then .error "task_id is required"
  else match body with
    | .error e => .error e
    | .ok requestID =>
        match validate requestID taskID with
        | some e => .error ("validation failed: " ++ e)
        | none => .ok requestID

/-- 停止するタスクを調べた後。 -/
def stopFound (clientIP taskID requestID : String) : Option Task → P Reply
  | none => return .rejected taskID ("Task " ++ taskID ++ " not found")
  | some task =>
      if task.isTerminal then
        return .completed taskID ("Task already in terminal state: " ++ stateName task.state)
      else do
        let published ← publishStopTaskFor taskID requestID (parseRegionFromIP clientIP)
        match published with
        | none => return .internalServerError
        | some _ => return .enqueued taskID

def stopTask (clientIP appID taskID : String) (body : Except String String) : P Reply :=
  match checkTaskID appID taskID body validateStopTaskRequest with
  | .error e => return .badRequest e
  | .ok requestID => do
      let found ← Queue.getTaskStatus .publishStop taskID
      stopFound clientIP taskID requestID found

def getTaskStatus (appID taskID : String) (body : Except String String) : P Reply :=
  match checkTaskID appID taskID body validateStatusTaskRequest with
  | .error e => return .badRequest e
  | .ok _ => do
      let found ← Queue.getTaskStatus .publishStop taskID
      match found with
      | none => return .notFound
      | some task =>
          return .status task.id (stateName task.state) task.action task.createdAt task.message task.workerID

/-! ## API サーバーとポッドの全体 -/

/-- API サーバーへの要求と、ポッドの呼び出し。 -/
inductive Request where
  | startTask (clientIP appID : String) (body : Except String TaskRequest)
  | stopTask (clientIP appID taskID : String) (body : Except String String)
  | getTaskStatus (appID taskID : String) (body : Except String String)
  | pod (k : Call)

def Request.body : Request → P Unit
  | .startTask clientIP appID body => do let _ ← ApiServer.startTask clientIP appID body
  | .stopTask clientIP appID taskID body => do let _ ← ApiServer.stopTask clientIP appID taskID body
  | .getTaskStatus appID taskID body => do let _ ← ApiServer.getTaskStatus appID taskID body
  | .pod k => callBody k

/-- タスクを公開する呼び出し。 -/
def publishes : Call → Bool
  | .publish .. | .publishStop .. => true
  | _ => false

/-- ポッドはタスクを公開しない。 -/
def Request.isOrdinary : Request → Bool
  | .pod k => !publishes k
  | _ => true

abbrev service : Machine Cmd Cmd.Resp := machine.withCalls Request.body

/-- 公開は API サーバーだけが行う。 -/
def requests : Guard service := .ofCalls fun r => r.isOrdinary = true

/-! ## 受け付けた公開 -/

/-- 受け付けた要求の公開。 -/
def Accepted : Call → Prop
  | .publish cmd action channel requestID payload region =>
      ∃ appID r r', Message.startTask appID r = .ok (r', channel) ∧ cmd = r'.cmd ∧ action = "start" ∧
        requestID = r'.requestID ∧ payload = r'.payload ∧ region = ""
  | .publishStop originalTaskID requestID region =>
      validateStopTaskRequest requestID originalTaskID = none ∧ region = ""
  | _ => True

section
variable {clientIP appID taskID : String}

theorem checkTaskID_eq_ok {body : Except String String} {validate : String → String → Option String} {requestID : String}
    (h : checkTaskID appID taskID body validate = .ok requestID) : validate requestID taskID = none := by
  unfold checkTaskID at h
  split_ifs at h
  cases body with
  | error e => cases h
  | ok requestID' =>
      dsimp only at h
      split at h
      · cases h
      next hvalid =>
        cases h
        exact hvalid

theorem quiet_getTask (reader : Reader) (id : String) : machine.Quiet (.getTask reader id) := by
  intro o w r w' h
  exact (exec_eq h).2

/-- 公開の結果を応答に直しても、残りの命令はない。 -/
theorem prelude_publish {k : Call} {p : P (Option Task)} {reply : Option Task → P Reply} (hk : Accepted k)
    (hbody : callBody k = p >>= fun _ => .ret ()) (hreply : ∀ t, ∃ r, reply t = .ret r) :
    Prelude machine Accepted ((p >>= reply) >>= fun _ => .ret ()) := by
  have hsame : (p >>= reply) >>= (fun _ => (.ret () : P Unit)) = p >>= fun _ => .ret () := by
    rw [Prog.bind_assoc]
    congr 1
    funext t
    obtain ⟨r, hr⟩ := hreply t
    rw [hr]
    rfl
  rw [hsame, ← hbody]
  exact .enter hk

theorem prelude_startTask (body : Except String TaskRequest) :
    Prelude machine Accepted (Request.startTask clientIP appID body).body := by
  simp only [Request.body, startTask]
  split
  · exact .stop
  · cases body with
    | error e => exact .stop
    | ok r =>
        dsimp only
        cases hstart : Message.startTask appID r with
        | error e => exact .stop
        | ok accepted =>
            obtain ⟨r', channel⟩ := accepted
            have haccepted : Accepted (.publish r'.cmd "start" channel r'.requestID r'.payload "") :=
              ⟨appID, r, r', hstart, rfl, rfl, rfl, rfl, rfl⟩
            refine prelude_publish haccepted rfl fun t => ?_
            cases t <;> exact ⟨_, rfl⟩

theorem prelude_stopFound {requestID : String} (hvalid : validateStopTaskRequest requestID taskID = none)
    (found : Option Task) :
    Prelude machine Accepted (stopFound clientIP taskID requestID found >>= fun _ => .ret ()) := by
  cases found with
  | none => exact .stop
  | some task =>
      rw [stopFound]
      split
      · exact .stop
      · have haccepted : Accepted (.publishStop taskID requestID "") := ⟨hvalid, rfl⟩
        refine prelude_publish haccepted rfl fun t => ?_
        cases t <;> exact ⟨_, rfl⟩

theorem prelude_stopTask (body : Except String String) :
    Prelude machine Accepted (Request.stopTask clientIP appID taskID body).body := by
  simp only [Request.body, stopTask]
  cases hcheck : checkTaskID appID taskID body validateStopTaskRequest with
  | error e => exact .stop
  | ok requestID => exact .quiet (quiet_getTask _ _) fun found => prelude_stopFound (checkTaskID_eq_ok hcheck) found

theorem prelude_getTaskStatus (body : Except String String) :
    Prelude machine Accepted (Request.getTaskStatus appID taskID body).body := by
  simp only [Request.body, getTaskStatus]
  cases checkTaskID appID taskID body validateStatusTaskRequest with
  | error e => exact .stop
  | ok requestID =>
      refine .quiet (quiet_getTask _ _) fun found => ?_
      cases found <;> exact .stop

end

theorem Request.prelude_body (r : Request) (h : r.isOrdinary = true) : Prelude machine Accepted r.body := by
  cases r with
  | startTask clientIP appID body => exact prelude_startTask body
  | stopTask clientIP appID taskID body => exact prelude_stopTask body
  | getTaskStatus appID taskID body => exact prelude_getTaskStatus body
  | pod k =>
      refine .enter ?_
      cases k
      case publish => cases h
      case publishStop => cases h
      all_goals trivial

/-- 到達する状態には、受け付けた公開だけを始める実行も到達する。 -/
theorem accepted_run {p : Pool service} (hrun : Run requests (.start World.init) p) :
    ∃ q : Pool machine, Run (.ofCalls Accepted) (.start World.init) q ∧ q.state = p.state :=
  hrun.withoutPrelude Request.prelude_body

end ApiServer

end RtcEgress.Message
