import RtcEgress.Lib.Prog
import RtcEgress.Worker.TaskPipe

/-!
# `src/task_pipe.cpp` のスレッド

コマンドを読むスレッド、録画の長さを調べるスレッド、配信のスレッド、SDK のスレッドを、命令を一つずつ出すプログラムとして
写す。`state_mutex_` を持つ間の読み書きと、一つの完了の送信を、それぞれ一つの命令にする。部品の `stop` は、その部品の
スレッドが通知を終えるまで待つ。ただし、自分のスレッドは待たない。
-/

namespace RtcEgress.Worker.Threads

open RtcEgress.Lib

/-- `stop` を呼ぶスレッド。 -/
inductive Caller where
  | pipe | recording | streaming | sdk
  deriving DecidableEq

/-- `RecordingSink` の、`isRecording_` のほかの状態。 -/
structure Recorder where
  taskId : String := ""
  stopRequested : Bool := false
  /-- 録画のスレッドが、長さに達したことを知らせている。 -/
  inCallback : Bool := false

/-- `StreamingSink` の、`active_` のほかの状態。 -/
structure Publisher where
  taskId : String := ""
  initialized : Bool := false
  stopping : Bool := false
  failed : Bool := false
  /-- `joinable` は配信のスレッドがまだ `join` されていないこと、`running` はそれが終わっていないことである。 -/
  joinable : Bool := false
  running : Bool := false
  ended : Bool := false

/-- `pipe` の `recording` と `streaming` は、`isRecording_` と `active_` である。 -/
structure Shared where
  pipe : TaskPipe
  recorder : Recorder := {}
  publisher : Publisher := {}
  reading : Bool := false

def Shared.init (snapshot : SnapshotConfig) (recording : RecordingConfig) : Shared where
  pipe := .init snapshot recording

/-! ## 命令 -/

inductive Cmd where
  | connectSocket
  | receive (msg : UDSMessage)
  | isConnected (channel : String)
  | setChannel (channel token : String)
  | connect (ok : Bool)
  | markConnected (channel : String)
  | hasActiveTasksOfType (type : TaskCmd)
  | addTask (channel taskId : String) (cmd : TaskCmd)
  | addRecording (channel taskId : String)
  | isCapturing
  | startSnapshot (ok : Bool)
  | stopSnapshot
  | startRecording (taskId : String) (ok : Bool)
  | requestStopRecording
  | joinRecording (caller : Caller)
  | initializeStreaming (taskId : String) (ok : Bool)
  | startStreaming (ok : Bool)
  | requestStopStreaming
  | joinStreaming (caller : Caller)
  | hasFailed
  | takeSnapshot (msg : UDSMessage) (pick : Option (String × String))
  | findRecording (msg : UDSMessage) (pick : Option (String × String))
  | findStreaming (msg : UDSMessage) (pick : Option (String × String))
  | findTask (taskId : String) (pick : Option (String × String))
  | release (channel taskId : String)
  | eraseChannel (channel : String)
  | disconnect
  | send (m : UDSCompletionMessage)
  | reachDuration
  | endRecordingCallback
  | endStreaming (failed : Bool)
  | isStopping
  | leaveStreaming
  | failAll (errorType errorMessage : String)

abbrev Cmd.Resp : Cmd → Type
  | .isConnected _ | .connect _ | .hasActiveTasksOfType _ | .addRecording _ _ | .isCapturing | .startSnapshot _
  | .startRecording _ _ | .initializeStreaming _ _ | .startStreaming _ | .hasFailed | .release _ _ | .isStopping => Bool
  | .takeSnapshot _ _ | .findStreaming _ _ => Option (String × String)
  | .findRecording _ _ => Option (String × String × Bool)
  | .findTask _ _ | .reachDuration | .endStreaming _ => Option String
  | .eraseChannel _ => Option Bool
  | _ => Unit

def Shared.update (s : Shared) (f : TaskPipe → TaskPipe) : Shared := { s with pipe := f s.pipe }

namespace TaskPipe

def channelState (s : TaskPipe) (channel : String) : ChannelState := (s.channelStates.lookup channel).getD {}

def setTasks (s : TaskPipe) (channel : String) (tasks : AList fun _ : String => TaskCmd) : TaskPipe :=
  { s with channelStates := s.channelStates.insert channel { channelState s channel with activeTasks := tasks } }

def removeTask (s : TaskPipe) (channel taskId : String) : TaskPipe :=
  setTasks s channel ((channelState s channel).activeTasks.erase taskId)

/-- 静止画の停止は、見つけたタスクをすぐに取り除く。名前が空なら、取り除くだけで終わる。 -/
def takeSnapshot (s : TaskPipe) (msg : UDSMessage) (pick : Option (String × String)) :
    Option (String × String) × TaskPipe :=
  match s.findToStop msg { pick } with
  | none => (none, s)
  | some (channel, taskId) =>
      let s := removeTask s channel taskId
      if taskId = "" ∨ channel = "" then (none, s)
      else (some (channel, taskId), if s.hasActiveTasksOfType .snapshot then s else { s with capturing := false })

/-- 録画の停止が見つけたタスクと、それがチャンネルの最後の録画であること。 -/
def findRecording (s : TaskPipe) (msg : UDSMessage) (pick : Option (String × String)) : Option (String × String × Bool) :=
  ((s.findToStop msg { pick }).filter fun x => x.1 ≠ "" ∧ x.2 ≠ "").map fun x =>
    (x.1, x.2, !s.tasks.any fun t => t.1 == x.1 && t.2.1 != x.2 && t.2.2 == .record)

def findStreaming (s : TaskPipe) (msg : UDSMessage) (pick : Option (String × String)) : Option (String × String) :=
  (s.search pick fun channel taskId type =>
    type == msg.cmd && (if msg.taskId = "" then channel == msg.channel else taskId == msg.taskId)).filter fun x => x.2 ≠ ""

def findTask (s : TaskPipe) (taskId : String) (pick : Option (String × String)) : Option String :=
  (s.search pick fun _ id _ => id == taskId).map Prod.fst

def failures (s : TaskPipe) (errorType errorMessage : String) : List UDSCompletionMessage :=
  s.tasks.map fun t => ⟨t.2.1, "failed", "SDK Error: " ++ errorType ++ " - " ++ errorMessage,
    "Task failed due to unrecoverable SDK error"⟩

end TaskPipe

/-- 命令の応答と、その後の状態。 -/
def Cmd.exec (c : Cmd) (s : Shared) : Option (c.Resp × Shared) :=
  let pipe := s.pipe
  match c with
  | .connectSocket => if s.reading then none else some ((), { s with reading := true })
  | .receive _ => some ((), s)
  | .isConnected channel => some ((TaskPipe.channelState pipe channel).isConnected, s)
  | .setChannel channel token => some ((), s.update fun pipe =>
      let client := { pipe.rtcClient with channel }
      { pipe with rtcClient := if token ≠ "" then { client with accessToken := token } else client })
  | .connect ok =>
      let (connected, rtcClient) := pipe.rtcClient.connect ok
      some (connected, s.update fun pipe => { pipe with rtcClient })
  | .markConnected channel => some ((), s.update fun pipe =>
      { pipe with channelStates :=
          pipe.channelStates.insert channel { TaskPipe.channelState pipe channel with isConnected := true } })
  | .hasActiveTasksOfType type => some (pipe.hasActiveTasksOfType type, s)
  | .addTask channel taskId cmd => some ((), s.update fun pipe => pipe.addTask channel taskId cmd)
  | .addRecording channel taskId =>
      some (pipe.tasks.any fun t => t.1 == channel && t.2.2 == .record,
        s.update fun pipe => pipe.addTask channel taskId .record)
  | .isCapturing => some (pipe.capturing, s)
  | .startSnapshot ok => some (ok, s.update fun pipe => { pipe with capturing := pipe.capturing || ok })
  | .stopSnapshot => some ((), s.update fun pipe => { pipe with capturing := false })
  | .startRecording taskId ok =>
      if pipe.recording || !ok then some (false, s)
      else if s.recorder.inCallback then none
      else some (true, { s.update fun pipe => { pipe with recording := true } with recorder := { taskId } })
  | .requestStopRecording => some ((), { s with recorder := { s.recorder with stopRequested := true } })
  | .joinRecording caller =>
      if s.recorder.inCallback && caller ≠ .recording then none
      else some ((), s.update fun pipe => { pipe with recording := false })
  | .initializeStreaming taskId ok =>
      if pipe.streaming || s.publisher.joinable || !ok then some (false, s)
      else some (true, { s with publisher := { s.publisher with taskId, failed := false, initialized := true } })
  | .startStreaming ok =>
      if !s.publisher.initialized || pipe.streaming || s.publisher.joinable || !ok then some (false, s)
      else some (true, { s.update fun pipe => { pipe with streaming := true } with
        publisher := { s.publisher with stopping := false, failed := false, joinable := true, running := true, ended := false } })
  | .requestStopStreaming => some ((), { s with publisher := { s.publisher with stopping := true } })
  | .joinStreaming caller =>
      if caller = .streaming then some ((), s)
      else if s.publisher.running then none
      else some ((), { s.update fun pipe => { pipe with streaming := false } with
        publisher := { s.publisher with initialized := false, joinable := false } })
  | .hasFailed => some (s.publisher.failed, s)
  | .takeSnapshot msg pick =>
      let (found, pipe) := TaskPipe.takeSnapshot pipe msg pick
      some (found, { s with pipe })
  | .findRecording msg pick => some (TaskPipe.findRecording pipe msg pick, s)
  | .findStreaming msg pick => some (TaskPipe.findStreaming pipe msg pick, s)
  | .findTask taskId pick => some (TaskPipe.findTask pipe taskId pick, s)
  | .release channel taskId =>
      match pipe.channelStates.lookup channel with
      | none => some (false, s)
      | some state => some ((state.activeTasks.erase taskId).entries.isEmpty,
          s.update fun pipe => TaskPipe.removeTask pipe channel taskId)
  | .eraseChannel channel =>
      some ((pipe.channelStates.lookup channel).map ChannelState.isConnected,
        s.update fun pipe => { pipe with channelStates := pipe.channelStates.erase channel })
  | .disconnect => some ((), s.update fun pipe => { pipe with rtcClient := pipe.rtcClient.disconnect })
  | .send m => some ((), s.update fun pipe => pipe.sendCompletionMessage m)
  | .reachDuration =>
      if pipe.recording && !s.recorder.stopRequested then
        if s.recorder.taskId = "" then some (none, { s with recorder := { s.recorder with stopRequested := true } })
        else some (some s.recorder.taskId,
          { s with recorder := { s.recorder with stopRequested := true, inCallback := true } })
      else some (none, s)
  | .endRecordingCallback => some ((), { s with recorder := { s.recorder with inCallback := false } })
  | .endStreaming failed =>
      if s.publisher.running && !s.publisher.ended then
        some (some s.publisher.taskId, { s.update fun pipe => { pipe with streaming := false } with
          publisher := { s.publisher with failed := s.publisher.failed || failed, ended := true } })
      else some (none, s)
  | .isStopping => some (s.publisher.stopping, s)
  | .leaveStreaming => some ((), { s with publisher := { s.publisher with running := false } })
  | .failAll errorType errorMessage => some ((), s.update fun pipe =>
      { pipe with
        sent := (TaskPipe.failures pipe errorType errorMessage).reverse ++ pipe.sent
        channelStates := ∅ })

abbrev P (α : Type) := Prog Cmd Cmd.Resp α

abbrev perform (c : Cmd) : P c.Resp := Prog.perform c

abbrev sendCompletionMessage (m : UDSCompletionMessage) : P Unit := perform (.send m)

/-! ## 部品と接続 -/

def stopRecordingSink (caller : Caller) : P Unit := do
  perform .requestStopRecording
  perform (.joinRecording caller)

def stopStreamingSink (caller : Caller) : P Unit := do
  perform .requestStopStreaming
  perform (.joinStreaming caller)

def ensureConnected (channel token : String) (ok : Bool) : P Bool := do
  let connected : Bool ← perform (.isConnected channel)
  if connected then return true
  else
    perform (.setChannel channel token)
    let connected : Bool ← perform (.connect ok)
    if connected then
      perform (.markConnected channel)
      return true
    else return false

def cleanupConnection (channel : String) (caller : Caller) : P Unit := do
  let found : Option Bool ← perform (.eraseChannel channel)
  match found with
  | none => return ()
  | some connected =>
      perform .stopSnapshot
      stopRecordingSink caller
      stopStreamingSink caller
      if connected then perform .disconnect else return ()

def releaseConnection (channel taskId : String) (caller : Caller) : P Unit := do
  let shouldCleanup : Bool ← perform (.release channel taskId)
  if shouldCleanup then cleanupConnection channel caller else return ()

/-! ## コマンド -/

def startSnapshot (msg : UDSMessage) (o : Outcome) : P Unit := do
  let connected ← ensureConnected msg.channel msg.accessToken o.connect
  if connected then
    perform (.addTask msg.channel msg.taskId .snapshot)
    let capturing : Bool ← perform .isCapturing
    if capturing then return ()
    else
      let started : Bool ← perform (.startSnapshot o.snapshot)
      if started then return () else releaseConnection msg.channel msg.taskId .pipe
  else return ()

def stopSnapshot (msg : UDSMessage) (o : Outcome) : P Unit := do
  let found : Option (String × String) ← perform (.takeSnapshot msg o.pick)
  match found with
  | none => return ()
  | some (channel, taskId) =>
      releaseConnection channel taskId .pipe
      sendCompletionMessage ⟨taskId, "success", "", "Snapshot task completed successfully"⟩

def handleSnapshotCommand (msg : UDSMessage) (o : Outcome) : P Unit :=
  if msg.channel = "" then return ()
  else match msg.action with
    | .start => startSnapshot msg o
    | .stop => stopSnapshot msg o
    | .status | .other => return ()

def startRecording (msg : UDSMessage) (o : Outcome) : P Unit :=
  if msg.channel = "" then return ()
  else do
    let connected ← ensureConnected msg.channel msg.accessToken o.connect
    if connected then
      let active : Bool ← perform (.addRecording msg.channel msg.taskId)
      if active then return ()
      else
        let started : Bool ← perform (.startRecording msg.taskId o.recording)
        if started then return ()
        else
          releaseConnection msg.channel msg.taskId .pipe
          sendCompletionMessage
            { taskId := msg.taskId, status := "failed", error := "Failed to start recording sink" }
    else return ()

def stopRecording (msg : UDSMessage) (o : Outcome) : P Unit := do
  let found : Option (String × String × Bool) ← perform (.findRecording msg o.pick)
  match found with
  | none => return ()
  | some (channel, taskId, last) =>
      if last then stopRecordingSink .pipe
      releaseConnection channel taskId .pipe
      sendCompletionMessage ⟨taskId, "success", "", "Recording task completed successfully"⟩

def handleRecordingCommand (msg : UDSMessage) (o : Outcome) : P Unit :=
  match msg.action with
  | .start => startRecording msg o
  | .stop => stopRecording msg o
  | .status | .other => return ()

def isBusy : P Bool := do
  let rtmp : Bool ← perform (.hasActiveTasksOfType .rtmp)
  if rtmp then return true
  else
    let whip : Bool ← perform (.hasActiveTasksOfType .whip)
    return whip

def startStreaming (msg : UDSMessage) (o : Outcome) : P Unit := do
  let busy : Bool ← (if msg.channel = "" ∨ msg.taskId = "" then pure true else isBusy)
  if busy then
    sendCompletionMessage
      { taskId := msg.taskId, status := "failed", error := "Streaming requires an idle sink and a channel" }
  else
    stopStreamingSink .pipe
    let initialized : Bool ← perform (.initializeStreaming msg.taskId o.streamingInitialize)
    if initialized then
      let connected ← ensureConnected msg.channel msg.accessToken o.connect
      if connected then
        perform (.addTask msg.channel msg.taskId msg.cmd)
        let started : Bool ← perform (.startStreaming o.streamingStart)
        if started then return ()
        else
          releaseConnection msg.channel msg.taskId .pipe
          sendCompletionMessage
            { taskId := msg.taskId, status := "failed", error := "Failed to start streaming publisher" }
      else
        stopStreamingSink .pipe
        sendCompletionMessage { taskId := msg.taskId, status := "failed", error := "Failed to connect RTC channel" }
    else
      stopStreamingSink .pipe
      sendCompletionMessage { taskId := msg.taskId, status := "failed", error := "Invalid streaming configuration" }

def stopStreaming (msg : UDSMessage) (o : Outcome) : P Unit := do
  let found : Option (String × String) ← perform (.findStreaming msg o.pick)
  match found with
  | none => return ()
  | some (channel, taskId) =>
      stopStreamingSink .pipe
      let failed : Bool ← perform .hasFailed
      releaseConnection channel taskId .pipe
      sendCompletionMessage ⟨taskId, if failed then "failed" else "success",
        if failed then "Streaming destination failed" else "", "Streaming stopped"⟩

def handleStreamingCommand (msg : UDSMessage) (o : Outcome) : P Unit :=
  match msg.action with
  | .start => startStreaming msg o
  | .stop => stopStreaming msg o
  | .status => return ()
  | .other => sendCompletionMessage
      { taskId := msg.taskId, status := "failed", error := "Unsupported streaming action" }

def handleCommand (msg : UDSMessage) (o : Outcome) : P Unit := do
  perform (.receive msg)
  match msg.cmd with
  | .snapshot => handleSnapshotCommand msg o
  | .record => handleRecordingCommand msg o
  | .rtmp | .whip => handleStreamingCommand msg o

/-- 受け取ったコマンドを順に処理する。 -/
def threadFunc (messages : List (UDSMessage × Outcome)) : P Unit := do
  perform .connectSocket
  Prog.forEach (fun x => handleCommand x.1 x.2) messages

/-! ## 通知 -/

/-- 録画が長さに達したスレッド。タスクが見つからなくても、完了を送る。 -/
def recordingThread (o : Outcome) : P Unit := do
  let reached : Option String ← perform .reachDuration
  match reached with
  | none => return ()
  | some taskId =>
      let found : Option String ← perform (.findTask taskId o.pick)
      match found with
      | some channel => if channel ≠ "" then releaseConnection channel taskId .recording
      | none => pure ()
      sendCompletionMessage ⟨taskId, "success", "", "Recording completed - max duration reached"⟩
      perform .endRecordingCallback

/-- 配信が失敗したか長さに達したスレッド。停止を求められていれば、何も知らせない。 -/
def streamingThread (failed : Bool) (message : String) (o : Outcome) : P Unit := do
  let ended : Option String ← perform (.endStreaming failed)
  match ended with
  | none => return ()
  | some taskId =>
      let stopping : Bool ← perform .isStopping
      if stopping then perform .leaveStreaming
      else
        let found : Option String ← perform (.findTask taskId o.pick)
        match found with
        | some channel =>
            if channel ≠ "" then
              releaseConnection channel taskId .streaming
              sendCompletionMessage ⟨taskId, if failed then "failed" else "success", if failed then message else "", message⟩
        | none => pure ()
        perform .leaveStreaming

/-- すべてのタスクの失敗を知らせる間は、`state_mutex_` を持つ。 -/
def handleSdkError (errorType errorMessage : String) : P Unit := do
  let hadRecording : Bool ← perform (.hasActiveTasksOfType .record)
  let hadSnapshot : Bool ← perform (.hasActiveTasksOfType .snapshot)
  let hadStream ← isBusy
  perform (.failAll errorType errorMessage)
  if hadRecording then stopRecordingSink .sdk
  if hadSnapshot then perform .stopSnapshot
  if hadStream then stopStreamingSink .sdk else return ()

/-! ## 全体 -/

inductive Call where
  | threadFunc (messages : List (UDSMessage × Outcome))
  | recordingThread (o : Outcome)
  | streamingThread (failed : Bool) (message : String) (o : Outcome)
  | handleSdkError (errorType errorMessage : String)

def Call.body : Call → P Unit
  | .threadFunc messages => Threads.threadFunc messages
  | .recordingThread o => Threads.recordingThread o
  | .streamingThread failed message o => Threads.streamingThread failed message o
  | .handleSdkError errorType errorMessage => Threads.handleSdkError errorType errorMessage

abbrev machine : Machine Cmd Cmd.Resp where
  State := Shared
  Oracle := Unit
  exec := fun _ => Cmd.exec
  Env := Empty
  env := fun e _ => nomatch e
  Call := Call
  body := Call.body

end RtcEgress.Worker.Threads
