import Mathlib.Data.List.AList

/-!
# `src/task_pipe.cpp` のコマンドの処理

ワーカーが受け取ったコマンド、録画と配信の完了の通知、SDK のエラーを、一つずつ処理する関数として写す。接続と、
録画・静止画・配信の各部品の成否は、結果として受け取る。`std::unordered_map` の列挙の順は決まっていないので、
最初に見つかるものを選ぶ箇所では、候補のうちのどれが選ばれるかも結果として受け取る。
-/

namespace RtcEgress.Worker

inductive TaskCmd where
  | snapshot | record | rtmp | whip
  deriving DecidableEq

inductive Action where
  | start | stop | status | other
  deriving DecidableEq

inductive VideoDecodeMode where
  | passthrough | ffmpegDecode | sdkDecode
  deriving DecidableEq

inductive CompositorMode where
  | individual | composite
  deriving DecidableEq

structure LayoutRegion where
  uid : String
  x : Int
  y : Int
  width : Int
  height : Int
  z : Int

/-- `UDSMessage` のうち、処理が読む欄。 -/
structure UDSMessage where
  taskId : String
  cmd : TaskCmd
  action : Action
  channel : String
  uid : List String := []
  layout : String := "flat"
  regions : List LayoutRegion := []
  width : Int := 0
  height : Int := 0
  accessToken : String := ""
  intervalInMs : Int := 0
  videoDecodeMode : Int := -1
  outputUrl : String := ""
  outputToken : String := ""
  outputTimeoutMs : Int := 5000
  outputReconnectAttempts : Int := 5
  outputReconnectDelayMs : Int := 1000

structure UDSCompletionMessage where
  taskId : String
  status : String
  error : String := ""
  message : String := ""

/-! ## 部品の設定 -/

/-- `SnapshotSink::Config` のうち、コマンドが書く欄。 -/
structure SnapshotConfig where
  channel : String := ""
  taskId : String := ""
  targetUsers : List String := []
  mode : CompositorMode := .composite
  layout : String := ""
  regions : List LayoutRegion := []
  userOrder : List String := []
  width : Int
  height : Int
  intervalInMs : Int

/-- `RecordingSink::Config` のうち、コマンドが書く欄。 -/
structure RecordingConfig where
  channel : String := ""
  taskId : String := ""
  layout : String := ""
  regions : List LayoutRegion := []
  videoWidth : Int
  videoHeight : Int
  targetUsers : List String := []
  mode : CompositorMode := .composite
  videoDecodeMode : Int := 1

/-- 既定の設定。 -/
def sinkDefaults : SnapshotConfig × RecordingConfig :=
  ({ width := 1280, height := 720, intervalInMs := 20000 }, { videoWidth := 1280, videoHeight := 720 })

/-! ## 接続 -/

/-- `connect` が実際に作った接続。 -/
structure Connection where
  channel : String
  mode : VideoDecodeMode
  deriving DecidableEq

/-- `connected_` は、開いている接続があることである。 -/
structure RtcClient where
  channel : String := ""
  accessToken : String := ""
  videoDecodeMode : VideoDecodeMode := .ffmpegDecode
  connection : Option Connection := none

namespace RtcClient

/-- すでに接続していれば、何もせずに成功を返す。 -/
def connect (ok : Bool) (c : RtcClient) : Bool × RtcClient :=
  if c.connection.isSome then (true, c)
  else if ok then (true, { c with connection := some ⟨c.channel, c.videoDecodeMode⟩ })
  else (false, c)

theorem connect_ok (c : RtcClient) : (c.connect true).1 = true := by
  unfold connect
  split
  · rfl
  · rfl

/-- 接続の成功の後は、接続が開いている。 -/
theorem connect_isSome {ok : Bool} {c c' : RtcClient} (h : c.connect ok = (true, c')) : c'.connection.isSome = true := by
  unfold connect at h
  split at h
  · rename_i hc
    rwa [← (Prod.mk.inj h).2]
  · split at h
    · rw [← (Prod.mk.inj h).2]
      rfl
    · cases h

def disconnect (c : RtcClient) : RtcClient := { c with connection := none }

end RtcClient

/-! ## 状態 -/

structure ChannelState where
  isConnected : Bool := false
  activeTasks : AList fun _ : String => TaskCmd := ∅

structure TaskPipe where
  channelStates : AList fun _ : String => ChannelState
  rtcClient : RtcClient
  snapshotConfig : SnapshotConfig
  recordingConfig : RecordingConfig
  /-- 各部品が動いている。 -/
  capturing : Bool
  recording : Bool
  streaming : Bool
  /-- 送った完了の通知。新しいものが先頭である。 -/
  sent : List UDSCompletionMessage

/-- 設定だけを受け取った、始めの状態。 -/
def TaskPipe.init (snapshot : SnapshotConfig) (recording : RecordingConfig) : TaskPipe where
  channelStates := ∅
  rtcClient := {}
  snapshotConfig := snapshot
  recordingConfig := recording
  capturing := false
  recording := false
  streaming := false
  sent := []

/-- 状態から決まらない結果。部品の `initialize` と `start` の成否、配信の失敗、列挙で選ばれるものである。 -/
structure Outcome where
  connect : Bool := true
  snapshot : Bool := true
  recording : Bool := true
  streamingInitialize : Bool := true
  streamingStart : Bool := true
  streamingFailed : Bool := false
  pick : Option (String × String) := none

namespace TaskPipe

def sendCompletionMessage (s : TaskPipe) (m : UDSCompletionMessage) : TaskPipe := { s with sent := m :: s.sent }

/-- チャンネルの状態の列挙。チャンネル、タスク、種類の組である。 -/
def tasks (s : TaskPipe) : List (String × String × TaskCmd) :=
  s.channelStates.entries.flatMap fun e => e.2.activeTasks.entries.map fun t => (e.1, t.1, t.2)

def hasActiveTasksOfType (s : TaskPipe) (type : TaskCmd) : Bool := s.tasks.any (·.2.2 == type)

/-- 列挙で最初に見つかる、条件に合うタスク。チャンネルとタスクの組である。 -/
def search (s : TaskPipe) (pick : Option (String × String)) (p : String → String → TaskCmd → Bool) :
    Option (String × String) :=
  let candidates := (s.tasks.filter fun t => p t.1 t.2.1 t.2.2).map fun t => (t.1, t.2.1)
  match pick with
  | some x => if x ∈ candidates then some x else candidates.head?
  | none => candidates.head?

section Search

variable {s : TaskPipe} {pick : Option (String × String)} {p : String → String → TaskCmd → Bool} {channel taskId : String}

theorem mem_tasks {type : TaskCmd} : (channel, taskId, type) ∈ s.tasks ↔
    ∃ state, s.channelStates.lookup channel = some state ∧ state.activeTasks.lookup taskId = some type := by
  rw [tasks, List.mem_flatMap]
  constructor
  · rintro ⟨⟨_, state⟩, he, ht⟩
    obtain ⟨⟨_, _⟩, htask, heq⟩ := List.mem_map.mp ht
    cases heq
    exact ⟨state, AList.mem_lookup_iff.mpr he, AList.mem_lookup_iff.mpr htask⟩
  · rintro ⟨state, hstate, htype⟩
    exact ⟨⟨channel, state⟩, AList.mem_lookup_iff.mp hstate,
      List.mem_map.mpr ⟨⟨taskId, type⟩, AList.mem_lookup_iff.mp htype, rfl⟩⟩

theorem mem_of_search (h : s.search pick p = some (channel, taskId)) :
    ∃ type, (channel, taskId, type) ∈ s.tasks ∧ p channel taskId type = true := by
  have hmem : (channel, taskId) ∈ (s.tasks.filter fun t => p t.1 t.2.1 t.2.2).map fun t => (t.1, t.2.1) := by
    unfold search at h
    dsimp only at h
    split at h
    · split at h
      · rename_i x hx
        cases h
        exact hx
      · exact List.mem_of_head? h
    · exact List.mem_of_head? h
  obtain ⟨⟨_, _, type⟩, ht, heq⟩ := List.mem_map.mp hmem
  cases heq
  exact ⟨type, List.mem_filter.mp ht⟩

theorem search_eq_none (h : s.search pick p = none) {type : TaskCmd} (ht : (channel, taskId, type) ∈ s.tasks) :
    p channel taskId type = false := by
  have hnone : (s.tasks.filter fun t => p t.1 t.2.1 t.2.2) = [] := by
    unfold search at h
    dsimp only at h
    split at h
    · split at h
      · cases h
      · simpa using h
    · simpa using h
  have hnot := List.filter_eq_nil_iff.mp hnone _ ht
  simpa using hnot

end Search

def addTask (s : TaskPipe) (channel taskId : String) (cmd : TaskCmd) : TaskPipe :=
  let state := (s.channelStates.lookup channel).getD {}
  let state := { state with activeTasks := state.activeTasks.insert taskId cmd }
  { s with channelStates := s.channelStates.insert channel state }

/-! ## 接続の管理 -/

def ensureConnected (s : TaskPipe) (channel token : String) (o : Outcome) : Bool × TaskPipe :=
  let state := (s.channelStates.lookup channel).getD {}
  if state.isConnected then (true, s)
  else
    let client := { s.rtcClient with channel }
    let client := if token ≠ "" then { client with accessToken := token } else client
    match client.connect o.connect with
    | (false, client) => (false, { s with rtcClient := client })
    | (true, client) =>
        (true, { s with
          rtcClient := client
          channelStates := s.channelStates.insert channel { state with isConnected := true } })

def cleanupConnection (s : TaskPipe) (channel : String) : TaskPipe :=
  match s.channelStates.lookup channel with
  | none => s
  | some state =>
      { s with
        channelStates := s.channelStates.erase channel
        capturing := false
        recording := false
        streaming := false
        rtcClient := if state.isConnected then s.rtcClient.disconnect else s.rtcClient }

def releaseConnection (s : TaskPipe) (channel taskId : String) : TaskPipe :=
  match s.channelStates.lookup channel with
  | none => s
  | some state =>
      let tasks := state.activeTasks.erase taskId
      let s := { s with channelStates := s.channelStates.insert channel { state with activeTasks := tasks } }
      if tasks.entries.isEmpty then s.cleanupConnection channel else s

/-- 接続の解放は、部品の設定を変えない。 -/
theorem releaseConnection_configs (s : TaskPipe) (channel taskId : String) :
    (s.releaseConnection channel taskId).snapshotConfig = s.snapshotConfig ∧
      (s.releaseConnection channel taskId).recordingConfig = s.recordingConfig := by
  unfold releaseConnection cleanupConnection
  split
  · exact ⟨rfl, rfl⟩
  · dsimp only
    split_ifs
    · split <;> exact ⟨rfl, rfl⟩
    · exact ⟨rfl, rfl⟩

/-- 接続を確かめる処理は、接続と表のほかを変えない。 -/
theorem ensureConnected_frame (s : TaskPipe) (channel token : String) (o : Outcome) :
    ∃ rtcClient channelStates, (s.ensureConnected channel token o).2 = { s with rtcClient, channelStates } := by
  unfold ensureConnected
  dsimp only
  split
  · exact ⟨_, _, rfl⟩
  · split <;> exact ⟨_, _, rfl⟩

theorem ensureConnected_configs (s : TaskPipe) (channel token : String) (o : Outcome) :
    (s.ensureConnected channel token o).2.snapshotConfig = s.snapshotConfig ∧
      (s.ensureConnected channel token o).2.recordingConfig = s.recordingConfig := by
  obtain ⟨_, _, h⟩ := s.ensureConnected_frame channel token o
  rw [h]
  exact ⟨rfl, rfl⟩

/-- 接続できるなら、チャンネルの状態に接続を記して成功する。 -/
theorem ensureConnected_connect {s : TaskPipe} {o : Outcome} (channel token : String) (h : o.connect = true) :
    ∃ s', s.ensureConnected channel token o = (true, s') ∧
      s'.channelStates.lookup channel = some { (s.channelStates.lookup channel).getD {} with isConnected := true } ∧
      (∀ other, other ≠ channel → s'.channelStates.lookup other = s.channelStates.lookup other) ∧
      (s'.rtcClient.connection.isSome = true ∨ s' = s ∧ ∃ state, s.channelStates.lookup channel = some state) := by
  simp only [ensureConnected]
  split
  · rename_i hconnected
    cases hl : s.channelStates.lookup channel with
    | none => simp [hl] at hconnected
    | some state =>
        refine ⟨s, rfl, ?_, fun _ _ => rfl, .inr ⟨rfl, state, rfl⟩⟩
        have hstate : state.isConnected = true := by simpa [hl] using hconnected
        rw [hl, Option.getD_some, ← hstate]
  · split
    · rename_i hclient
      have hok := congrArg Prod.fst hclient
      rw [h, RtcClient.connect_ok] at hok
      cases hok
    · rename_i client hclient
      rw [h] at hclient
      refine ⟨_, rfl, AList.lookup_insert _, fun other hne => AList.lookup_insert_ne hne, .inl ?_⟩
      exact RtcClient.connect_isSome hclient

/-! ## 静止画 -/

def isIndividual (msg : UDSMessage) : Bool := msg.uid.length == 1 && msg.layout != "customized"

def compositorMode (msg : UDSMessage) : CompositorMode := if isIndividual msg then .individual else .composite

def updateSnapshotConfig (msg : UDSMessage) (c : SnapshotConfig) : SnapshotConfig where
  channel := msg.channel
  taskId := msg.taskId
  targetUsers := msg.uid
  mode := compositorMode msg
  layout := msg.layout
  regions := msg.regions
  userOrder := msg.uid
  width := if msg.width ≠ 0 then msg.width else c.width
  height := if msg.height ≠ 0 then msg.height else c.height
  intervalInMs := if 0 < msg.intervalInMs then msg.intervalInMs else c.intervalInMs

def startSnapshot (s : TaskPipe) (msg : UDSMessage) (o : Outcome) : TaskPipe :=
  match s.ensureConnected msg.channel msg.accessToken o with
  | (false, s) => s
  | (true, s) =>
      let s := { s with snapshotConfig := updateSnapshotConfig msg s.snapshotConfig }
      let s := s.addTask msg.channel msg.taskId .snapshot
      if s.capturing then s
      else if o.snapshot then { s with capturing := true }
      else s.releaseConnection msg.channel msg.taskId

/-- 名前を指定した停止は、種類を問わずにタスクを探す。名前がなければ、チャンネルの同じ種類のタスクを探す。 -/
def findToStop (s : TaskPipe) (msg : UDSMessage) (o : Outcome) : Option (String × String) :=
  if msg.taskId ≠ "" then s.search o.pick fun _ taskId _ => taskId == msg.taskId
  else s.search o.pick fun channel _ type => channel == msg.channel && type == msg.cmd

/-- 見つけたタスクは、名前が空であることを調べる前に取り除く。 -/
def stopSnapshot (s : TaskPipe) (msg : UDSMessage) (o : Outcome) : TaskPipe :=
  match s.findToStop msg o with
  | none => s
  | some (channel, taskId) =>
      let state := (s.channelStates.lookup channel).getD {}
      let state := { state with activeTasks := state.activeTasks.erase taskId }
      let s := { s with channelStates := s.channelStates.insert channel state }
      if taskId = "" ∨ channel = "" then s
      else
        let s := if s.hasActiveTasksOfType .snapshot then s else { s with capturing := false }
        (s.releaseConnection channel taskId).sendCompletionMessage
          ⟨taskId, "success", "", "Snapshot task completed successfully"⟩

def handleSnapshotCommand (s : TaskPipe) (msg : UDSMessage) (o : Outcome) : TaskPipe :=
  if msg.channel = "" then s
  else match msg.action with
    | .start => s.startSnapshot msg o
    | .stop => s.stopSnapshot msg o
    | .status | .other => s

/-! ## 録画 -/

/-- 自動の指定を解決した値と、それが表すデコードの方式。合成の録画では、素通しの代わりに FFmpeg を使う。 -/
def resolveDecodeMode (msg : UDSMessage) : Int × VideoDecodeMode :=
  let resolved := if msg.videoDecodeMode = -1 then (if isIndividual msg then 0 else 1) else msg.videoDecodeMode
  let mode : VideoDecodeMode :=
    if resolved = 0 then .passthrough else if resolved = 2 then .sdkDecode else .ffmpegDecode
  if mode = .passthrough ∧ !isIndividual msg then (1, .ffmpegDecode) else (resolved, mode)

def updateRecordingConfig (msg : UDSMessage) (c : RecordingConfig) : RecordingConfig where
  channel := msg.channel
  taskId := msg.taskId
  layout := msg.layout
  regions := msg.regions
  videoWidth := if msg.width ≠ 0 then msg.width else c.videoWidth
  videoHeight := if msg.height ≠ 0 then msg.height else c.videoHeight
  targetUsers := msg.uid
  mode := compositorMode msg
  videoDecodeMode := (resolveDecodeMode msg).1

def setDecodeMode (s : TaskPipe) (mode : VideoDecodeMode) : TaskPipe :=
  { s with rtcClient := { s.rtcClient with videoDecodeMode := mode } }

/-- `initialize` は、動いている間は失敗する。 -/
def startRecording (s : TaskPipe) (msg : UDSMessage) (o : Outcome) : TaskPipe :=
  if msg.channel = "" then s
  else
    let s := { s with recordingConfig := updateRecordingConfig msg s.recordingConfig }
    let s := s.setDecodeMode (resolveDecodeMode msg).2
    match s.ensureConnected msg.channel msg.accessToken o with
    | (false, s) => s
    | (true, s) =>
        let active := s.tasks.any fun t => t.1 == msg.channel && t.2.2 == .record
        let s := s.addTask msg.channel msg.taskId .record
        if active then s
        else if !s.recording && o.recording then { s with recording := true }
        else (s.releaseConnection msg.channel msg.taskId).sendCompletionMessage
          { taskId := msg.taskId, status := "failed", error := "Failed to start recording sink" }

def stopRecording (s : TaskPipe) (msg : UDSMessage) (o : Outcome) : TaskPipe :=
  match (s.findToStop msg o).filter fun x => x.1 ≠ "" ∧ x.2 ≠ "" with
  | none => s
  | some (channel, taskId) =>
      let others := s.tasks.any fun t => t.1 == channel && t.2.1 != taskId && t.2.2 == .record
      let s := if others then s else { s with recording := false }
      (s.releaseConnection channel taskId).sendCompletionMessage
        ⟨taskId, "success", "", "Recording task completed successfully"⟩

def handleRecordingCommand (s : TaskPipe) (msg : UDSMessage) (o : Outcome) : TaskPipe :=
  match msg.action with
  | .start => s.startRecording msg o
  | .stop => s.stopRecording msg o
  | .status | .other => s

/-- 録画の最大の長さに達したときの通知。 -/
def recordingCompleted (s : TaskPipe) (taskId status message : String) (o : Outcome) : TaskPipe :=
  let s := match s.search o.pick fun _ id _ => id == taskId with
    | some (channel, _) => if channel ≠ "" then s.releaseConnection channel taskId else s
    | none => s
  s.sendCompletionMessage ⟨taskId, status, "", message⟩

/-! ## 配信 -/

def streamingDecodeMode (msg : UDSMessage) : VideoDecodeMode :=
  if msg.videoDecodeMode = 2 then .sdkDecode else .ffmpegDecode

def startStreaming (s : TaskPipe) (msg : UDSMessage) (o : Outcome) : TaskPipe :=
  if msg.channel = "" ∨ msg.taskId = "" ∨ s.hasActiveTasksOfType .rtmp ∨ s.hasActiveTasksOfType .whip then
    s.sendCompletionMessage
      { taskId := msg.taskId, status := "failed", error := "Streaming requires an idle sink and a channel" }
  else
    let s := { s with streaming := false }
    let s := s.setDecodeMode (streamingDecodeMode msg)
    if !o.streamingInitialize then
      s.sendCompletionMessage { taskId := msg.taskId, status := "failed", error := "Invalid streaming configuration" }
    else match s.ensureConnected msg.channel msg.accessToken o with
      | (false, s) =>
          s.sendCompletionMessage { taskId := msg.taskId, status := "failed", error := "Failed to connect RTC channel" }
      | (true, s) =>
          let s := s.addTask msg.channel msg.taskId msg.cmd
          if o.streamingStart then { s with streaming := true }
          else (s.releaseConnection msg.channel msg.taskId).sendCompletionMessage
            { taskId := msg.taskId, status := "failed", error := "Failed to start streaming publisher" }

def stopStreaming (s : TaskPipe) (msg : UDSMessage) (o : Outcome) : TaskPipe :=
  let found := s.search o.pick fun channel taskId type =>
    type == msg.cmd && (if msg.taskId = "" then channel == msg.channel else taskId == msg.taskId)
  match found.filter fun x => x.2 ≠ "" with
  | none => s
  | some (channel, taskId) =>
      let s := { s with streaming := false }
      (s.releaseConnection channel taskId).sendCompletionMessage
        ⟨taskId, if o.streamingFailed then "failed" else "success",
          if o.streamingFailed then "Streaming destination failed" else "", "Streaming stopped"⟩

def handleStreamingCommand (s : TaskPipe) (msg : UDSMessage) (o : Outcome) : TaskPipe :=
  match msg.action with
  | .start => s.startStreaming msg o
  | .stop => s.stopStreaming msg o
  | .status => s
  | .other =>
      s.sendCompletionMessage { taskId := msg.taskId, status := "failed", error := "Unsupported streaming action" }

/-- 配信が失敗したか、長さに達したときの通知。 -/
def streamingCompleted (s : TaskPipe) (taskId status message : String) (o : Outcome) : TaskPipe :=
  let s := { s with streaming := false }
  match s.search o.pick fun _ id _ => id == taskId with
  | some (channel, _) =>
      if channel ≠ "" then
        (s.releaseConnection channel taskId).sendCompletionMessage
          ⟨taskId, status, if status = "failed" then message else "", message⟩
      else s
  | none => s

/-! ## SDK のエラー -/

/-- すべてのタスクの失敗を知らせ、動いていた部品を止める。接続は切らない。 -/
def handleSdkError (s : TaskPipe) (errorType errorMessage : String) : TaskPipe :=
  let hadRecording := s.hasActiveTasksOfType .record
  let hadSnapshot := s.hasActiveTasksOfType .snapshot
  let hadStream := s.hasActiveTasksOfType .rtmp || s.hasActiveTasksOfType .whip
  let failures := s.tasks.map fun t : String × String × TaskCmd =>
    (⟨t.2.1, "failed", "SDK Error: " ++ errorType ++ " - " ++ errorMessage,
      "Task failed due to unrecoverable SDK error"⟩ : UDSCompletionMessage)
  { s with
    sent := failures.reverse ++ s.sent
    channelStates := ∅
    recording := s.recording && !hadRecording
    capturing := s.capturing && !hadSnapshot
    streaming := s.streaming && !hadStream }

def handleCommand (s : TaskPipe) (msg : UDSMessage) (o : Outcome) : TaskPipe :=
  match msg.cmd with
  | .snapshot => s.handleSnapshotCommand msg o
  | .record => s.handleRecordingCommand msg o
  | .rtmp | .whip => s.handleStreamingCommand msg o

end TaskPipe

end RtcEgress.Worker
