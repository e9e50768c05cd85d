import RtcEgress.Lib.System
import RtcEgress.Worker.TaskPipe

/-!
# タスクのチャンネルと方式に合った接続

接続の状態は、チャンネルごとの表、`RtcClient` の接続、設定の三か所にある。すでに接続している `RtcClient` は、
チャンネルや方式の設定が変わっても接続し直さない。動いているタスクのチャンネルに接続しているか、そのタスクが要る
映像を渡す方式で接続しているかを、コマンドと通知の列について調べる。
-/

namespace RtcEgress.Worker

open RtcEgress.Lib

/-! ## コマンドと通知の列 -/

/-- ワーカーに起こる出来事。 -/
inductive Op where
  | command (msg : UDSMessage) (o : Outcome)
  | recordingCompleted (taskId status message : String) (o : Outcome)
  | streamingCompleted (taskId status message : String) (o : Outcome)
  | sdkError (errorType errorMessage : String)

def Op.apply (s : TaskPipe) : Op → TaskPipe
  | .command msg o => s.handleCommand msg o
  | .recordingCompleted taskId status message o => s.recordingCompleted taskId status message o
  | .streamingCompleted taskId status message o => s.streamingCompleted taskId status message o
  | .sdkError errorType errorMessage => s.handleSdkError errorType errorMessage

/-- ワーカーと、マネージャーから見た様子。`unreported` は、始めて、まだ完了の通知のないタスクとそのチャンネル、
`resolved` は、録画のタスクを始めたときに解決した方式である。 -/
structure Session where
  pipe : TaskPipe
  unreported : List (String × String)
  resolved : String → VideoDecodeMode

def Session.init (snapshot : SnapshotConfig) (recording : RecordingConfig) : Session :=
  ⟨.init snapshot recording, [], fun _ => .ffmpegDecode⟩

/-- 完了の通知を一つ受けるごとに、同じ名前のタスクを一つ除く。 -/
def report (sent : List UDSCompletionMessage) (unreported : List (String × String)) : List (String × String) :=
  sent.foldr (fun m tasks => tasks.eraseP (·.1 == m.taskId)) unreported

def Session.next (op : Op) (s : Session) : Session :=
  let pipe := op.apply s.pipe
  let sent := pipe.sent.take (pipe.sent.length - s.pipe.sent.length)
  match op with
  | .command msg _ =>
      if msg.action = .start then
        { pipe
          unreported := report sent ((msg.taskId, msg.channel) :: s.unreported)
          resolved := if msg.cmd = .record then Function.update s.resolved msg.taskId (TaskPipe.resolveDecodeMode msg).2
            else s.resolved }
      else { s with pipe, unreported := report sent s.unreported }
  | _ => { s with pipe, unreported := report sent s.unreported }

def worker : System Op := ⟨Session, Session.next⟩

/-- 開始のコマンドに課す条件。 -/
def onStart (p : UDSMessage → Session → Prop) : worker.Condition
  | .command msg _, s => msg.action = .start → p msg s
  | _, _ => True

/-- 新しいチャンネルの開始は、前のチャンネルのタスクがすべて完了を知らせた後に限る。 -/
def oneChannelAtATime : worker.Condition :=
  onStart fun msg s => ∀ t ∈ s.unreported, t.2 = msg.channel

/-- 一つのチャンネルの開始と停止だけからなる。 -/
def commandsOn (channel : String) : worker.Condition
  | .command msg _, _ => msg.channel = channel ∧ (msg.action = .start ∨ msg.action = .stop)
  | _, _ => False

/-! ## 二つの性質 -/

/-- 動いているタスクのあるチャンネルに接続している。 -/
def ConnectedToChannel (g : worker.Condition) : Prop :=
  ∀ snapshot recording s, worker.Reach g (Session.init snapshot recording) s →
    ∀ channel state, s.pipe.channelStates.lookup channel = some state → state.activeTasks.entries ≠ [] →
      ∃ mode, s.pipe.rtcClient.connection = some ⟨channel, mode⟩

/-- 素通しの録画には素通しの接続が、他のタスクにはデコードした映像を渡す接続が要る。 -/
def Fits (mode : VideoDecodeMode) : TaskCmd → VideoDecodeMode → Prop
  | .record, .passthrough => mode = .passthrough
  | _, _ => mode ≠ .passthrough

/-- 動いているタスクに要る映像を渡す方式で接続している。 -/
def DeliversNeeded (g : worker.Condition) : Prop :=
  ∀ snapshot recording s, worker.Reach g (Session.init snapshot recording) s →
    ∀ channel state taskId cmd, s.pipe.channelStates.lookup channel = some state →
      state.activeTasks.lookup taskId = some cmd →
        ∃ c, s.pipe.rtcClient.connection = some c ∧ Fits c.mode cmd (s.resolved taskId)

/-! ## 成り立たない列 -/

def recordStart (taskId channel : String) : Op :=
  .command { taskId, cmd := .record, action := .start, channel, uid := ["u"] } {}

/-- エラーで終わったチャンネル `c` の接続が残ったまま、チャンネル `d` の録画が始まる。 -/
def startAfterError : List Op := [recordStart "a" "c", .sdkError "connection_lost" "", recordStart "b" "d"]

theorem not_connectedToChannel : ¬ConnectedToChannel oneChannelAtATime := by
  intro h
  have hmeet : worker.AllMeet oneChannelAtATime startAfterError (Session.init sinkDefaults.1 sinkDefaults.2) := by
    refine ⟨fun _ => ?_, trivial, fun _ => ?_, trivial⟩ <;> decide
  have hlast : ((worker.run startAfterError (Session.init sinkDefaults.1 sinkDefaults.2)).pipe.channelStates.lookup "d").map
      (fun state => state.activeTasks.entries.isEmpty) = some false := by decide
  obtain ⟨state, hstate, hne⟩ := Option.map_eq_some_iff.mp hlast
  obtain ⟨mode, hmode⟩ := h _ _ _ (System.reach_run hmeet) "d" state hstate (by simpa using hne)
  have hchannel : (worker.run startAfterError (Session.init sinkDefaults.1 sinkDefaults.2)).pipe.rtcClient.connection =
      some ⟨"c", .passthrough⟩ := by decide
  rw [hchannel] at hmode
  exact absurd hmode (by simp)

/-- 一人の録画が素通しで接続した後に、同じチャンネルで静止画が始まる。 -/
def snapshotAfterRecord : List Op :=
  [recordStart "a" "c", .command { taskId := "b", cmd := .snapshot, action := .start, channel := "c" } {}]

theorem not_deliversNeeded : ¬∀ channel, DeliversNeeded (commandsOn channel) := by
  intro h
  have hmeet : worker.AllMeet (commandsOn "c") snapshotAfterRecord (Session.init sinkDefaults.1 sinkDefaults.2) :=
    ⟨⟨rfl, .inl rfl⟩, ⟨rfl, .inl rfl⟩, trivial⟩
  have hlast : ((worker.run snapshotAfterRecord (Session.init sinkDefaults.1 sinkDefaults.2)).pipe.channelStates.lookup "c").map
      (fun state => state.activeTasks.lookup "b") = some (some .snapshot) := by decide
  obtain ⟨state, hstate, htask⟩ := Option.map_eq_some_iff.mp hlast
  obtain ⟨c, hc, hfits⟩ := h "c" _ _ _ (System.reach_run hmeet) "c" state "b" .snapshot hstate htask
  have hmode : (worker.run snapshotAfterRecord (Session.init sinkDefaults.1 sinkDefaults.2)).pipe.rtcClient.connection =
      some ⟨"c", .passthrough⟩ := by decide
  rw [hmode] at hc
  cases hc
  exact hfits rfl

/-! ## 処理が保つ性質 -/

/-- チャンネルの表と接続だけで決まり、タスクやチャンネルを除いても保たれる性質。 -/
structure Kept (I : TaskPipe → Prop) : Prop where
  frame : ∀ {s s' : TaskPipe}, I s → s'.channelStates = s.channelStates →
    s'.rtcClient.connection = s.rtcClient.connection → I s'
  removed : ∀ {s : TaskPipe} {channel state} taskId, s.channelStates.lookup channel = some state → I s →
    I { s with channelStates := s.channelStates.insert channel { state with activeTasks := state.activeTasks.erase taskId } }
  cleaned : ∀ {s : TaskPipe} {channel}, I s → I (s.cleanupConnection channel)
  cleared : ∀ {s : TaskPipe}, I s → I { s with channelStates := ∅ }

namespace Kept

variable {I : TaskPipe → Prop} {s : TaskPipe}

theorem completion (hI : Kept I) (h : I s) {m} : I (s.sendCompletionMessage m) := hI.frame h rfl rfl

theorem release (hI : Kept I) (h : I s) {channel taskId} : I (s.releaseConnection channel taskId) := by
  unfold TaskPipe.releaseConnection
  split
  · exact h
  · rename_i state hstate
    dsimp only
    split
    · exact hI.cleaned (hI.removed taskId hstate h)
    · exact hI.removed taskId hstate h

/-- 探して見つかるタスクのチャンネルは、表にある。 -/
theorem lookup_of_search {pick p channel taskId} (h : s.search pick p = some (channel, taskId)) :
    ∃ state, s.channelStates.lookup channel = some state := by
  obtain ⟨_, hmem, -⟩ := TaskPipe.mem_of_search h
  obtain ⟨state, hstate, -⟩ := TaskPipe.mem_tasks.mp hmem
  exact ⟨state, hstate⟩

theorem stopSnapshot (hI : Kept I) (h : I s) {msg o} : I (s.stopSnapshot msg o) := by
  unfold TaskPipe.stopSnapshot
  split
  · exact h
  · rename_i channel taskId hfound
    have hlookup : ∃ state, s.channelStates.lookup channel = some state := by
      unfold TaskPipe.findToStop at hfound
      split at hfound <;> exact lookup_of_search hfound
    obtain ⟨state, hstate⟩ := hlookup
    simp only [hstate, Option.getD_some]
    have hremoved := hI.removed taskId hstate h
    split
    · exact hremoved
    · refine hI.completion (hI.release ?_)
      split
      · exact hremoved
      · exact hI.frame hremoved rfl rfl

theorem stopRecording (hI : Kept I) (h : I s) {msg o} : I (s.stopRecording msg o) := by
  unfold TaskPipe.stopRecording
  split
  · exact h
  · refine hI.completion (hI.release ?_)
    split
    · exact h
    · exact hI.frame h rfl rfl

theorem stopStreaming (hI : Kept I) (h : I s) {msg o} : I (s.stopStreaming msg o) := by
  unfold TaskPipe.stopStreaming
  dsimp only
  split
  · exact h
  · refine hI.completion (hI.release ?_)
    exact hI.frame h rfl rfl

theorem recordingCompleted (hI : Kept I) (h : I s) {taskId status message o} :
    I (s.recordingCompleted taskId status message o) := by
  refine hI.completion ?_
  split
  · split
    · exact hI.release h
    · exact h
  · exact h

theorem streamingCompleted (hI : Kept I) (h : I s) {taskId status message o} :
    I (s.streamingCompleted taskId status message o) := by
  unfold TaskPipe.streamingCompleted
  have hs : I { s with streaming := false } := hI.frame h rfl rfl
  dsimp only
  split
  · split
    · exact hI.completion (hI.release hs)
    · exact hs
  · exact hs

theorem handleSdkError (hI : Kept I) (h : I s) {errorType errorMessage} :
    I (s.handleSdkError errorType errorMessage) := hI.frame (hI.cleared h) rfl rfl

end Kept

/-! ## 開始 -/

/-- 接続し直すとしたら使う方式。静止画の開始は、方式を設定しない。 -/
def startMode (s : TaskPipe) (msg : UDSMessage) : VideoDecodeMode :=
  match msg.cmd with
  | .snapshot => s.rtcClient.videoDecodeMode
  | .record => (TaskPipe.resolveDecodeMode msg).2
  | .rtmp | .whip => TaskPipe.streamingDecodeMode msg

/-- 接続を確かめてタスクを加えた状態。 -/
structure Started (s : TaskPipe) (msg : UDSMessage) (s' : TaskPipe) : Prop where
  same : s'.channelStates.lookup msg.channel =
    some ⟨true, ((s.channelStates.lookup msg.channel).getD {}).activeTasks.insert msg.taskId msg.cmd⟩
  other : ∀ {channel}, channel ≠ msg.channel → s'.channelStates.lookup channel = s.channelStates.lookup channel
  connection : (∃ state, s.channelStates.lookup msg.channel = some state ∧ state.isConnected = true) ∧
      s'.rtcClient.connection = s.rtcClient.connection ∨
    s'.rtcClient.connection = some (s.rtcClient.connection.getD ⟨msg.channel, startMode s msg⟩)

/-- `connect` が成功した後の接続。 -/
theorem RtcClient.connect_true {c c' : RtcClient} {ok : Bool} (h : c.connect ok = (true, c')) :
    c'.connection = some (c.connection.getD ⟨c.channel, c.videoDecodeMode⟩) := by
  unfold RtcClient.connect at h
  cases hc : c.connection with
  | some x =>
      simp only [hc, Option.isSome_some, reduceIte, Prod.mk.injEq, true_and] at h
      rw [← h, hc]
      rfl
  | none =>
      cases ok with
      | true =>
          simp only [hc, Option.isSome_none, Bool.false_eq_true, reduceIte, Prod.mk.injEq, true_and] at h
          rw [← h]
          rfl
      | false => simp [hc] at h

theorem RtcClient.connect_false {c c' : RtcClient} {ok : Bool} (h : c.connect ok = (false, c')) : c' = c := by
  unfold RtcClient.connect at h
  split at h
  · cases h
  · split at h
    · cases h
    · exact (Prod.mk.inj h).2.symm

section Start

variable {s s₀ s' : TaskPipe} {msg : UDSMessage} {o : Outcome}

theorem ensureConnected_false (h : s.ensureConnected msg.channel msg.accessToken o = (false, s')) :
    s'.channelStates = s.channelStates ∧ s'.rtcClient.connection = s.rtcClient.connection := by
  simp only [TaskPipe.ensureConnected] at h
  split at h
  · cases h
  · split at h
    · rename_i client hclient
      cases h
      refine ⟨rfl, ?_⟩
      rw [RtcClient.connect_false hclient]
      split <;> rfl
    · cases h

theorem started_of_ensureConnected (h : s₀.ensureConnected msg.channel msg.accessToken o = (true, s'))
    (hstates : s₀.channelStates = s.channelStates) (hconn : s₀.rtcClient.connection = s.rtcClient.connection)
    (hmode : s₀.rtcClient.videoDecodeMode = startMode s msg) :
    Started s msg (s'.addTask msg.channel msg.taskId msg.cmd) := by
  simp only [TaskPipe.ensureConnected] at h
  split at h
  · rename_i hconnected
    cases h
    have hlookup : ∃ state, s.channelStates.lookup msg.channel = some state ∧ state.isConnected = true := by
      rw [hstates] at hconnected
      cases hl : s.channelStates.lookup msg.channel with
      | none => simp [hl] at hconnected
      | some state => exact ⟨state, rfl, by simpa [hl] using hconnected⟩
    refine ⟨?_, fun hne => ?_, .inl ⟨hlookup, hconn⟩⟩
    · obtain ⟨state, hl, hc⟩ := hlookup
      simp [TaskPipe.addTask, hstates, hl, hc]
    · simp [TaskPipe.addTask, hstates, AList.lookup_insert_ne hne]
  · split at h
    · cases h
    · rename_i client hclient
      cases h
      refine ⟨?_, fun hne => ?_, .inr ?_⟩
      · simp [TaskPipe.addTask, hstates]
      · simp [TaskPipe.addTask, hstates, AList.lookup_insert_ne hne]
      · have hc := RtcClient.connect_true hclient
        rw [← hconn, ← hmode]
        split at hc <;> exact hc

namespace Kept

variable {I : TaskPipe → Prop}

theorem startSnapshot (hI : Kept I) (h : I s) (hcmd : msg.cmd = .snapshot) (hstart : ∀ s', Started s msg s' → I s') :
    I (s.startSnapshot msg o) := by
  unfold TaskPipe.startSnapshot
  split
  · rename_i s' hs'
    exact hI.frame h (ensureConnected_false hs').1 (ensureConnected_false hs').2
  · rename_i s' hs'
    have hadd : I (s'.addTask msg.channel msg.taskId .snapshot) := by
      rw [← hcmd]
      exact hstart _ (started_of_ensureConnected hs' rfl rfl (by simp [startMode, hcmd]))
    have hadd' : I ({ s' with snapshotConfig := TaskPipe.updateSnapshotConfig msg s'.snapshotConfig }.addTask
        msg.channel msg.taskId .snapshot) := hI.frame hadd rfl rfl
    dsimp only
    split
    · exact hadd'
    · split
      · exact hI.frame hadd' rfl rfl
      · exact hI.release hadd'

theorem startRecording (hI : Kept I) (h : I s) (hcmd : msg.cmd = .record) (hstart : ∀ s', Started s msg s' → I s') :
    I (s.startRecording msg o) := by
  unfold TaskPipe.startRecording
  split
  · exact h
  · dsimp only
    split
    · rename_i s' hs'
      exact hI.frame h (ensureConnected_false hs').1 (ensureConnected_false hs').2
    · rename_i s' hs'
      have hadd : I (s'.addTask msg.channel msg.taskId .record) := by
        rw [← hcmd]
        exact hstart _ (started_of_ensureConnected hs' rfl rfl (by simp [startMode, hcmd, TaskPipe.setDecodeMode]))
      split
      · exact hadd
      · split
        · exact hI.frame hadd rfl rfl
        · exact hI.completion (hI.release hadd)

theorem startStreaming (hI : Kept I) (h : I s) (hcmd : msg.cmd = .rtmp ∨ msg.cmd = .whip)
    (hstart : ∀ s', Started s msg s' → I s') : I (s.startStreaming msg o) := by
  unfold TaskPipe.startStreaming
  split
  · exact hI.completion h
  · dsimp only
    split
    · refine hI.completion ?_
      exact hI.frame h rfl rfl
    · split
      · rename_i s' hs'
        refine hI.completion ?_
        exact hI.frame h (ensureConnected_false hs').1 (ensureConnected_false hs').2
      · rename_i s' hs'
        have hmode : startMode s msg = TaskPipe.streamingDecodeMode msg := by
          rcases hcmd with hcmd | hcmd <;> simp [startMode, hcmd]
        have hadd : I (s'.addTask msg.channel msg.taskId msg.cmd) :=
          hstart _ (started_of_ensureConnected hs' rfl rfl hmode.symm)
        split
        · exact hI.frame hadd rfl rfl
        · exact hI.completion (hI.release hadd)

/-- 開始の後に性質が成り立つなら、コマンドの後にも成り立つ。 -/
theorem command (hI : Kept I) (h : I s) (hstart : msg.action = .start → ∀ s', Started s msg s' → I s') :
    I (s.handleCommand msg o) := by
  unfold TaskPipe.handleCommand
  cases hcmd : msg.cmd with
  | snapshot =>
      dsimp only [TaskPipe.handleSnapshotCommand]
      split
      · exact h
      · cases ha : msg.action with
        | start => exact hI.startSnapshot h hcmd (hstart ha)
        | stop => exact hI.stopSnapshot h
        | status => exact h
        | other => exact h
  | record =>
      dsimp only [TaskPipe.handleRecordingCommand]
      cases ha : msg.action with
      | start => exact hI.startRecording h hcmd (hstart ha)
      | stop => exact hI.stopRecording h
      | status => exact h
      | other => exact h
  | rtmp | whip =>
      dsimp only [TaskPipe.handleStreamingCommand]
      cases ha : msg.action with
      | start => exact hI.startStreaming h (by simp [hcmd]) (hstart ha)
      | stop => exact hI.stopStreaming h
      | status => exact h
      | other => exact hI.completion h

theorem apply (hI : Kept I) (h : I s) {op : Op}
    (hstart : ∀ msg o, op = .command msg o → msg.action = .start → ∀ s', Started s msg s' → I s') :
    I (op.apply s) := by
  cases op with
  | command msg o => exact hI.command h (hstart msg o rfl)
  | recordingCompleted taskId status message o => exact hI.recordingCompleted h
  | streamingCompleted taskId status message o => exact hI.streamingCompleted h
  | sdkError errorType errorMessage => exact hI.handleSdkError h

end Kept

end Start

/-! ## 接続が応える -/

/-- 表のチャンネルには接続していて、その方式とタスクは `P` を満たす。 -/
def Serving (P : VideoDecodeMode → TaskCmd → String → Prop) (s : TaskPipe) : Prop :=
  ∀ channel state, s.channelStates.lookup channel = some state → state.isConnected = true ∧
    ∃ mode, s.rtcClient.connection = some ⟨channel, mode⟩ ∧
      ∀ taskId cmd, state.activeTasks.lookup taskId = some cmd → P mode cmd taskId

section Serving

variable {P : VideoDecodeMode → TaskCmd → String → Prop} {s s' : TaskPipe} {msg : UDSMessage}

theorem lookup_of_lookup_erase {β : String → Type} {a b : String} {m : AList β} {x : β b}
    (h : (m.erase a).lookup b = some x) : b ≠ a ∧ m.lookup b = some x := by
  have hne : b ≠ a := by
    intro heq
    subst heq
    simp at h
  rw [AList.lookup_erase_ne hne] at h
  exact ⟨hne, h⟩

theorem Kept.serving : Kept (Serving P) where
  frame := by
    intro s s' h hstates hconn channel state hstate
    rw [hstates] at hstate
    rw [hconn]
    exact h channel state hstate
  removed := by
    intro s channel state taskId hstate h channel' state' hstate'
    by_cases heq : channel' = channel
    · subst heq
      rw [AList.lookup_insert, Option.some.injEq] at hstate'
      subst hstate'
      obtain ⟨hc, mode, hmode, hP⟩ := h _ _ hstate
      exact ⟨hc, mode, hmode, fun id cmd hid => hP id cmd (lookup_of_lookup_erase hid).2⟩
    · rw [AList.lookup_insert_ne heq] at hstate'
      exact h _ _ hstate'
  cleaned := by
    intro s channel h
    unfold TaskPipe.cleanupConnection
    split
    · exact h
    · rename_i state hstate
      intro channel' state' hstate'
      -- 接続は一つなので、他のチャンネルは表にない
      obtain ⟨hne, hlookup⟩ := lookup_of_lookup_erase hstate'
      obtain ⟨_, mode, hmode, _⟩ := h _ _ hstate
      obtain ⟨_, mode', hmode', _⟩ := h _ _ hlookup
      rw [hmode, Option.some.injEq, Connection.mk.injEq] at hmode'
      exact absurd hmode'.1.symm hne
  cleared := by
    intro s _ channel state hstate
    simp at hstate

/-- 開いている接続があればその方式、なければ新しい接続の方式。 -/
def openMode (s : TaskPipe) (msg : UDSMessage) : VideoDecodeMode :=
  s.rtcClient.connection.elim (startMode s msg) (·.mode)

/-- 開始の後の接続。 -/
theorem Started.opened (h : Started s msg s') (hs : Serving P s)
    (hc : ∀ c, s.rtcClient.connection = some c → c.channel = msg.channel) :
    s'.rtcClient.connection = some ⟨msg.channel, openMode s msg⟩ := by
  rcases h.connection with ⟨⟨state, hstate, -⟩, hsame⟩ | hnew
  · obtain ⟨_, mode, hmode, _⟩ := hs _ _ hstate
    rw [hsame, hmode]
    simp [openMode, hmode]
  · rw [hnew]
    cases hconn : s.rtcClient.connection with
    | none => simp [openMode, hconn]
    | some c => simp [openMode, hconn, ← hc c hconn]

theorem Started.serving (h : Started s msg s') (hs : Serving P s)
    (hc : ∀ c, s.rtcClient.connection = some c → c.channel = msg.channel)
    (hP : P (openMode s msg) msg.cmd msg.taskId) : Serving P s' := by
  have hopened := h.opened hs hc
  intro channel state hstate
  by_cases heq : channel = msg.channel
  · subst heq
    rw [h.same, Option.some.injEq] at hstate
    subst hstate
    refine ⟨rfl, _, hopened, fun taskId cmd htask => ?_⟩
    by_cases hid : taskId = msg.taskId
    · subst hid
      rw [AList.lookup_insert, Option.some.injEq] at htask
      rwa [← htask]
    · rw [AList.lookup_insert_ne hid] at htask
      cases hold : s.channelStates.lookup msg.channel with
      | none => simp [hold] at htask
      | some old =>
          obtain ⟨_, mode, hmode, hold'⟩ := hs _ _ hold
          have := hold' taskId cmd (by simpa [hold] using htask)
          simpa [openMode, hmode] using this
  · rw [h.other heq] at hstate
    obtain ⟨hconnected, mode, hmode, hold⟩ := hs _ _ hstate
    exact absurd (hc _ hmode) heq

end Serving

/-! ## 成り立つ条件 -/

/-- 開始のときに開いている接続は、同じチャンネルへのものである。 -/
def noOtherConnection : worker.Condition :=
  onStart fun msg s => ∀ c, s.pipe.rtcClient.connection = some c → c.channel = msg.channel

/-- 開始のときの方式は、始めるタスクに要る映像を渡す。 -/
def startsFit : worker.Condition :=
  onStart fun msg s => Fits (openMode s.pipe msg) msg.cmd (TaskPipe.resolveDecodeMode msg).2

theorem Session.next_pipe (op : Op) (s : Session) : (s.next op).pipe = op.apply s.pipe := by
  cases op with
  | command msg o =>
      simp only [Session.next]
      split <;> rfl
  | recordingCompleted taskId status message o => rfl
  | streamingCompleted taskId status message o => rfl
  | sdkError errorType errorMessage => rfl

theorem serving_init {P snapshot recording} : Serving P (Session.init snapshot recording).pipe := by
  intro channel state hstate
  simp [Session.init, TaskPipe.init] at hstate

theorem serving_next {op : Op} {s : Session} (hs : Serving (fun _ _ _ => True) s.pipe) (hg : noOtherConnection op s) :
    Serving (fun _ _ _ => True) (s.next op).pipe := by
  rw [Session.next_pipe]
  refine Kept.serving.apply hs ?_
  intro msg o hop haction s' hstart
  subst hop
  exact hstart.serving hs (hg haction) trivial

theorem connectedToChannel_of_noOtherConnection {snapshot : SnapshotConfig} {recording : RecordingConfig} {s : Session}
    (hreach : worker.Reach (fun op s => oneChannelAtATime op s ∧ noOtherConnection op s) (.init snapshot recording) s)
    {channel : String} {state : ChannelState} (hstate : s.pipe.channelStates.lookup channel = some state)
    (_ : state.activeTasks.entries ≠ []) : ∃ mode, s.pipe.rtcClient.connection = some ⟨channel, mode⟩ := by
  have hserving : Serving (fun _ _ _ => True) s.pipe :=
    System.Reach.invariant (I := fun s : Session => Serving _ s.pipe) hreach serving_init
      fun op s hs hg => serving_next hs hg.2
  obtain ⟨_, mode, hmode, _⟩ := hserving channel state hstate
  exact ⟨mode, hmode⟩

/-- 録画 `a` を止めて接続を閉じた後に、別のチャンネルの録画 `b` を始める。 -/
def startAfterStop : List Op :=
  [recordStart "a" "c", .command { taskId := "a", cmd := .record, action := .stop, channel := "c" } {}, recordStart "b" "d"]

theorem startAfterStop_connected : ∃ s, worker.Reach (fun op s => oneChannelAtATime op s ∧ noOtherConnection op s)
    (Session.init sinkDefaults.1 sinkDefaults.2) s ∧ ∃ mode, s.pipe.rtcClient.connection = some ⟨"d", mode⟩ := by
  have hmeet : worker.AllMeet (fun op s => oneChannelAtATime op s ∧ noOtherConnection op s) startAfterStop
      (Session.init sinkDefaults.1 sinkDefaults.2) := by
    refine ⟨⟨fun _ => ?_, fun _ => ?_⟩, ⟨nofun, nofun⟩, ⟨fun _ => ?_, fun _ => ?_⟩, trivial⟩ <;> decide
  have hlast : ((worker.run startAfterStop (Session.init sinkDefaults.1 sinkDefaults.2)).pipe.channelStates.lookup "d").map
      (fun state => state.activeTasks.entries.isEmpty) = some false := by decide
  obtain ⟨state, hstate, hne⟩ := Option.map_eq_some_iff.mp hlast
  have hreach := System.reach_run hmeet
  exact ⟨_, hreach, connectedToChannel_of_noOtherConnection hreach hstate (by simpa using hne)⟩

theorem Fits.irrelevant {mode m m' cmd} (h : Fits mode cmd m) (hcmd : cmd ≠ .record) : Fits mode cmd m' := by
  cases cmd with
  | record => exact absurd rfl hcmd
  | snapshot | rtmp | whip => exact h

/-- 開いている接続に合う録画を始めるとき、その解決した方式を覚えても性質は変わらない。 -/
theorem Serving.resolve {s : TaskPipe} {resolved : String → VideoDecodeMode} {taskId mode}
    (h : Serving (fun m cmd id => Fits m cmd (resolved id)) s)
    (hfits : ∀ c, s.rtcClient.connection = some c → Fits c.mode .record mode) :
    Serving (fun m cmd id => Fits m cmd (Function.update resolved taskId mode id)) s := by
  intro channel state hstate
  obtain ⟨hc, m, hm, htasks⟩ := h channel state hstate
  refine ⟨hc, m, hm, fun id cmd hid => ?_⟩
  beta_reduce
  by_cases heq : id = taskId
  · subst heq
    rw [Function.update_self]
    by_cases hcmd : cmd = .record
    · subst hcmd
      exact hfits _ hm
    · exact (htasks id cmd hid).irrelevant hcmd
  · rw [Function.update_of_ne heq]
    exact htasks id cmd hid

/-- 接続の相手は `channel` に限る。 -/
def OnlyOn (channel : String) (s : TaskPipe) : Prop :=
  ∀ c, s.rtcClient.connection = some c → c.channel = channel

theorem Kept.onlyOn {channel : String} : Kept (OnlyOn channel) where
  frame := by
    intro s s' h _ hconn c hc
    rw [hconn] at hc
    exact h c hc
  removed := by
    intro s _ _ _ _ h
    exact h
  cleaned := by
    intro s c h
    unfold TaskPipe.cleanupConnection
    split
    · exact h
    · intro conn hconn
      dsimp only at hconn
      split at hconn
      · cases hconn
      · exact h conn hconn
  cleared := by
    intro s h
    exact h

theorem Started.onlyOn {s s' : TaskPipe} {msg : UDSMessage} (h : Started s msg s') (hs : OnlyOn msg.channel s) :
    OnlyOn msg.channel s' := by
  intro c hc
  rcases h.connection with ⟨-, hsame⟩ | hnew
  · rw [hsame] at hc
    exact hs c hc
  · rw [hnew, Option.some.injEq] at hc
    subst hc
    cases hconn : s.rtcClient.connection with
    | none => rfl
    | some c => exact hs c hconn

/-- 解決した方式を覚えた後の性質。 -/
theorem serving_resolved {s : Session} {msg : UDSMessage} {o : Outcome}
    (h : Serving (fun mode cmd id => Fits mode cmd (s.resolved id)) s.pipe)
    (hg : startsFit (.command msg o) s) :
    Serving (fun mode cmd id => Fits mode cmd ((s.next (.command msg o)).resolved id)) s.pipe := by
  by_cases haction : msg.action = .start
  · by_cases hcmd : msg.cmd = .record
    · simp only [Session.next, haction, hcmd, reduceIte]
      refine h.resolve fun c hc => ?_
      have := hg haction
      simpa [openMode, hc, hcmd] using this
    · simpa only [Session.next, haction, hcmd, reduceIte] using h
  · simpa only [Session.next, haction, reduceIte] using h

/-- 一つのチャンネルに接続していて、その方式はすべてのタスクに合う。 -/
structure FitOn (channel : String) (s : Session) : Prop where
  serving : Serving (fun mode cmd id => Fits mode cmd (s.resolved id)) s.pipe
  onlyOn : OnlyOn channel s.pipe

theorem FitOn.next {channel : String} {op : Op} {s : Session} (h : FitOn channel s) (hc : commandsOn channel op s)
    (hg : startsFit op s) : FitOn channel (s.next op) := by
  cases op with
  | recordingCompleted | streamingCompleted | sdkError => exact hc.elim
  | command msg o =>
      obtain ⟨rfl, -⟩ := hc
      have hresolved := serving_resolved h.serving hg
      constructor
      · rw [Session.next_pipe]
        refine Kept.serving.command hresolved fun haction s' hstart => ?_
        refine hstart.serving hresolved h.onlyOn ?_
        by_cases hcmd : msg.cmd = .record
        · simpa [Session.next, haction, hcmd] using hg haction
        · exact (hg haction).irrelevant hcmd
      · rw [Session.next_pipe]
        exact Kept.onlyOn.command h.onlyOn fun _ s' hstart => hstart.onlyOn h.onlyOn

theorem deliversNeeded_of_startsFit (channel : String) :
    DeliversNeeded fun op s => commandsOn channel op s ∧ startsFit op s := by
  intro snapshot recording s hreach c state taskId cmd hstate htask
  have hinit : FitOn channel (Session.init snapshot recording) := ⟨serving_init, fun _ hc => nomatch hc⟩
  have hinv : FitOn channel s := System.Reach.invariant hreach hinit fun op s hs hg => hs.next hg.1 hg.2
  obtain ⟨_, mode, hmode, htasks⟩ := hinv.serving c state hstate
  exact ⟨_, hmode, htasks taskId cmd htask⟩

/-- 静止画を止めた後に、同じチャンネルで一人の録画が始まる。 -/
def recordAfterSnapshot : List Op :=
  [.command { taskId := "b", cmd := .snapshot, action := .start, channel := "c" } {},
    .command { taskId := "b", cmd := .snapshot, action := .stop, channel := "c" } {}, recordStart "a" "c"]

/-- 接続し直したので、録画には素通しの映像が届く。 -/
theorem recordAfterSnapshot_delivered : ∃ s, worker.Reach (fun op s => commandsOn "c" op s ∧ startsFit op s)
    (Session.init sinkDefaults.1 sinkDefaults.2) s ∧
    ∃ c, s.pipe.rtcClient.connection = some c ∧ Fits c.mode .record (s.resolved "a") := by
  have hmeet : worker.AllMeet (fun op s => commandsOn "c" op s ∧ startsFit op s) recordAfterSnapshot
      (Session.init sinkDefaults.1 sinkDefaults.2) := by
    refine ⟨⟨⟨rfl, .inl rfl⟩, fun _ => ?_⟩, ⟨⟨rfl, .inr rfl⟩, fun h => ?_⟩, ⟨⟨rfl, .inl rfl⟩, fun _ => ?_⟩, trivial⟩
    · exact fun h => by cases h
    · cases h
    · exact rfl
  have hlast : ((worker.run recordAfterSnapshot (Session.init sinkDefaults.1 sinkDefaults.2)).pipe.channelStates.lookup "c").map
      (fun state => state.activeTasks.lookup "a") = some (some .record) := by decide
  obtain ⟨state, hstate, htask⟩ := Option.map_eq_some_iff.mp hlast
  have hreach := System.reach_run hmeet
  exact ⟨_, hreach, deliversNeeded_of_startsFit "c" _ _ _ hreach "c" state "a" .record hstate htask⟩

end RtcEgress.Worker
