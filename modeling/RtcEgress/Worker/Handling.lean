import RtcEgress.Lib.Answer
import RtcEgress.Lib.History
import RtcEgress.Worker.Threads

/-!
# スレッドが引き受けているタスク

スレッドの命令と応答から、そのスレッドがいま扱っているタスクと、完了を送ることになっているかを読み取る。どのプログラムも、
引き受けたタスクの完了を送ってから終わり、完了を送るのは、引き受けて表から除いたタスクか、読んでまだ載せていない
開始に限る。
-/

namespace RtcEgress.Worker.Threads

open RtcEgress.Lib

/-- スレッドがどこまで進んだか。 -/
inductive Phase where
  | resting
  /-- 開始を読んで、まだ載せていない。 -/
  | starting (msg : UDSMessage)
  | engaged (taskId : String) (role : Role String)

namespace Phase

/-- タスク `taskId` についての役割。 -/
def role (taskId : String) : Phase → Role String
  | .resting => .idle
  | .starting msg => if msg.taskId = taskId then .starting else .idle
  | .engaged id role => if id = taskId then role else .idle

/-- 完了を送ることになっているタスク。 -/
def holder : Phase → Option String
  | .resting => none
  | .starting msg => some msg.taskId
  | .engaged taskId role => if role.holds then some taskId else none

theorem role_holds {taskId : String} : {phase : Phase} → (phase.role taskId).holds = true ↔ phase.holder = some taskId
  | .resting => by simp [role, holder]
  | .starting msg => by by_cases h : msg.taskId = taskId <;> simp [role, holder, h]
  | .engaged id r => by by_cases h : id = taskId <;> simp [role, holder, h]

/-- 接続できなかった静止画と録画の開始は、何も送らずに終わる。 -/
def disconnected : Phase → Phase
  | .starting msg => if msg.cmd = .snapshot ∨ msg.cmd = .record then .resting else .starting msg
  | phase => phase

/-- 載せたタスクの部品を始められなかった。 -/
def unstarted (role : String → Role String) : Phase → Phase
  | .engaged taskId (.registered channel) => .engaged taskId (role channel)
  | phase => phase

/-- 探したタスクが見つからなかった。長さに達した録画は、それでも完了を送る。 -/
def missed : Phase → Phase
  | .engaged taskId .due => .engaged taskId .released
  | phase => phase

/-- 完了の通知で、タスクを探した。 -/
def searched (taskId : String) (phase : Phase) : Option String → Phase
  | some channel => if channel = "" then phase.missed else .engaged taskId (.found channel)
  | none => phase.missed

def removed : Phase → Phase
  | .engaged taskId (.found _) => .engaged taskId .released
  | phase => phase

/-- 命令の後の進み方。 -/
def next (c : Cmd) (r : c.Resp) (phase : Phase) : Phase :=
  match c, r with
  | .receive msg, _ =>
      if msg.action = .start ∧ (msg.channel ≠ "" ∨ msg.cmd = .rtmp ∨ msg.cmd = .whip) then .starting msg else .resting
  | .connect _, false => phase.disconnected
  | .addTask channel taskId _, _ | .addRecording channel taskId, _ => .engaged taskId (.registered channel)
  | .startSnapshot _, false => phase.unstarted .abandoned
  | .startRecording _ _, false | .startStreaming _, false => phase.unstarted .found
  | .takeSnapshot _ _, some (_, taskId) => .engaged taskId .released
  | .findRecording _ _, some (channel, taskId, _) | .findStreaming _ _, some (channel, taskId) =>
      .engaged taskId (.found channel)
  | .reachDuration, some taskId => .engaged taskId .due
  | .findTask taskId _, found => phase.searched taskId found
  | .release _ _, _ => phase.removed
  | .send _, _ => .resting
  | _, _ => phase

end Phase

abbrev phase (h : List (Act Cmd Cmd.Resp)) : Phase := Prog.summary .resting Phase.next h

/-- 命令を出すときの進み方。 -/
def Ok (c : Cmd) (phase : Phase) : Prop :=
  match c with
  | .receive _ => phase.holder = none
  | .addTask channel taskId _ | .addRecording channel taskId =>
      channel ≠ "" ∧ ∃ msg, phase = .starting msg ∧ msg.taskId = taskId
  | .startSnapshot _ | .startRecording _ _ | .startStreaming _ => ∃ taskId channel, phase = .engaged taskId (.registered channel)
  | .takeSnapshot _ _ | .findRecording _ _ | .findStreaming _ _ | .reachDuration => phase = .resting
  | .findTask taskId _ => phase = .resting ∨ phase = .engaged taskId .due
  | .release channel taskId =>
      ∃ role, phase = .engaged taskId role ∧ (role = .found channel ∨ role = .released ∨ role = .abandoned channel)
  | .send m => (∃ msg, phase = .starting msg ∧ msg.taskId = m.taskId) ∨ phase = .engaged m.taskId .released
  | _ => True

/-! ## 各プログラムの進み方 -/

/-- プログラムの後の進み方。 -/
abbrev To {α : Type} (p : P α) (phase : Phase) (Q : α → Phase → Prop) : Prop := p.Tracks Ok Phase.next Q phase

/-- 完了を送ることになっているタスクはない。 -/
def Free {α : Type} (_ : α) (phase : Phase) : Prop := phase.holder = none

section Programs

attribute [local simp] Ok Phase.next Prog.perform

variable {caller : Caller} {channel taskId token : String} {s : Phase} {msg : UDSMessage} {o : Outcome}

theorem to_stopRecordingSink : To (stopRecordingSink caller) s fun _ s' => s' = s := by simp [stopRecordingSink]

theorem to_stopStreamingSink : To (stopStreamingSink caller) s fun _ s' => s' = s := by simp [stopStreamingSink]

theorem to_ensureConnected {ok : Bool} :
    To (ensureConnected channel token ok) s fun connected s' => s' = if connected then s else s.disconnected := by
  simp [ensureConnected]

theorem to_cleanupConnection : To (cleanupConnection channel caller) s fun _ s' => s' = s := by
  simp [cleanupConnection]
  intro found
  cases found with
  | none => simp
  | some connected =>
      simp
      apply Prog.Tracks.bind _ to_stopRecordingSink
      rintro _ _ rfl
      apply Prog.Tracks.bind _ to_stopStreamingSink
      rintro _ _ rfl
      simp

theorem to_releaseConnection (h : Ok (.release channel taskId) s) :
    To (releaseConnection channel taskId caller) s fun _ s' => s' = s.removed := by
  simp [releaseConnection]
  exact ⟨h, to_cleanupConnection⟩

theorem free_resting {α : Type} {a : α} : Free a .resting := rfl

theorem free_registered {α : Type} {a : α} : Free a (.engaged taskId (.registered channel)) := rfl

/-- 引き受けたタスクを除いて、完了を送る。 -/
theorem frees_complete {role : Role String} {m : UDSCompletionMessage} (hm : m.taskId = taskId)
    (h : role = .found channel ∨ role = .released) :
    To (do releaseConnection channel taskId caller; sendCompletionMessage m) (.engaged taskId role) Free := by
  apply Prog.Tracks.bind _ (to_releaseConnection ⟨role, rfl, by tauto⟩)
  rintro _ _ rfl
  rcases h with rfl | rfl <;> simp [Phase.removed, hm, free_resting]

theorem frees_startSnapshot (hcmd : msg.cmd = .snapshot) (hchannel : msg.channel ≠ "") :
    To (startSnapshot msg o) (.starting msg) Free := by
  simp only [startSnapshot]
  apply Prog.Tracks.bind _ to_ensureConnected
  rintro connected _ rfl
  cases connected with
  | false => simp [Phase.disconnected, hcmd, free_resting]
  | true =>
      simp [hchannel, Phase.unstarted, free_registered]
      apply (to_releaseConnection (by simp)).mono
      rintro _ _ rfl
      rfl

theorem frees_stopSnapshot : To (stopSnapshot msg o) .resting Free := by
  simp [stopSnapshot]
  intro found
  cases found with
  | none => exact free_resting
  | some found => exact frees_complete rfl (.inr rfl)

theorem frees_handleSnapshotCommand (hcmd : msg.cmd = .snapshot) :
    To (handleSnapshotCommand msg o) (Phase.resting.next (.receive msg) ()) Free := by
  by_cases hchannel : msg.channel = ""
  · simp [handleSnapshotCommand, hchannel, hcmd, free_resting]
  · cases haction : msg.action with
    | start => simpa [handleSnapshotCommand, hchannel, haction] using frees_startSnapshot hcmd hchannel
    | stop => simpa [handleSnapshotCommand, hchannel, haction] using frees_stopSnapshot
    | status | other => simp [handleSnapshotCommand, hchannel, haction, free_resting]

theorem frees_startRecording (hcmd : msg.cmd = .record) (hchannel : msg.channel ≠ "") :
    To (startRecording msg o) (.starting msg) Free := by
  simp only [startRecording, if_neg hchannel]
  apply Prog.Tracks.bind _ to_ensureConnected
  rintro connected _ rfl
  cases connected with
  | false => simp [Phase.disconnected, hcmd, free_resting]
  | true =>
      simp [hchannel, Phase.unstarted, free_registered]
      exact frees_complete rfl (.inl rfl)

theorem frees_stopRecording : To (stopRecording msg o) .resting Free := by
  simp [stopRecording]
  intro found
  cases found with
  | none => exact free_resting
  | some found =>
      simp
      constructor
      · intro _
        apply Prog.Tracks.bind _ to_stopRecordingSink
        rintro _ _ rfl
        exact frees_complete rfl (.inl rfl)
      · exact fun _ => frees_complete rfl (.inl rfl)

theorem frees_handleRecordingCommand (hcmd : msg.cmd = .record) :
    To (handleRecordingCommand msg o) (Phase.resting.next (.receive msg) ()) Free := by
  cases haction : msg.action with
  | start =>
      by_cases hchannel : msg.channel = ""
      · simp [handleRecordingCommand, startRecording, haction, hchannel, hcmd, free_resting]
      · simpa [handleRecordingCommand, haction, hchannel] using frees_startRecording hcmd hchannel
  | stop => simpa [handleRecordingCommand, haction] using frees_stopRecording
  | status | other => simp [handleRecordingCommand, haction, free_resting]

theorem to_isBusy : To isBusy s fun _ s' => s' = s := by simp [isBusy]

theorem frees_startStreaming (hcmd : msg.cmd = .rtmp ∨ msg.cmd = .whip) :
    To (startStreaming msg o) (.starting msg) Free := by
  have hfail (m : UDSCompletionMessage) (hm : msg.taskId = m.taskId) :
      To (do stopStreamingSink .pipe; sendCompletionMessage m) (.starting msg) Free := by
    apply Prog.Tracks.bind _ to_stopStreamingSink
    rintro _ _ rfl
    simp [hm, free_resting]
  have hbusy : To (if msg.channel = "" ∨ msg.taskId = "" then Prog.ret true else isBusy) (.starting msg)
      fun busy s' => s' = .starting msg ∧ (busy = false → msg.channel ≠ "") := by
    by_cases h : msg.channel = "" ∨ msg.taskId = ""
    · simp [h]
    · rw [if_neg h]
      exact to_isBusy.mono fun _ _ hs => ⟨hs, fun _ hchannel => h (.inl hchannel)⟩
  apply Prog.Tracks.bind _ hbusy
  rintro busy _ ⟨rfl, hchannel⟩
  cases busy with
  | true => simp [free_resting]
  | false =>
      apply Prog.Tracks.bind _ to_stopStreamingSink
      rintro _ _ rfl
      simp
      constructor
      · exact hfail _ rfl
      · apply Prog.Tracks.bind _ to_ensureConnected
        rintro connected _ rfl
        have hstays : (Phase.starting msg).disconnected = .starting msg := by
          rcases hcmd with h | h <;> simp [Phase.disconnected, h]
        cases connected with
        | false => simpa [hstays] using hfail _ rfl
        | true =>
            simp [hchannel rfl, Phase.unstarted, free_registered]
            exact frees_complete rfl (.inl rfl)

theorem frees_stopStreaming : To (stopStreaming msg o) .resting Free := by
  simp [stopStreaming]
  intro found
  cases found with
  | none => exact free_resting
  | some found =>
      apply Prog.Tracks.bind _ to_stopStreamingSink
      rintro _ _ rfl
      simp
      exact ⟨frees_complete rfl (.inl rfl), frees_complete rfl (.inl rfl)⟩

theorem frees_handleStreamingCommand (hcmd : msg.cmd = .rtmp ∨ msg.cmd = .whip) (haction : msg.action ≠ .other) :
    To (handleStreamingCommand msg o) (Phase.resting.next (.receive msg) ()) Free := by
  cases h : msg.action with
  | start => simpa [handleStreamingCommand, h, hcmd] using frees_startStreaming hcmd
  | stop => simpa [handleStreamingCommand, h] using frees_stopStreaming
  | status => simp [handleStreamingCommand, h, free_resting]
  | other => exact absurd h haction

theorem frees_handleCommand (haction : msg.action ≠ .other) (hfree : s.holder = none) :
    To (handleCommand msg o) s Free := by
  simp only [handleCommand, Prog.perform_bind, Prog.tracks_call]
  refine ⟨hfree, fun _ => ?_⟩
  cases hcmd : msg.cmd with
  | snapshot => exact frees_handleSnapshotCommand hcmd
  | record => exact frees_handleRecordingCommand hcmd
  | rtmp => exact frees_handleStreamingCommand (.inl hcmd) haction
  | whip => exact frees_handleStreamingCommand (.inr hcmd) haction

/-! ### 通知 -/

theorem frees_recordingThread : To (recordingThread o) .resting Free := by
  simp [recordingThread]
  intro reached
  cases reached with
  | none => exact free_resting
  | some taskId =>
      simp
      intro found
      cases found with
      | none => simp [Phase.searched, Phase.missed, free_resting]
      | some channel =>
          simp
          constructor
          · rintro rfl
            simp [Phase.searched, Phase.missed, free_resting]
          · intro hchannel
            simp only [Phase.searched, if_neg hchannel]
            apply Prog.Tracks.bind _ (to_releaseConnection (by simp))
            rintro _ _ rfl
            simp [Phase.removed, free_resting]

theorem frees_streamingThread {failed : Bool} {message : String} : To (streamingThread failed message o) .resting Free := by
  simp [streamingThread]
  intro ended
  cases ended with
  | none => exact free_resting
  | some taskId =>
      simp
      constructor
      · intro found
        cases found with
        | none => exact ⟨trivial, fun _ => free_resting⟩
        | some channel =>
            simp
            constructor
            · rintro rfl
              simp [Phase.searched, Phase.missed, free_resting]
            · intro hchannel
              simp only [Phase.searched, if_neg hchannel]
              apply Prog.Tracks.bind _ (to_releaseConnection (by simp))
              rintro _ _ rfl
              simp [Phase.removed, free_resting]
      · exact fun _ => free_resting

theorem frees_handleSdkError {errorType errorMessage : String} :
    To (handleSdkError errorType errorMessage) .resting Free := by
  simp only [handleSdkError, Prog.perform_bind, Prog.tracks_call]
  refine ⟨trivial, fun hadRecording => ⟨trivial, fun hadSnapshot => ?_⟩⟩
  apply Prog.Tracks.bind _ to_isBusy
  rintro hadStream _ rfl
  have hstream : To (if hadStream then stopStreamingSink .sdk else Prog.ret ()) .resting Free := by
    cases hadStream with
    | false => exact free_resting
    | true => exact to_stopStreamingSink.mono fun _ _ h => by rw [h]; exact free_resting
  cases hadRecording with
  | false => cases hadSnapshot <;> simpa using hstream
  | true =>
      simp
      apply Prog.Tracks.bind _ to_stopRecordingSink
      rintro _ _ rfl
      cases hadSnapshot <;> simpa using hstream

end Programs

/-- 知らない動作のコマンドは来ない。 -/
def knownActions : Call → Prop
  | .threadFunc messages => ∀ x ∈ messages, x.1.action ≠ .other
  | _ => True

instance : DecidablePred knownActions
  | .threadFunc messages => inferInstanceAs (Decidable (∀ x ∈ messages, x.1.action ≠ .other))
  | .recordingThread _ | .streamingThread _ _ _ | .handleSdkError _ _ => .isTrue trivial

theorem frees_threadFunc {messages : List (UDSMessage × Outcome)} (h : ∀ x ∈ messages, x.1.action ≠ .other) :
    To (threadFunc messages) .resting Free := by
  simp only [threadFunc, Prog.perform_bind, Prog.tracks_call]
  refine ⟨trivial, fun _ => ?_⟩
  have hall (s : Phase) (hs : s.holder = none) :
      To (Prog.forEach (fun x => handleCommand x.1 x.2) messages) s Free := by
    induction messages generalizing s with
    | nil => exact hs
    | cons x messages ih =>
        exact Prog.Tracks.bind (fun _ s' hs' => ih (fun y hy => h y (by simp [hy])) s' hs')
          (frees_handleCommand (h x (by simp)) hs)
  exact hall .resting rfl

theorem bodies {k : Call} (hk : knownActions k) :
    k.body.Follows (fun c h => Ok c (phase h)) (fun _ h => (phase h).holder = none) [] := by
  have hbody : To k.body (phase []) Free := by
    cases k with
    | threadFunc messages => exact frees_threadFunc hk
    | recordingThread o => exact frees_recordingThread
    | streamingThread failed message o => exact frees_streamingThread
    | handleSdkError errorType errorMessage => exact frees_handleSdkError
  exact Prog.Tracks.follows hbody

end RtcEgress.Worker.Threads
