import Mathlib.Logic.Function.Basic
import RtcEgress.Lib.System

/-!
# `src/recording_sink.cpp` の録画のスレッド

`initialize`、`start`、`stop`、`recordingThread` と、映像と音声の処理のスレッドを写す。`mutex_` を持つ一つの区間、一回の
`join`、片づけの一つの段階が、それぞれ一歩である。スレッドは `std::thread::id` で見分ける。一つの番号は、`join` された後で
別のスレッドが使うことがある。時間の経過、ディレクトリの作成、TS のセッションの開始の結果は、外から与える。
-/

namespace RtcEgress.Sink.RecordingSink

open RtcEgress.Lib
open Function (update)

inductive OutputFormat where
  | mp4 | avi | mkv | ts
  deriving DecidableEq

inductive Mode where
  | individual | composite
  deriving DecidableEq

/-- `RecordingSink::Config` のうち、スレッドの動きに関わる欄。 -/
structure Config where
  mode : Mode := .composite
  format : OutputFormat := .mp4
  maxDurationSeconds : Int := 3600 * 8
  recordVideo : Bool := true
  recordAudio : Bool := true
  audioPriority : Int := 80
  videoPriority : Int := 70
  taskId : String := ""

/-! ## スレッド -/

abbrev ThreadId := Nat

inductive Track where
  | audio | video
  deriving DecidableEq

/-- セッションのスレッド。 -/
inductive Worker where
  | recording
  | processing (track : Track)
  deriving DecidableEq

def Worker.all : List Worker := [.recording, .processing .audio, .processing .video]

def Config.runs (config : Config) : Worker → Bool
  | .recording => true
  | .processing .audio => config.recordAudio
  | .processing .video => config.recordVideo

/-- `stop` がスレッドを待った後に片づけるもの。 -/
inductive Part where
  | compositor | encoders | tsSession | metadataSession | queues
  deriving DecidableEq

def Part.all : List Part := [.compositor, .encoders, .tsSession, .metadataSession, .queues]

/-- `stop` の段階。 -/
inductive Stop where
  | entering
  /-- `cv_` で待つ。 -/
  | waiting
  | joining (w : Worker) (wasRecording : Bool)
  /-- 片づけの残り。 -/
  | finalising (parts : List Part)
  /-- `wasRecording` が偽のときの終わり。 -/
  | releasing

/-- 外のスレッドの段階。 -/
inductive Caller where
  | idle
  | initialized (ok : Bool)
  | started (ok : Bool)
  /-- `start` から呼んだ `stop`。 -/
  | reaping (stop : Stop)
  /-- その `stop` から戻り、再びロックを取る。 -/
  | resuming
  /-- `stop`。呼んだときまでに始まったセッションの数を添える。 -/
  | stopping (issued : Nat) (stop : Stop)
  | stopped (issued : Nat)

/-- `recordingThread` の段階。 -/
inductive Recording where
  | looping
  /-- ロックを取って時間を調べる。 -/
  | checking
  | waiting
  | callback
  /-- コールバックから呼んだ `stop`。 -/
  | stopping (stop : Stop)
  | ended

inductive Thread where
  | caller (phase : Caller)
  | recording (session : Nat) (phase : Recording)
  /-- `audioProcessingThreadLoop` と `videoProcessingThreadLoop`。 -/
  | processing (track : Track) (session : Nat) (ended : Bool)

/-- 呼び出しを終えている。 -/
def Caller.ready : Caller → Bool
  | .idle | .initialized _ | .started _ | .stopped _ => true
  | _ => false

namespace Thread

/-- 作ったばかりのセッションのスレッド。 -/
def create (session : Nat) : Worker → Thread
  | .recording => .recording session .looping
  | .processing track => .processing track session false

def worker : Thread → Option (Worker × Nat)
  | .caller _ => none
  | .recording session _ => some (.recording, session)
  | .processing track session _ => some (.processing track, session)

def hasEnded : Thread → Bool
  | .recording _ .ended | .processing _ _ true => true
  | _ => false

/-- 行っている `stop` の段階。 -/
def stop : Thread → Option Stop
  | .caller (.reaping stop) | .caller (.stopping _ stop) | .recording _ (.stopping stop) => some stop
  | _ => none

/-- `stop` を進めた後の段階。`none` は、`stop` から戻ったことを表す。 -/
def afterStop (t : Thread) (stop : Option Stop) : Thread :=
  match t with
  | .caller (.reaping _) => .caller (stop.elim .resuming .reaping)
  | .caller (.stopping issued _) => .caller (stop.elim (.stopped issued) (.stopping issued))
  | .recording session (.stopping _) => .recording session (stop.elim .callback .stopping)
  | t => t

end Thread

/-! ## 状態 -/

/-- 外から与える結果。 -/
structure Env where
  /-- 作るスレッドの番号。 -/
  ids : Worker → ThreadId := fun _ => 0
  /-- `startNewSession` の結果。 -/
  session : Bool := true
  /-- `startTime_` からの秒数。 -/
  elapsed : Int := 0

/-- `initialize` の途中の結果。 -/
structure Setup where
  directory : Bool := true
  segments : Bool := true
  compositor : Bool := true

/-- メンバー変数と、スレッドの表。ポインタは、`null` でないことを表す。 -/
structure State where
  config : Config := {}
  tsSegmentManager : Bool := false
  metadataManager : Bool := false
  videoCompositor : Bool := false
  completionCallback : Bool := false
  isRecording : Bool := false
  stopRequested : Bool := false
  stopInProgress : Bool := false
  /-- `recordingThread_`、`audioProcessingThread_`、`videoProcessingThread_`。 -/
  handle : Worker → Option ThreadId := fun _ => none
  recordingThreadId : Option ThreadId := none
  /-- まだ `join` されていないスレッド。 -/
  threads : ThreadId → Option Thread := fun _ => none
  /-- `true` を返した `start` の数。 -/
  started : Nat := 0
  /-- セッションごとの、片づけるもの。 -/
  needed : Nat → Part → Bool := fun _ _ => false
  /-- セッションごとに、行った片づけ。 -/
  finals : Nat → List Part := fun _ => []

namespace State

def put (s : State) (i : ThreadId) (t : Thread) : State := { s with threads := update s.threads i (some t) }

def remove (s : State) (i : ThreadId) : State := { s with threads := update s.threads i none }

def ready (s : State) (i : ThreadId) : Bool :=
  match s.threads i with
  | some (.caller phase) => phase.ready
  | _ => false

def hasEnded (s : State) (i : ThreadId) : Bool := (s.threads i).any Thread.hasEnded

/-- 片づけの各段階を行う条件。 -/
def needs (s : State) : Part → Bool
  | .compositor => s.videoCompositor
  | .encoders | .queues => true
  | .tsSession => s.config.format = .ts && s.tsSegmentManager
  | .metadataSession => s.metadataManager && s.config.taskId ≠ ""

/-! ## `initialize` -/

/-- `initialize`。 -/
def initializeSink (config : Config) (setup : Setup) (s : State) : Bool × State :=
  if s.isRecording || s.stopInProgress then (false, s)
  else if config.audioPriority < 1 || 99 < config.audioPriority || config.videoPriority < 1 || 99 < config.videoPriority then
    (false, s)
  else
    let s := { s with config }
    if !setup.directory then (false, s)
    else
      let s := if config.format = .ts then { s with tsSegmentManager := true } else s
      if config.format = .ts && !setup.segments then (false, s)
      else
        let s := if config.taskId ≠ "" then { s with metadataManager := true } else s
        if config.mode = .composite then (setup.compositor, { s with videoCompositor := true }) else (true, s)

/-! ## `start` -/

/-- 番号は、まだ `join` されていないスレッドの番号と異なり、互いに異なる。 -/
def fresh (env : Env) (s : State) : Bool :=
  (Worker.all.map env.ids).Nodup && Worker.all.all fun w => (s.threads (env.ids w)).isNone

def spawn (w : Worker) (i : ThreadId) (s : State) : State :=
  { s with handle := update s.handle w (some i), threads := update s.threads i (some (.create s.started w)) }

/-- スレッドを作る。 -/
def spawnAll (env : Env) (s : State) : State :=
  let s := { s.spawn .recording (env.ids .recording) with recordingThreadId := some (env.ids .recording) }
  let s := if s.config.recordAudio then s.spawn (.processing .audio) (env.ids (.processing .audio)) else s
  if s.config.recordVideo then s.spawn (.processing .video) (env.ids (.processing .video)) else s

/-- 検査を終えた後の `start`。 -/
def openSession (env : Env) (s : State) : Caller × State :=
  let s := { s with stopRequested := false, isRecording := true }
  if s.config.format = .ts && s.tsSegmentManager && !env.session then (.started false, { s with isRecording := false })
  else
    let s := s.spawnAll env
    (.started true, { s with started := s.started + 1, needed := update s.needed s.started s.needs })

def start (i : ThreadId) (env : Env) (s : State) : Caller × State :=
  if s.isRecording || s.stopInProgress then (.started false, s)
  else if (s.handle .recording).isSome then
    if s.recordingThreadId = some i then (.started false, s) else (.reaping .entering, s)
  else s.openSession env

/-- `stop` から戻った後の `start`。 -/
def resume (env : Env) (s : State) : Caller × State :=
  if s.isRecording || s.stopInProgress || (s.handle .recording).isSome then (.started false, s) else s.openSession env

/-! ## `stop` -/

/-- `stopInProgress_` が下りているときの、ロックの区間の残り。 -/
def passGate (s : State) : Option Stop × State :=
  if !s.isRecording && (s.handle .recording).isNone then (none, s)
  else
    (some (.joining (.processing .audio) s.isRecording), { s with stopInProgress := true, stopRequested := true })

def afterJoin (wasRecording : Bool) : Worker → Stop
  | .processing .audio => .joining (.processing .video) wasRecording
  | .processing .video => .joining .recording wasRecording
  | .recording => if wasRecording then .finalising Part.all else .releasing

/-- `join` と `reset`。 -/
def join (w : Worker) (i : ThreadId) (s : State) : State := { s.remove i with handle := update s.handle w none }

/-- 一つの片づけ。 -/
def finalise (part : Part) (s : State) : State :=
  let session := s.started - 1
  if s.needs part then { s with finals := update s.finals session (s.finals session ++ [part]) } else s

/-- スレッド `i` の `stop` の一歩。`none` は、`stop` から戻ることを表す。 -/
def stepStop (i : ThreadId) (s : State) : Stop → Option Stop × State
  | .entering =>
      if s.stopInProgress then if s.recordingThreadId = some i then (none, s) else (some .waiting, s) else s.passGate
  | .waiting => if s.stopInProgress then (some .waiting, s) else s.passGate
  | .joining w wasRecording =>
      match s.handle w with
      | none => (some (afterJoin wasRecording w), s)
      | some j =>
          if w = .recording ∧ j = i then (some (afterJoin wasRecording w), s)
          else if s.hasEnded j then (some (afterJoin wasRecording w), s.join w j)
          else (some (.joining w wasRecording), s)
  | .finalising (part :: parts) => (some (.finalising parts), s.finalise part)
  | .finalising [] => (none, { s with isRecording := false, stopInProgress := false })
  | .releasing => (none, { s with stopInProgress := false })

/-! ## `recordingThread` -/

/-- `recordingThread` の一歩。コールバックの中で `stop` を呼ぶのは、別の操作である。 -/
def stepRecording (env : Env) (s : State) : Recording → Recording × State
  | .looping => (if s.stopRequested then .ended else .checking, s)
  | .checking =>
      if s.config.maxDurationSeconds ≤ env.elapsed then
        if s.stopRequested then (.ended, s)
        else
          (if s.completionCallback && s.config.taskId ≠ "" then .callback else .ended, { s with stopRequested := true })
      else (.waiting, s)
  | .waiting => (if s.stopRequested then .ended else .looping, s)
  | .callback => (.ended, s)
  | phase => (phase, s)

/-- スレッド `i` の一歩。 -/
def stepThread (i : ThreadId) (env : Env) (s : State) (t : Thread) : Thread × State :=
  match t.stop with
  | some stop =>
      let (stop, s) := s.stepStop i stop
      (t.afterStop stop, s)
  | none =>
      match t with
      | .caller .resuming =>
          if s.fresh env then
            let (phase, s) := s.resume env
            (.caller phase, s)
          else (t, s)
      | .caller _ => (t, s)
      | .recording session phase =>
          let (phase, s) := s.stepRecording env phase
          (.recording session phase, s)
      | .processing track session ended => (.processing track session (ended || s.stopRequested), s)

end State

/-! ## 操作 -/

inductive Op where
  /-- 外のスレッドができる。 -/
  | create (i : ThreadId)
  /-- 外のスレッドが終わり、`join` される。 -/
  | exit (i : ThreadId)
  | setCompletionCallback (registered : Bool)
  | initializeSink (i : ThreadId) (config : Config) (setup : Setup)
  | start (i : ThreadId) (env : Env)
  /-- 外のスレッドか、コールバックが `stop` を呼ぶ。 -/
  | stop (i : ThreadId)
  | run (i : ThreadId) (env : Env)

/-- 一つの操作。 -/
def State.step : Op → State → State
  | .create i, s => if (s.threads i).isNone then s.put i (.caller .idle) else s
  | .exit i, s => if s.ready i then s.remove i else s
  | .setCompletionCallback registered, s => { s with completionCallback := registered }
  | .initializeSink i config setup, s =>
      if s.ready i then
        let (ok, s) := s.initializeSink config setup
        s.put i (.caller (.initialized ok))
      else s
  | .start i env, s =>
      if s.ready i && s.fresh env then
        let (phase, s) := s.start i env
        s.put i (.caller phase)
      else s
  | .stop i, s =>
      match s.threads i with
      | some (.caller phase) => if phase.ready then s.put i (.caller (.stopping s.started .entering)) else s
      | some (.recording session .callback) => s.put i (.recording session (.stopping .entering))
      | _ => s
  | .run i env, s =>
      match s.threads i with
      | none => s
      | some t =>
          let (t, s) := s.stepThread i env t
          s.put i t

/-- 録画の部品。 -/
def sink : System Op := ⟨State, State.step⟩

/-- スレッド `i` が部品を作ったときの状態。 -/
def created (i : ThreadId) : State := { threads := update (fun _ => none) i (some (.caller .idle)) }

end RtcEgress.Sink.RecordingSink
