import RtcEgress.Lib.Bounded
import RtcEgress.Lib.System
import RtcEgress.Media.VideoFrame
import RtcEgress.Message.Users
import RtcEgress.Sink.RecordingSink

/-!
# `src/recording_sink.cpp` のフレームの待ち行列

`onAudioFrame` と `onVideoFrame` を呼ぶスレッド、`audioProcessingThreadLoop` と `videoProcessingThreadLoop` のスレッド、
`stop` と `recordingThread` が、一つの待ち行列とミューテックスと条件変数を通じて動く様子を、一つのセッションについて写す。
`stopRequested_` は、ミューテックスの外で変わる。そこで、それを読む歩と、ロックを放す歩とを分ける。条件変数で待つ
スレッドは、理由なく目を覚ますこともある。
-/

namespace RtcEgress.Sink.FrameQueues

open RtcEgress.Lib
open Function (update)

/-! ## フレームの検査 -/

/-- `onAudioFrame` の引数。 -/
structure AudioSource where
  audioBuffer : Option (List UInt8)
  samples : Int32
  sampleRate : Int32
  channels : Int32
  timestamp : UInt64
  userId : String

structure AudioFrame where
  data : List UInt8 := []
  timestamp : UInt64 := 0
  sampleRate : Int32 := 0
  channels : Int32 := 0
  valid : Bool := false
  userId : String := ""

def maxAudioFrameSize : Nat := 10 * 1024 * 1024

/-- `onAudioFrame` が、ロックを取る前に作るフレーム。 -/
def AudioFrame.build (targetUsers : List String) (s : AudioSource) : Option AudioFrame :=
  if Message.shouldRecordUser targetUsers s.userId then
    match s.audioBuffer with
    | none => none
    | some audioBuffer =>
        if s.samples ≤ 0 ∨ s.sampleRate ≤ 0 ∨ s.channels ≤ 0 ∨ 8 < s.channels then none
        else
          let dataSize := s.samples.toInt.toNat * s.channels.toInt.toNat * 2
          if maxAudioFrameSize < dataSize then none
          else some
            { data := audioBuffer.take dataSize, timestamp := s.timestamp, sampleRate := s.sampleRate
              channels := s.channels, valid := true, userId := s.userId }
  else none

/-- `src/common/ffmpeg_utils.cpp` の `validateYUVBuffers`。 -/
def validateYUVBuffers (s : Media.YuvSource) : Bool :=
  let chromaWidth := (s.width + 1) / 2
  s.yBuffer.isSome && s.uBuffer.isSome && s.vBuffer.isSome && s.width ≠ 0 && s.height ≠ 0 &&
    s.width.toInt32 ≤ s.yStride && chromaWidth.toInt32 ≤ s.uStride && chromaWidth.toInt32 ≤ s.vStride

/-- `onVideoFrame` が、ロックを取る前に作るフレーム。 -/
def buildVideo (targetUsers : List String) (allocated : Bool) (s : Media.YuvSource) : Option Media.VideoFrame :=
  if Message.shouldRecordUser targetUsers s.userId && validateYUVBuffers s then
    match Media.VideoFrame.initializeFromYUV {} allocated s with
    | (true, frame) => some frame
    | (false, _) => none
  else none

/-- 一つのトラックの定数。 -/
structure Config (I F : Type) where
  track : RecordingSink.Track
  /-- `recordAudio` か `recordVideo`。 -/
  record : Bool
  /-- `audioBufferSize` か `videoBufferSize` を `size_t` と読んだ値。 -/
  bufferSize : Nat
  build : I → Option F
  valid : F → Bool

/-- 音声のトラック。 -/
def audio (record : Bool) (bufferSize : Nat) (targetUsers : List String) : Config AudioSource AudioFrame :=
  ⟨.audio, record, bufferSize, AudioFrame.build targetUsers, AudioFrame.valid⟩

/-- 映像のトラック。引数には、フレームのメモリを確保できたことを添える。 -/
def video (record : Bool) (bufferSize : Nat) (targetUsers : List String) :
    Config (Bool × Media.YuvSource) Media.VideoFrame :=
  ⟨.video, record, bufferSize, fun i => buildVideo targetUsers i.1 i.2, Media.VideoFrame.valid⟩

/-! ## スレッドの段階 -/

/-- フレームを渡すスレッド。 -/
inductive Producer (F : Type) where
  | idle
  /-- フレームを作り、ロックを取ろうとする。 -/
  | entering (frame : F)
  /-- ロックを取り、録画していることを確かめた。 -/
  | checked (frame : F)
  /-- フレームを入れてロックを放した。まだ `notify_one` をしていない。 -/
  | notifying

/-- フレームを処理するスレッド。`last` は、`stopRequested_` を見た後であることを表す。 -/
inductive Consumer (F : Type) where
  /-- `while` の条件を調べる。 -/
  | top
  /-- 待つ条件を調べるために、ロックを取ろうとする。 -/
  | locking
  /-- ロックを取り、待つ条件が偽であった。 -/
  | dozing
  /-- ロックを放して待つ。 -/
  | asleep
  /-- `processVideoFrames` の入口。 -/
  | entering
  /-- ロックを取って、フレームを一つ取り出そうとする。 -/
  | popping (last : Bool)
  | encoding (last : Bool) (frame : F)
  | ended

/-- `stopRequested_` を立てるスレッド。 -/
inductive Stop where
  | idle
  | requested
  /-- `wakeProcessingThreads` を終えた。 -/
  | woken
  /-- 処理のスレッドを `join` した。 -/
  | joined
  /-- 待ち行列を空にした。 -/
  | cleared
  /-- `isRecording_` を下ろした。 -/
  | finished
  deriving DecidableEq

/-- ミューテックスを持つスレッド。 -/
inductive Holder where
  | producer (i : Nat)
  | consumer
  deriving DecidableEq

/-- 後ろの四つは、フレームの履歴である。 -/
structure State (F : Type) where
  isRecording : Bool := true
  stopRequested : Bool := false
  holder : Option Holder := none
  queue : List F := []
  producers : Nat → Producer F := fun _ => .idle
  consumer : Consumer F := .top
  stops : Nat → Stop := fun _ => .idle
  /-- 待ち行列に入れた。 -/
  accepted : List F := []
  /-- エンコーダーに渡した。 -/
  encoded : List F := []
  /-- 待ち行列が一杯で捨てた。 -/
  overflowed : List F := []
  /-- 取り出したが渡さなかったか、`stop` が空にした。 -/
  discarded : List F := []

inductive Op (I : Type) where
  /-- スレッド `i` が `onAudioFrame` か `onVideoFrame` を呼ぶ。 -/
  | onFrame (i : Nat) (input : I)
  | produce (i : Nat)
  | consume
  /-- 待つスレッドが、理由なく目を覚ます。 -/
  | spurious
  /-- `wait_for` の時間が過ぎる。 -/
  | timeout
  | requestStop (j : Nat)
  | stop (j : Nat)

variable {I F : Type} (config : Config I F)

namespace State

def isActive (s : State F) : Bool := s.isRecording && !s.stopRequested

def setProducer (s : State F) (i : Nat) (p : Producer F) : State F := { s with producers := update s.producers i p }

def setStop (s : State F) (j : Nat) (p : Stop) : State F := { s with stops := update s.stops j p }

/-- `notify_one` と `notify_all`。待つのは、処理のスレッドだけである。 -/
def notify (s : State F) : State F :=
  match s.consumer with
  | .asleep => { s with consumer := .locking }
  | _ => s

/-- 待つ条件。 -/
def ready (s : State F) : Bool := s.stopRequested || !s.queue.isEmpty

/-- 一杯ならば古いフレームを捨て、新しいフレームを入れる。 -/
def push (s : State F) (frame : F) : State F :=
  { s with
    queue := (trim config.bufferSize s.queue).2 ++ [frame]
    overflowed := s.overflowed ++ (trim config.bufferSize s.queue).1
    accepted := s.accepted ++ [frame] }

def stepProducer (s : State F) (i : Nat) : State F :=
  match s.producers i with
  | .idle => s
  | .entering frame =>
      if s.holder.isNone then
        if s.isActive && config.record then { s.setProducer i (.checked frame) with holder := some (.producer i) }
        else s.setProducer i .idle
      else s
  | .checked frame => { (s.push config frame).setProducer i .notifying with holder := none }
  | .notifying => s.notify.setProducer i .idle

/-- 待つ条件が成り立った後の段階。 -/
def woken : Consumer F :=
  match config.track with
  | .audio => .popping false
  | .video => .entering

/-- `processAudioFrames` か `processVideoFrames` から戻った後の段階。 -/
def afterRound (last : Bool) : Consumer F := if last then .ended else .top

/-- フレームを取り出すのをやめる。 -/
def stopsEarly (s : State F) : Bool := config.track = .video && s.stopRequested

def stepConsumer (s : State F) : State F :=
  match s.consumer with
  | .top =>
      if s.stopRequested then
        { s with consumer := match config.track with
          | .audio => .popping true
          | .video => .ended }
      else { s with consumer := .locking }
  | .locking =>
      if s.holder.isNone then
        if s.ready then { s with consumer := woken config }
        else { s with consumer := .dozing, holder := some .consumer }
      else s
  | .dozing => { s with consumer := .asleep, holder := none }
  | .asleep => s
  | .entering => { s with consumer := if s.stopRequested then .top else .popping false }
  | .popping last =>
      if s.holder.isNone then
        match s.queue with
        | [] => { s with consumer := afterRound last }
        | frame :: queue =>
            if s.stopsEarly config then { s with consumer := afterRound last }
            else { s with consumer := .encoding last frame, queue }
      else s
  | .encoding last frame =>
      if config.valid frame && !s.stopsEarly config then
        { s with consumer := .popping last, encoded := s.encoded ++ [frame] }
      else { s with consumer := .popping last, discarded := s.discarded ++ [frame] }
  | .ended => s

/-- `stop` の一歩。`join` の後は、`stop` だけが行う。 -/
def stepStop (s : State F) (j : Nat) : State F :=
  match s.stops j with
  | .idle | .finished => s
  | .requested => if s.holder.isNone then s.notify.setStop j .woken else s
  | .woken =>
      match s.consumer with
      | .ended => s.setStop j .joined
      | _ => s
  | .joined =>
      if s.holder.isNone then
        { s.setStop j .cleared with queue := [], discarded := s.discarded ++ s.queue }
      else s
  | .cleared => { s.setStop j .finished with isRecording := false }

def step : Op I → State F → State F
  | .onFrame i input, s =>
      match s.producers i, config.build input with
      | .idle, some frame => if s.isActive then s.setProducer i (.entering frame) else s
      | _, _ => s
  | .produce i, s => s.stepProducer config i
  | .consume, s => s.stepConsumer config
  | .spurious, s => s.notify
  | .timeout, s =>
      match s.consumer with
      | .asleep => if config.track = .audio ∧ s.holder = none then { s with consumer := .popping false } else s
      | _ => s
  | .requestStop j, s =>
      match s.stops j with
      | .idle => { s.setStop j .requested with stopRequested := true }
      | _ => s
  | .stop j, s => s.stepStop j

/-- `start` が終わったときの状態。録らないトラックには、処理のスレッドがない。 -/
def started : State F := { consumer := if config.record then .top else .ended }

end State

/-- 一つのトラックの待ち行列。 -/
def queues : System (Op I) := ⟨State F, State.step config⟩

end RtcEgress.Sink.FrameQueues
