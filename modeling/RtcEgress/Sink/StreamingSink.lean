import RtcEgress.Lib.Alone
import RtcEgress.Sink.StreamingOutput

/-!
# `src/streaming_sink.cpp` の配信のスレッド

`run` と、それが呼ぶ `openSession`、`reconnect`、`encodeAudio` を、他のスレッドも触れる変数への命令を一つずつ出す
プログラムとして写す。配信のスレッドだけが触れる変数は、プログラムの引数として渡す。符号化器、ミキサー、出力の結果は、
命令の応答としてどのようにも決まる。停止、失敗、合成したフレーム、時間の経過は、命令の間にどの順にも挟まる。
-/

namespace RtcEgress.Sink.StreamingSink

open RtcEgress.Lib

/-- `initialize` が受け入れた設定。 -/
structure Initialized (muxer : Protocol → Bool) where
  config : StreamingSink.Config
  taskId : String
  valid : StreamingSink.validate muxer config = true

/-! ## 状態 -/

/-- 他のスレッドも触れる変数。時刻は単調な時計のミリ秒である。 -/
structure State where
  stopping : Bool
  failed : Bool
  reconnecting : Bool
  active : Bool
  callback : Option Nat
  pendingVideo : Option Int
  now : Int
  taskDeadline : Int

/-- 配信のスレッドだけが触れる変数。 -/
structure Publisher where
  outputFailed : Bool := false
  hasOrigin : Bool := false
  originMs : Int := 0
  lastVideoPts : Int := -1
  nextAudioPts : Option Int := none
  failureMessage : String := "Streaming media processing failed"

/-- `start` がスレッドを作ったときの状態。 -/
def State.started (config : StreamingSink.Config) (callback : Option Nat) (now : Int) : State where
  stopping := false
  failed := false
  reconnecting := false
  active := true
  callback
  pendingVideo := none
  now
  taskDeadline := now + config.maxDurationSeconds * 1000

def State.durationReached (s : State) : Bool := s.taskDeadline ≤ s.now

/-! ## 命令 -/

/-- 終わりの条件を読む場所。 -/
inductive Place where
  | openSession | reconnect | run
  /-- 完了を通知するかを決める。 -/
  | final
  /-- 通知の引数の `status` と `message`。 -/
  | status | message
  deriving DecidableEq

inductive Track where
  | video | audio
  deriving DecidableEq

/-- 符号化器が一つのフレームから作るパケットの数と、最後のエラーの有無。 -/
structure Encoded where
  packets : Nat
  ok : Bool

/-- ミキサーが渡す音声の時刻と、最後まで渡したときの結果。 -/
structure Drained where
  timestamps : List Int
  ok : Bool

inductive Cmd where
  | stopping (place : Place)
  | failed (place : Place)
  | durationReached (place : Place)
  | setFailed
  | setReconnecting (b : Bool)
  | setActive (b : Bool)
  | openVideo
  | openAudio
  | openOutput
  | resetMixer
  | closeOutput
  | releaseCodecs
  /-- `wait_until` の期限。 -/
  | waitUntil (delayMs : Int)
  | wake (limit : Int)
  /-- `wait_for` の期限。 -/
  | waitFor (delayMs : Int)
  | takeVideo (limit : Int)
  | encode (track : Track) (pts : Int)
  | allocFrame
  | getBuffer
  | write (track : Track)
  | drain
  | poll
  | getCallback
  | complete (callback : Nat) (taskId status message : String)
  deriving DecidableEq

abbrev Cmd.Resp : Cmd → Type
  | .stopping _ | .failed _ | .durationReached _ | .openVideo | .openAudio | .openOutput | .allocFrame | .getBuffer
  | .write _ | .poll => Bool
  | .waitUntil _ | .waitFor _ => Int
  | .takeVideo _ => Option Int
  | .encode _ _ => Encoded
  | .drain => Drained
  | .getCallback => Option Nat
  | _ => Unit

/-- 状態から決まらない応答。 -/
structure Outcome where
  ok : Bool := true
  encoded : Encoded := ⟨0, true⟩
  drained : Drained := ⟨[], true⟩

/-- 待っている間に、止められたか、失敗したか。 -/
def State.interrupted (s : State) : Bool := s.stopping || s.failed

def Cmd.exec (o : Outcome) (c : Cmd) (s : State) : Option (c.Resp × State) :=
  match c with
  | .stopping _ => some (s.stopping, s)
  | .failed _ => some (s.failed, s)
  | .durationReached _ => some (s.durationReached, s)
  | .setFailed => some ((), { s with failed := true })
  | .setReconnecting b => some ((), { s with reconnecting := b })
  | .setActive b => some ((), { s with active := b })
  | .openVideo | .openAudio | .openOutput | .allocFrame | .getBuffer | .write _ | .poll => some (o.ok, s)
  | .resetMixer | .closeOutput | .releaseCodecs | .complete _ _ _ _ => some ((), s)
  | .waitUntil delayMs => some (min s.taskDeadline (s.now + delayMs), s)
  | .wake limit => if s.interrupted || limit ≤ s.now then some ((), s) else none
  | .waitFor delayMs => some (s.now + delayMs, s)
  | .takeVideo limit =>
      if s.interrupted || s.pendingVideo.isSome || limit ≤ s.now then
        some (s.pendingVideo, { s with pendingVideo := none })
      else none
  | .encode _ _ => some (o.encoded, s)
  | .drain => some (o.drained, s)
  | .getCallback => some (s.callback, s)

/-- ほかのスレッドがすること。 -/
inductive Change where
  /-- `stop` -/
  | stop
  /-- フレームの複製か、ミキサーへの追加に失敗した。 -/
  | fail
  | composed (pts : Int)
  | setCompletionCallback (callback : Option Nat)
  | tick (ms : Nat)

def Change.apply : Change → State → State
  | .stop, s => { s with stopping := true }
  | .fail, s => { s with failed := true }
  | .composed pts, s => { s with pendingVideo := some pts }
  | .setCompletionCallback callback, s => { s with callback }
  | .tick ms, s => { s with now := s.now + ms }

abbrev P (α : Type) := Prog Cmd Cmd.Resp α

abbrev perform (c : Cmd) : P c.Resp := Prog.perform c

/-! ## 接続 -/

def openSession (x : Publisher) : P (Bool × Publisher) := do
  let x := { x with outputFailed := false }
  let stopping : Bool ← perform (.stopping .openSession)
  if stopping then return (false, x)
  let reached : Bool ← perform (.durationReached .openSession)
  if reached then return (false, x)
  let x := { x with hasOrigin := false, lastVideoPts := -1, nextAudioPts := none }
  let video : Bool ← perform .openVideo
  if !video then return (false, x)
  let audio : Bool ← perform .openAudio
  if !audio then return (false, x)
  let output : Bool ← perform .openOutput
  if !output then return (false, { x with outputFailed := true })
  perform .resetMixer
  return (true, x)

/-- `stopping_ || failed_ || durationReached()`。 -/
def ended (place : Place) : P Bool := do
  let stopping : Bool ← perform (.stopping place)
  if stopping then return true
  let failed : Bool ← perform (.failed place)
  if failed then return true
  perform (.durationReached place)

/-- `!stopping_ && !durationReached()`。 -/
def goesOn (place : Place) : P Bool := do
  let stopping : Bool ← perform (.stopping place)
  if stopping then return false
  let reached : Bool ← perform (.durationReached place)
  return !reached

/-- 残りの `remaining` 回を、`delayMs` から待って試す。 -/
def attempts : (remaining : Nat) → (delayMs : Int) → Publisher → P (Bool × Publisher)
  | 0, _, x => return (false, x)
  | remaining + 1, delayMs, x => do
      let limit : Int ← perform (.waitUntil delayMs)
      perform (.wake limit)
      let finished ← ended .reconnect
      if finished then return (false, x)
      let (opened, x) ← openSession x
      if opened then
        perform (.setReconnecting false)
        return (true, x)
      perform .closeOutput
      perform .releaseCodecs
      if !x.outputFailed then return (false, x)
      attempts remaining (min (delayMs * 2) 10000) x

def exhausted (config : StreamingSink.Config) : String :=
  "Streaming destination reconnect exhausted after " ++ toString config.reconnectAttempts ++ " attempts"

def restartFailed : String := "Streaming media encoder restart failed"

/-- 止められても、期限が来ても、失敗してもいなければ、理由を残して失敗とする。 -/
def giveUp (config : StreamingSink.Config) (x : Publisher) : P Publisher := do
  perform (.setReconnecting false)
  let goesOn ← goesOn .reconnect
  if !goesOn then return x
  let failed : Bool ← perform (.failed .reconnect)
  if failed then return x
  perform .setFailed
  return { x with failureMessage := if x.outputFailed then exhausted config else restartFailed }

def reconnect (config : StreamingSink.Config) (x : Publisher) : P (Bool × Publisher) := do
  perform (.setReconnecting true)
  perform .closeOutput
  perform .releaseCodecs
  let (opened, x) ← attempts config.reconnectAttempts.toNat config.reconnectDelayMs x
  if opened then return (true, x)
  let x ← giveUp config x
  return (false, x)

/-! ## 符号化 -/

/-- 映像の時刻の刻みは九十分の一ミリ秒、音声は四十八分の一ミリ秒である。 -/
def Track.ticksPerMs : Track → Int
  | .video => 90
  | .audio => 48

/-- 最初の時刻を起点とする。 -/
def Publisher.anchored (x : Publisher) (timestamp : Int) : Publisher :=
  if x.hasOrigin then x else { x with originMs := timestamp, hasOrigin := true }

def writePackets (track : Track) (ok : Bool) (x : Publisher) : Nat → P (Bool × Publisher)
  | 0 => return (ok, x)
  | packets + 1 => do
      let written : Bool ← perform (.write track)
      if !written then return (false, { x with outputFailed := true })
      writePackets track ok x packets

/-- `MediaEncoder::encode` に、書き込みを渡す。 -/
def encode (track : Track) (pts : Int) (x : Publisher) : P (Bool × Publisher) := do
  let encoded : Encoded ← perform (.encode track pts)
  writePackets track encoded.ok x encoded.packets

def encodeVideo (timestamp : Int) (x : Publisher) : P (Bool × Publisher) := do
  let x := x.anchored timestamp
  let pts := (timestamp - x.originMs) * Track.video.ticksPerMs
  let pts := max (if x.lastVideoPts < 0 then 0 else x.lastVideoPts + Track.video.ticksPerMs) pts
  encode .video pts { x with lastVideoPts := pts }

def nextAudio (x : Publisher) (timestamp : Int) : Int :=
  match x.nextAudioPts with
  | none => max 0 timestamp
  | some next => if next + 4800 < timestamp then max 0 timestamp else next

/-- `frameSize` は、音声の符号化器が決める大きさである。 -/
def encodeAudio (frameSize : Nat) (timestamp : Int) (x : Publisher) : P (Bool × Publisher) := do
  let x := x.anchored timestamp
  let pts := nextAudio x ((timestamp - x.originMs) * Track.audio.ticksPerMs)
  let frame : Bool ← perform .allocFrame
  if !frame then return (false, { x with nextAudioPts := some pts })
  let x := { x with nextAudioPts := some (pts + frameSize) }
  let buffer : Bool ← perform .getBuffer
  if !buffer then return (false, x)
  encode .audio pts x

/-- ミキサーが渡す音声を順に符号化する。 -/
def encodeDrained (frameSize : Nat) (ok : Bool) (x : Publisher) : List Int → P (Bool × Publisher)
  | [] => return (ok, x)
  | timestamp :: timestamps => do
      let stopping : Bool ← perform (.stopping .run)
      if stopping then return (false, x)
      let (encoded, x) ← encodeAudio frameSize timestamp x
      if !encoded then return (false, x)
      encodeDrained frameSize ok x timestamps

/-! ## 配信の繰り返し -/

/-- `!failed_ && !stopping_`。 -/
def running : P Bool := do
  let failed : Bool ← perform (.failed .run)
  if failed then return false
  let stopping : Bool ← perform (.stopping .run)
  return !stopping

def pumpVideo (frame : Option Int) (x : Publisher) : P (Bool × Publisher) :=
  match frame with
  | some timestamp => encodeVideo timestamp x
  | none => return (true, x)

def pumpAudio (frameSize : Nat) (mediaOk : Bool) (x : Publisher) : P (Bool × Publisher) := do
  if !mediaOk then return (mediaOk, x)
  let running ← running
  if !running then return (true, x)
  let drained : Drained ← perform .drain
  encodeDrained frameSize drained.ok x drained.timestamps

def pumpPoll (mediaOk : Bool) (x : Publisher) : P (Bool × Publisher) := do
  if !mediaOk then return (mediaOk, x)
  let running ← running
  if !running then return (true, x)
  let polled : Bool ← perform .poll
  if polled then return (true, x)
  return (false, { x with outputFailed := true })

/-- 出力が失敗したときは接続し直し、ほかの失敗では配信を終える。繰り返しを続けるかを返す。 -/
def recover (config : StreamingSink.Config) (mediaOk : Bool) (x : Publisher) : P (Bool × Publisher) := do
  if mediaOk then return (true, x)
  let goesOn ← goesOn .run
  if !goesOn then return (true, x)
  if x.outputFailed then reconnect config x
  else
    perform .setFailed
    return (true, x)

/-- 一回の繰り返し。 -/
def publishOnce (config : StreamingSink.Config) (frameSize : Nat) (x : Publisher) : P (Bool × Publisher) := do
  let finished ← ended .run
  if finished then return (false, x)
  let limit : Int ← perform (.waitFor 10)
  let frame : Option Int ← perform (.takeVideo limit)
  let stopping : Bool ← perform (.stopping .run)
  if stopping then return (false, x)
  let failed : Bool ← perform (.failed .run)
  if failed then return (false, x)
  let (mediaOk, x) ← pumpVideo frame x
  let (mediaOk, x) ← pumpAudio frameSize mediaOk x
  let (mediaOk, x) ← pumpPoll mediaOk x
  recover config mediaOk x

/-- `n` 回まで繰り返す。まだ続くときは `none` を返す。 -/
def publish (config : StreamingSink.Config) (frameSize : Nat) : Nat → Publisher → P (Option Publisher)
  | 0, _ => return none
  | n + 1, x => do
      let (again, x) ← publishOnce config frameSize x
      if again then publish config frameSize n x else return some x

/-- 最初の接続。できなければ、出力の失敗に限って接続し直す。 -/
def connect (config : StreamingSink.Config) (x : Publisher) : P (Bool × Publisher) := do
  let (connected, x) ← openSession x
  if connected || !x.outputFailed then return (connected, x)
  let goesOn ← goesOn .run
  if goesOn then reconnect config x else return (false, x)

/-- 通知の二つの引数。C++ はどちらを先に読むかを決めない。 -/
def completion (statusFirst : Bool) (x : Publisher) : P (String × String) := do
  if statusFirst then
    let failed : Bool ← perform (.failed .status)
    let failed' : Bool ← perform (.failed .message)
    return (if failed then "failed" else "success", if failed' then x.failureMessage else "Streaming duration reached")
  else
    let failed' : Bool ← perform (.failed .message)
    let failed : Bool ← perform (.failed .status)
    return (if failed then "failed" else "success", if failed' then x.failureMessage else "Streaming duration reached")

/-- `failed_ || durationReached()`。 -/
def reportable : P Bool := do
  let failed : Bool ← perform (.failed .final)
  if failed then return true
  perform (.durationReached .final)

/-- 登録された関数があれば、完了を通知する。 -/
def notify (taskId : String) (statusFirst : Bool) (x : Publisher) : Option Nat → P Unit
  | none => return
  | some callback => do
      let reportable ← reportable
      if !reportable then return
      let (status, message) ← completion statusFirst x
      perform (.complete callback taskId status message)

/-- 繰り返しのあと。 -/
def finish (taskId : String) (statusFirst : Bool) (x : Publisher) : P Unit := do
  perform .closeOutput
  perform .releaseCodecs
  perform (.setActive false)
  let callback : Option Nat ← perform .getCallback
  let stopping : Bool ← perform (.stopping .final)
  if stopping then return
  notify taskId statusFirst x callback

variable {muxer : Protocol → Bool}

/-- `n` 回まで繰り返して、終わったかを返す。 -/
def run (c : Initialized muxer) (frameSize : Nat) (statusFirst : Bool) (n : Nat) (x : Publisher) : P Bool := do
  let (connected, x) ← connect c.config x
  if connected then
    match ← publish c.config frameSize n x with
    | none => return false
    | some x =>
        finish c.taskId statusFirst x
        return true
  else
    let goesOn ← goesOn .run
    if goesOn then perform .setFailed
    finish c.taskId statusFirst x
    return true

abbrev machine (c : Initialized muxer) : Machine Cmd Cmd.Resp where
  State := State
  Oracle := Outcome
  exec := Cmd.exec
  Env := Change
  env e s := some (e.apply s)
  Call := Nat × Bool × Nat
  body k := run c k.1 k.2.1 k.2.2 {} >>= fun _ => pure ()

end RtcEgress.Sink.StreamingSink
