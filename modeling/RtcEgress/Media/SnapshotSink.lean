import RtcEgress.Lib.Prog
import RtcEgress.Media.LayoutDetector

/-!
# `src/snapshot_sink.cpp` と `src/video_compositor.cpp` のスレッド

SDK のスレッドが呼ぶ `onVideoFrame`、配置を調べるスレッド、静止画を保存するスレッドを、ロックと共有の変数への命令を
一つずつ出すプログラムとして写す。ロックの中の読み書きは、まとめて一つの命令にする。画素の合成は、フレームの有無と
時刻だけを残す。
-/

namespace RtcEgress.Media

open RtcEgress.Lib

inductive Mutex where
  /-- `SnapshotSink::frameMutex_` -/
  | frameMutex
  /-- `VideoCompositor::frameBufferMutex_` -/
  | frameBufferMutex
  /-- `LayoutDetector::mutex_` -/
  | detectorMutex
  deriving DecidableEq

inductive Mode where
  | individual | composite
  deriving DecidableEq

/-! ## 状態 -/

structure VideoCompositor.Config where
  frameTimeoutMs : Nat := 2000
  minCompositeIntervalMs : Nat := 16

structure UserFrameInfo where
  timestamp : Nat
  receivedTime : Nat

structure VideoCompositor where
  config : VideoCompositor.Config
  frameBuffer : AList fun _ : String => UserFrameInfo := ∅
  lastCompositeTime : Nat

namespace VideoCompositor

def storeFrame (v : VideoCompositor) (userId : String) (timestamp receivedTime : Nat) : VideoCompositor :=
  { v with frameBuffer := v.frameBuffer.insert userId ⟨timestamp, receivedTime⟩ }

def cleanupOldFramesWithoutLock (v : VideoCompositor) (currentTime : Nat) : VideoCompositor :=
  let old := v.frameBuffer.entries.filter fun e => v.config.frameTimeoutMs < elapsed currentTime e.2.receivedTime
  { v with frameBuffer := old.foldl (fun buffer e => buffer.erase e.1) v.frameBuffer }

def usersWithFrames (v : VideoCompositor) (activeUsers : List String) : List String :=
  activeUsers.filter fun userId => (v.frameBuffer.lookup userId).isSome

/-- 合成した画面の時刻。 -/
def latestRtcTimestamp (v : VideoCompositor) : Nat := v.frameBuffer.entries.foldl (fun t e => max t e.2.timestamp) 0

end VideoCompositor

structure SnapshotSink.Config where
  intervalInMs : Int := 20000
  targetUsers : List String := []
  mode : Mode
  compositor : VideoCompositor.Config := {}
  detector : LayoutDetector.Config := {}

/-- 保存を待つフレーム。 -/
structure FrameData where
  timestamp : Nat
  userId : String

/-- 三つのスレッドが共有する状態。 -/
structure State where
  steadyMs : Nat
  systemMs : Nat
  locked : Mutex → Bool
  isCapturing : Bool
  stopRequested : Bool
  lastSnapshotTimeMs : Int
  currentFrame : Option FrameData
  initialized : Bool
  compositorStopRequested : Bool
  compositor : VideoCompositor
  running : Bool
  detector : LayoutDetector

/-- 部品を初期化し、保存を始めた状態。 -/
def State.init (config : SnapshotSink.Config) (steadyMs systemMs : Nat) : State where
  steadyMs
  systemMs
  locked := fun _ => false
  isCapturing := true
  stopRequested := false
  lastSnapshotTimeMs := 0
  currentFrame := none
  initialized := true
  compositorStopRequested := false
  compositor := { config := config.compositor, lastCompositeTime := steadyMs % 2 ^ 64 }
  running := true
  detector := .init config.detector (steadyMs % 2 ^ 64)

/-! ## 命令 -/

inductive Cmd where
  | lock (m : Mutex)
  | unlock (m : Mutex)
  | steadyNow
  | systemNow
  | isCapturing
  | stopRequested
  | lastSnapshotTimeMs
  | setLastSnapshotTimeMs (t : Int)
  | currentFrameValid
  | setCurrentFrame (frame : FrameData)
  | takeCurrentFrame
  | makeFrame
  | saveFrame (frame : FrameData)
  | initialized
  | compositorStopRequested
  | storeFrame (userId : String) (timestamp receivedTime : Nat)
  | cleanupOldFrames (currentTime : Nat)
  | lastCompositeTime
  | frameBufferEmpty
  | usersWithFrames (activeUsers : List String)
  | makeWritable
  | finishComposite (currentTime : Nat)
  | running
  | recordFrame (userId : String) (timestamp : Nat)
  | userIds
  | updateUser (userId : String) (currentTime stableTime : Nat)
  | removeLeft (currentTime : Nat)
  | lastLayoutChangeMs
  | shouldIncludeInLayout (userId : String) (currentTime : Nat)
  | changeLayout (newLayout : List String) (currentTime : Nat)

abbrev Cmd.Resp : Cmd → Type
  | .steadyNow | .systemNow | .lastCompositeTime | .finishComposite _ | .lastLayoutChangeMs => Nat
  | .lastSnapshotTimeMs => Int
  | .isCapturing | .stopRequested | .currentFrameValid | .makeFrame | .saveFrame _ | .initialized
  | .compositorStopRequested | .frameBufferEmpty | .makeWritable | .running | .shouldIncludeInLayout _ _
  | .changeLayout _ _ => Bool
  | .takeCurrentFrame => Option FrameData
  | .usersWithFrames _ | .recordFrame _ _ | .userIds => List String
  | _ => Unit

/-- 命令の応答と、その後の状態。外の部品の成否は `ok` で与える。ロックは、空いているときにだけ取れる。 -/
def Cmd.exec (ok : Bool) (c : Cmd) (s : State) : Option (c.Resp × State) :=
  match c with
  | .lock m => if s.locked m then none else some ((), { s with locked := Function.update s.locked m true })
  | .unlock m => some ((), { s with locked := Function.update s.locked m false })
  | .steadyNow => some (s.steadyMs % 2 ^ 64, s)
  | .systemNow => some (s.systemMs, s)
  | .isCapturing => some (s.isCapturing, s)
  | .stopRequested => some (s.stopRequested, s)
  | .lastSnapshotTimeMs => some (s.lastSnapshotTimeMs, s)
  | .setLastSnapshotTimeMs t => some ((), { s with lastSnapshotTimeMs := t })
  | .currentFrameValid => some (s.currentFrame.isSome, s)
  | .setCurrentFrame frame => some ((), { s with currentFrame := some frame })
  | .takeCurrentFrame => some (s.currentFrame, { s with currentFrame := none })
  | .makeFrame => some (ok, s)
  | .saveFrame _ => some (ok, s)
  | .initialized => some (s.initialized, s)
  | .compositorStopRequested => some (s.compositorStopRequested, s)
  | .storeFrame userId timestamp receivedTime =>
      some ((), { s with compositor := s.compositor.storeFrame userId timestamp receivedTime })
  | .cleanupOldFrames t => some ((), { s with compositor := s.compositor.cleanupOldFramesWithoutLock t })
  | .lastCompositeTime => some (s.compositor.lastCompositeTime, s)
  | .frameBufferEmpty => some (s.compositor.frameBuffer.entries.isEmpty, s)
  | .usersWithFrames activeUsers => some (s.compositor.usersWithFrames activeUsers, s)
  | .makeWritable => some (ok, s)
  | .finishComposite t =>
      some (s.compositor.latestRtcTimestamp, { s with compositor := { s.compositor with lastCompositeTime := t } })
  | .running => some (s.running, s)
  | .recordFrame userId timestamp =>
      let (users, detector) := s.detector.recordFrame userId timestamp
      some (users, { s with detector })
  | .userIds => some (s.detector.userIds, s)
  | .updateUser userId currentTime stableTime =>
      some ((), { s with detector := s.detector.updateUser userId currentTime stableTime })
  | .removeLeft t => some ((), { s with detector := s.detector.removeLeft t })
  | .lastLayoutChangeMs => some (s.detector.lastLayoutChangeMs, s)
  | .shouldIncludeInLayout userId t =>
      some (((s.detector.users.lookup userId).map fun user =>
        LayoutDetector.shouldIncludeInLayout s.detector.config user t).getD false, s)
  | .changeLayout newLayout t =>
      let (changed, detector) := s.detector.changeLayout newLayout t
      some (changed, { s with detector })

abbrev P (α : Type) := Prog Cmd Cmd.Resp α

abbrev perform (c : Cmd) : P c.Resp := Prog.perform c

abbrev lock (m : Mutex) : P Unit := perform (.lock m)

abbrev unlock (m : Mutex) : P Unit := perform (.unlock m)

/-! ## 合成したフレームの受け取り -/

/-- 前の保存から間もなければ、何もしない。 -/
def onComposedFrame (config : SnapshotSink.Config) (pts : Nat) : P Unit := do
  let capturing : Bool ← perform .isCapturing
  if !capturing then return
  let currentTimeMs : Nat ← perform .systemNow
  lock .frameMutex
  let last : Int ← perform .lastSnapshotTimeMs
  if currentTimeMs - last < config.intervalInMs then unlock .frameMutex
  else
    let ok : Bool ← perform .makeFrame
    if ok then perform (.setCurrentFrame ⟨pts, "composed"⟩)
    unlock .frameMutex

/-! ## 合成 -/

def createCompositeFrameWithoutLock (config : SnapshotSink.Config) (activeUsers : List String) : P Bool := do
  let initialized : Bool ← perform .initialized
  let empty : Bool ← perform .frameBufferEmpty
  let stop : Bool ← perform .compositorStopRequested
  if !initialized || empty || stop then return false
  let stop : Bool ← perform .compositorStopRequested
  if stop then return false
  let currentTime : Nat ← perform .steadyNow
  let usersWithFrames : List String ← perform (.usersWithFrames activeUsers)
  if usersWithFrames = [] then return true
  let writable : Bool ← perform .makeWritable
  if !writable then return false
  let pts : Nat ← perform (.finishComposite currentTime)
  onComposedFrame config pts
  return true

/-- 呼び出したスレッドが渡す時刻で、利用者のフレームを数える。 -/
def onUserFrame (userId : String) (timestamp : Nat) : P (List String) := do
  let running : Bool ← perform .running
  if !running then return []
  if userId = "" then return []
  lock .detectorMutex
  let activeUsers : List String ← perform (.recordFrame userId timestamp)
  unlock .detectorMutex
  return activeUsers

def addUserFrame (config : SnapshotSink.Config) (userId : String) (timestamp : Nat) : P Bool := do
  let initialized : Bool ← perform .initialized
  let stop : Bool ← perform .compositorStopRequested
  if !initialized || stop then return false
  let currentTime : Nat ← perform .steadyNow
  let stop : Bool ← perform .compositorStopRequested
  if stop then return false
  let activeUsers ← onUserFrame userId currentTime
  lock .frameBufferMutex
  perform (.storeFrame userId timestamp currentTime)
  let cleanupTime : Nat ← perform .steadyNow
  perform (.cleanupOldFrames cleanupTime)
  let last : Nat ← perform .lastCompositeTime
  if config.compositor.minCompositeIntervalMs ≤ elapsed currentTime last then
    let result ← createCompositeFrameWithoutLock config activeUsers
    unlock .frameBufferMutex
    return result
  else
    unlock .frameBufferMutex
    return true

/-! ## SDK のスレッド -/

/-- `onVideoFrame` の引数。`buffers` は、三つの面がすべて渡されたことである。 -/
structure YuvFrame where
  buffers : Bool := true
  yStride : Int
  uStride : Int
  vStride : Int
  width : Nat
  height : Nat
  timestamp : Nat
  userId : String

def shouldCaptureUser (config : SnapshotSink.Config) (userId : String) : Bool :=
  config.targetUsers = [] || userId ∈ config.targetUsers

def YuvFrame.isValid (f : YuvFrame) : Bool :=
  f.buffers && f.width ≠ 0 && f.height ≠ 0 && 0 < f.yStride && 0 < f.uStride && 0 < f.vStride &&
    f.width ≤ f.yStride && (f.width / 2 : Nat) ≤ f.uStride && (f.width / 2 : Nat) ≤ f.vStride

def onVideoFrame (config : SnapshotSink.Config) (f : YuvFrame) : P Unit := do
  let capturing : Bool ← perform .isCapturing
  if !capturing || !shouldCaptureUser config f.userId || !f.isValid then return
  let currentTimeMs : Nat ← perform .systemNow
  lock .frameMutex
  let last : Int ← perform .lastSnapshotTimeMs
  if currentTimeMs - last < config.intervalInMs then unlock .frameMutex
  else
    let ok : Bool ← perform .makeFrame
    if !ok then unlock .frameMutex
    else match config.mode with
      | .composite =>
          let _ ← addUserFrame config f.userId f.timestamp
          unlock .frameMutex
      | .individual =>
          perform (.setCurrentFrame ⟨f.timestamp, f.userId⟩)
          unlock .frameMutex

/-! ## 配置を調べるスレッド -/

/-- 配置が変わると、すぐに合成する。 -/
def onLayoutChange (config : SnapshotSink.Config) (activeUsers : List String) : P Unit := do
  let initialized : Bool ← perform .initialized
  if initialized ∧ activeUsers ≠ [] then
    lock .frameBufferMutex
    let _ ← createCompositeFrameWithoutLock config activeUsers
    unlock .frameBufferMutex
  else return ()

def updateUserStates : P Unit := do
  let running : Bool ← perform .running
  if !running then return
  lock .detectorMutex
  let currentTime : Nat ← perform .steadyNow
  let ids : List String ← perform .userIds
  Prog.forEach (fun userId => do
    let stableTime : Nat ← perform .steadyNow
    perform (.updateUser userId currentTime stableTime)) ids
  perform (.removeLeft currentTime)
  unlock .detectorMutex

/-- 配置に入れる利用者。一人ごとに時刻を読む。 -/
def collectLayout : List String → P (List String)
  | [] => return []
  | userId :: ids => do
      let t : Nat ← perform .steadyNow
      let included : Bool ← perform (.shouldIncludeInLayout userId t)
      let rest ← collectLayout ids
      return if included then userId :: rest else rest

def checkLayoutChange (config : SnapshotSink.Config) : P Unit := do
  let running : Bool ← perform .running
  if !running then return
  lock .detectorMutex
  let currentTime : Nat ← perform .steadyNow
  let last : Nat ← perform .lastLayoutChangeMs
  if elapsed currentTime last < config.detector.layoutStabilityMs then unlock .detectorMutex
  else
    let ids : List String ← perform .userIds
    let collected ← collectLayout ids
    let newLayout := collected.insertionSort (· ≤ ·)
    let changed : Bool ← perform (.changeLayout newLayout currentTime)
    if changed then onLayoutChange config newLayout
    unlock .detectorMutex

/-- `n` 回までの繰り返し。 -/
def detectionThread (config : SnapshotSink.Config) : Nat → P Unit
  | 0 => return ()
  | n + 1 => do
      let running : Bool ← perform .running
      if !running then return
      updateUserStates
      checkLayoutChange config
      detectionThread config n

/-! ## 保存するスレッド -/

/-- フレームか停止を、`n` 回まで起こされて待つ。待つ間は `frameMutex_` を放す。待ち続けるときは `false` を返す。 -/
def waitFrame : Nat → P Bool
  | 0 => do
      unlock .frameMutex
      return false
  | n + 1 => do
      let valid : Bool ← perform .currentFrameValid
      let stop : Bool ← perform .stopRequested
      if valid || stop then return true
      unlock .frameMutex
      lock .frameMutex
      waitFrame n

def captureThread (wakeups : Nat) : Nat → P Unit
  | 0 => return ()
  | n + 1 => do
      let stop : Bool ← perform .stopRequested
      if stop then return
      lock .frameMutex
      let ready ← waitFrame wakeups
      if !ready then return
      let stop : Bool ← perform .stopRequested
      if stop then unlock .frameMutex
      else
        let frameToSave : Option FrameData ← perform .takeCurrentFrame
        unlock .frameMutex
        match frameToSave with
        | none => captureThread wakeups n
        | some frame =>
            let msSinceEpoch : Nat ← perform .systemNow
            let saved : Bool ← perform (.saveFrame frame)
            if saved then perform (.setLastSnapshotTimeMs msSinceEpoch)
            captureThread wakeups n

/-! ## 全体 -/

inductive Call where
  | onVideoFrame (f : YuvFrame)
  | detectionThread (n : Nat)
  | captureThread (wakeups n : Nat)

def Call.body (config : SnapshotSink.Config) : Call → P Unit
  | .onVideoFrame f => Media.onVideoFrame config f
  | .detectionThread n => Media.detectionThread config n
  | .captureThread wakeups n => Media.captureThread wakeups n

/-- 時間の経過と、`SnapshotSink::stop` の書き込み。 -/
inductive Env where
  | tick (steady system : Nat)
  | requestStop
  | endCapture

def Env.apply (s : State) : Env → State
  | .tick steady system => { s with steadyMs := s.steadyMs + steady, systemMs := s.systemMs + system }
  | .requestStop => { s with stopRequested := true }
  | .endCapture => { s with isCapturing := false }

def machine (config : SnapshotSink.Config) : Machine Cmd Cmd.Resp where
  State := State
  Oracle := Bool
  exec := Cmd.exec
  Env := Env
  env := fun e s => some (e.apply s)
  Call := Call
  body := Call.body config

end RtcEgress.Media
