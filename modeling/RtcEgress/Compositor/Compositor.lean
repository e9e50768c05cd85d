import RtcEgress.Compositor.Scaling
import RtcEgress.Lib.Painter
import RtcEgress.Media.LayoutDetector

/-!
# `src/video_compositor.cpp` の状態と合成

`frameBufferMutex_` を持っている間に行うことを、状態の関数として写す。`sws_scale` は引数とする。縮尺の文脈は、元と先の
大きさを鍵に含むので、結果には現れない。
-/

namespace RtcEgress.Compositor

open RtcEgress.Lib
open Media (elapsed)
open Worker (LayoutRegion)

/-! ## 状態 -/

structure VideoCompositor.Config extends Sink.VideoCompositor.Config where
  frameTimeoutMs : Nat := 2000
  preserveAspectRatio : Bool := true
  minCompositeIntervalMs : Nat := 16
  userOrder : List String := []

abbrev Picture := Plane → Int → Int → UInt8

/-- `valid()` である `VideoFrame`。 -/
structure VideoFrame where
  width : Nat
  height : Nat
  timestamp : Nat
  data : Picture
  width_range : 1 ≤ width ∧ width < 2 ^ 32
  height_range : 1 ≤ height ∧ height < 2 ^ 32

structure UserFrameInfo where
  frame : VideoFrame
  receivedTime : Nat

/-- 検出器と出力の枠は、`initialized` の間はいつもある。 -/
structure VideoCompositor where
  config : VideoCompositor.Config
  initialized : Bool := true
  stopRequested : Bool := false
  frameBuffer : AList fun _ : String => UserFrameInfo := ∅
  arrivalOrder : List String := []
  lastCompositeTime : Nat := 0
  hasCallback : Bool := true

structure Host where
  fl : FloatOps
  /-- `sws_scale` の結果。文脈か枠が得られなければ `none` である。 -/
  scale : VideoFrame → Int → Int → Option Picture
  /-- `av_frame_make_writable` が成功する。 -/
  writable : Bool

abbrev Canvas := Plane → Int × Int → UInt8

structure CompositeFrame where
  data : Canvas
  pts : Nat

def Plane.black : Plane → UInt8
  | .y => 0
  | .u | .v => 128

/-! ## 並べる順 -/

/-- 要求か、着いた順に挙がった利用者を先に、残りを後に並べる。 -/
def arrange (order usersWithFrames : List String) : List String :=
  usersWithFrames.foldl (fun ordered user => if user ∈ ordered then ordered else ordered ++ [user])
    (order.filter (· ∈ usersWithFrames))

namespace VideoCompositor

def usersWithFrames (s : VideoCompositor) (activeUsers : List String) : List String :=
  activeUsers.filter fun userId => (s.frameBuffer.lookup userId).isSome

def order (s : VideoCompositor) : List String :=
  if s.config.userOrder = [] then s.arrivalOrder else s.config.userOrder

/-- `calculateRegions` に渡す列。 -/
def ordered (s : VideoCompositor) (activeUsers : List String) : List String :=
  arrange s.order (s.usersWithFrames activeUsers)

/-! ## 合成 -/

def fillRegion (canvas : Canvas) (region : LayoutRegion) : Canvas := fun plane =>
  writeRows (canvas plane) (fillRect region plane) fun _ _ => plane.black

/-- 縮尺した画面を写す。面ごとに、画面の境を検査する。 -/
def copyScaled (s : VideoCompositor) (canvas : Canvas) (region : LayoutRegion) (info : ScaledFrameInfo) (scaled : Picture) :
    Canvas := fun plane =>
  let rect := copyRect region info plane
  if inCanvas s.config.outputWidth s.config.outputHeight plane rect then
    writeRows (canvas plane) rect fun x y => scaled plane x y
  else canvas plane

def scaleInfo (h : Host) (s : VideoCompositor) (frame : VideoFrame) (region : LayoutRegion) : ScaledFrameInfo :=
  calculateScaledFrameInfo h.fl s.config.preserveAspectRatio frame.width frame.height region.width region.height

def paintRegion (h : Host) (s : VideoCompositor) (usersWithFrames : List String) (canvas : Canvas) (region : LayoutRegion) :
    Canvas :=
  if region.width < 2 ∨ region.height < 2 then canvas
  else
    let canvas := if s.config.layout = "customized" then fillRegion canvas region else canvas
    if region.uid ∉ usersWithFrames then canvas
    else
      match s.frameBuffer.lookup region.uid with
      | none => canvas
      | some user =>
          let info := s.scaleInfo h user.frame region
          match h.scale user.frame info.scaledWidth info.scaledHeight with
          | none => canvas
          | some scaled => s.copyScaled canvas region info scaled

def latestRtcTimestamp (s : VideoCompositor) : Nat :=
  s.frameBuffer.entries.foldl (fun latest user => max latest user.2.frame.timestamp) 0

def regions (h : Host) (s : VideoCompositor) (activeUsers : List String) : List LayoutRegion :=
  calculateRegions s.config.toConfig (calculateOptimalLayout h.fl s.config.outputWidth s.config.outputHeight)
    (s.ordered activeUsers)

def canComposite (s : VideoCompositor) : Bool := s.initialized && !s.frameBuffer.entries.isEmpty && !s.stopRequested

/-- 戻り値、コールバックに渡す画面、後の状態。`currentTime` は、始めに読んだ時刻である。 -/
def createCompositeFrameWithoutLock (h : Host) (s : VideoCompositor) (activeUsers : List String) (currentTime : Nat) :
    Bool × Option CompositeFrame × VideoCompositor :=
  if !s.canComposite then (false, none, s)
  else if s.usersWithFrames activeUsers = [] then (true, none, s)
  else if !h.writable then (false, none, s)
  else
    let data := (s.regions h activeUsers).foldl (s.paintRegion h (s.usersWithFrames activeUsers)) fun plane _ => plane.black
    (true, some ⟨data, s.latestRtcTimestamp⟩, { s with lastCompositeTime := currentTime })

/-! ## フレームの出入り -/

def storeFrame (s : VideoCompositor) (userId : String) (frame : VideoFrame) (currentTime : Nat) : VideoCompositor :=
  { s with
    arrivalOrder := if userId ∈ s.arrivalOrder then s.arrivalOrder else s.arrivalOrder ++ [userId]
    frameBuffer := s.frameBuffer.insert userId ⟨frame, currentTime⟩ }

def cleanupOldFramesWithoutLock (s : VideoCompositor) (currentTime : Nat) : VideoCompositor :=
  { s with
    frameBuffer := s.frameBuffer.keys.foldl
      (fun buffer userId =>
        match buffer.lookup userId with
        | some user =>
            if s.config.frameTimeoutMs < elapsed currentTime user.receivedTime then buffer.erase userId else buffer
        | none => buffer)
      s.frameBuffer }

/-- 前の合成から、定めた間隔が過ぎたと見る。 -/
def intervalPassed (s : VideoCompositor) (currentTime : Nat) : Bool :=
  s.config.minCompositeIntervalMs ≤ elapsed currentTime s.lastCompositeTime

/-- ロックを取ってから、間隔を調べるまで。 -/
def receiveFrame (s : VideoCompositor) (userId : String) (frame : VideoFrame) (currentTime cleanupTime : Nat) :
    VideoCompositor :=
  (s.storeFrame userId frame currentTime).cleanupOldFramesWithoutLock cleanupTime

/-- `currentTime` はロックを取る前に、`cleanupTime` と `compositeTime` はロックの中で読んだ時刻である。 -/
def addUserFrame (h : Host) (s : VideoCompositor) (userId : String) (frame : VideoFrame) (activeUsers : List String)
    (currentTime cleanupTime compositeTime : Nat) : Bool × Option CompositeFrame × VideoCompositor :=
  if !s.initialized || s.stopRequested then (false, none, s)
  else
    let s := s.receiveFrame userId frame currentTime cleanupTime
    if s.intervalPassed currentTime then s.createCompositeFrameWithoutLock h activeUsers compositeTime
    else (true, none, s)

/-- `onLayoutChange` が合成を呼ぶ。 -/
def layoutComposes (s : VideoCompositor) (activeUsers : List String) : Bool :=
  s.initialized && !activeUsers.isEmpty && s.hasCallback

def onLayoutChange (h : Host) (s : VideoCompositor) (activeUsers : List String) (compositeTime : Nat) :
    Option CompositeFrame × VideoCompositor :=
  if s.layoutComposes activeUsers then (s.createCompositeFrameWithoutLock h activeUsers compositeTime).2 else (none, s)

def removeUser (s : VideoCompositor) (userId : String) : VideoCompositor :=
  { s with frameBuffer := s.frameBuffer.erase userId }

def clearAllUsers (s : VideoCompositor) : VideoCompositor := { s with frameBuffer := ∅, arrivalOrder := [] }

end VideoCompositor

end RtcEgress.Compositor
