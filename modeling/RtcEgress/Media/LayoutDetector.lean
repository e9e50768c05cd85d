import Mathlib.Algebra.Group.Nat.Defs
import Mathlib.Data.List.AList
import Mathlib.Data.List.Sort

/-!
# `src/layout_detector.cpp` の状態

ロックを持っている間に行う読み書きを、状態の関数として写す。時刻は `uint64_t` のミリ秒で、引き算は 2^64 を法とする。
-/

namespace RtcEgress.Media

/-- `uint64_t` の引き算。 -/
def elapsed (now t : Nat) : Nat := (2 ^ 64 + now - t) % 2 ^ 64

inductive UserState where
  | joining | active | leaving | left
  deriving DecidableEq

structure UserInfo where
  state : UserState := .joining
  firstSeenMs : Nat
  lastFrameMs : Nat
  frameCount : Nat := 0
  hasRecentFrames : Bool := false

structure LayoutDetector.Config where
  userTimeoutMs : Nat := 5000
  layoutStabilityMs : Nat := 3000
  framePresenceTimeoutMs : Nat := 2000
  /-- 空なら、フレームを送る利用者をすべて数える。 -/
  expectedUsers : List String := []
  maxUsers : Nat := 25

structure LayoutDetector where
  config : LayoutDetector.Config
  users : AList fun _ : String => UserInfo
  currentLayout : List String := []
  lastLayoutChangeMs : Nat := 0

namespace LayoutDetector

/-- 期待する利用者は、始めから数える。 -/
def init (config : Config) (currentTime : Nat) : LayoutDetector where
  config
  users := config.expectedUsers.foldl
    (fun users userId => users.insert userId { firstSeenMs := currentTime, lastFrameMs := currentTime }) ∅

/-- `std::map` の列挙の順に並べた名前。 -/
def userIds (d : LayoutDetector) : List String := d.users.keys.insertionSort (· ≤ ·)

def getActiveUsersWithoutLock (d : LayoutDetector) : List String :=
  d.userIds.filter fun userId =>
    match d.users.lookup userId with
    | some user => user.state == .active || user.state == .joining
    | none => false

/-- 知らない利用者を受け入れるか。 -/
def accepts (d : LayoutDetector) (userId : String) : Bool :=
  if d.config.expectedUsers ≠ [] then userId ∈ d.config.expectedUsers else d.users.keys.length < d.config.maxUsers

def UserInfo.withFrame (user : UserInfo) (timestamp : Nat) : UserInfo :=
  match user.state with
  | .left => { firstSeenMs := timestamp, lastFrameMs := timestamp }
  | state =>
      { user with
        state := if state = .leaving then .active else state
        lastFrameMs := timestamp
        frameCount := user.frameCount + 1
        hasRecentFrames := true }

/-- `onUserFrame` がロックの中で行うこと。 -/
def recordFrame (d : LayoutDetector) (userId : String) (timestamp : Nat) : List String × LayoutDetector :=
  match d.users.lookup userId with
  | none =>
      if d.accepts userId then
        let d := { d with users := d.users.insert userId { firstSeenMs := timestamp, lastFrameMs := timestamp } }
        (d.getActiveUsersWithoutLock, d)
      else ([], d)
  | some user =>
      let d := { d with users := d.users.insert userId (UserInfo.withFrame user timestamp) }
      (d.getActiveUsersWithoutLock, d)

def isUserStable (config : Config) (user : UserInfo) (currentTime : Nat) : Bool :=
  config.layoutStabilityMs / 3 ≤ elapsed currentTime user.firstSeenMs && 5 ≤ user.frameCount &&
    elapsed currentTime user.lastFrameMs < config.framePresenceTimeoutMs

def shouldIncludeInLayout (config : Config) (user : UserInfo) (currentTime : Nat) : Bool :=
  user.state == .active || (user.state == .joining && isUserStable config user currentTime)

/-- 一人の状態の更新。`isUserStable` は、自分で読んだ時刻 `stableTime` を使う。 -/
def UserInfo.nextState (config : Config) (user : UserInfo) (currentTime stableTime : Nat) : UserState :=
  let hasRecentFrames := elapsed currentTime user.lastFrameMs < config.framePresenceTimeoutMs
  match user.state with
  | .joining =>
      if hasRecentFrames ∧ isUserStable config user stableTime then .active
      else if ¬hasRecentFrames ∧ config.userTimeoutMs < elapsed currentTime user.firstSeenMs then .left
      else .joining
  | .active => if hasRecentFrames then .active else .leaving
  | .leaving =>
      if hasRecentFrames then .active
      else if config.userTimeoutMs < elapsed currentTime user.lastFrameMs then .left
      else .leaving
  | .left => .left

def updateUser (d : LayoutDetector) (userId : String) (currentTime stableTime : Nat) : LayoutDetector :=
  match d.users.lookup userId with
  | none => d
  | some user =>
      let state := UserInfo.nextState d.config user currentTime stableTime
      { d with users := d.users.insert userId { user with state, hasRecentFrames := false } }

/-- 去ってから長い利用者を除く。 -/
def removeLeft (d : LayoutDetector) (currentTime : Nat) : LayoutDetector :=
  let gone := d.userIds.filter fun userId =>
    match d.users.lookup userId with
    | some user =>
        user.state == .left && d.config.userTimeoutMs * 2 % 2 ^ 64 < elapsed currentTime user.lastFrameMs
    | none => false
  { d with users := gone.foldl (fun users userId => users.erase userId) d.users }

/-- 配置が変わっていれば書き換える。 -/
def changeLayout (d : LayoutDetector) (newLayout : List String) (currentTime : Nat) : Bool × LayoutDetector :=
  if newLayout ≠ d.currentLayout then
    (true, { d with currentLayout := newLayout, lastLayoutChangeMs := currentTime })
  else (false, d)

end LayoutDetector

end RtcEgress.Media
