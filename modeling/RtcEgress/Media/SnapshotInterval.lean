import RtcEgress.Lib.Stamps
import RtcEgress.Lib.System
import RtcEgress.Media.VideoFrame

/-!
# 静止画の間隔

個別の方式の `src/snapshot_sink.cpp`。SDK のスレッドは、フレームを入れるときに、前の静止画の時刻から間隔が過ぎたことを調べる。
保存するスレッドは、フレームを取り出した後に時刻を読み、保存に成功してから、ロックを取らずにその時刻を記録する。
-/

namespace RtcEgress.Media.Snapshots

open RtcEgress.Lib

structure Config where
  intervalInMs : Int := 20000
  targetUsers : List String := []

/-- 保存を待つフレーム。最後の二つは、入れるときに読んだ時刻と、比べた記録である。 -/
structure FrameData where
  frame : VideoFrame
  timestamp : UInt64
  userId : String
  currentTimeMs : Int
  lastSnapshotTimeMs : Int

inductive Capture where
  | stopped
  | waiting
  | taken (frameToSave : FrameData)
  | stamped (frameToSave : FrameData) (msSinceEpoch : Int)

/-- `now` は戻らない時計、`calls` は `onVideoFrame` の中にいるスレッドと、その読んだ時刻、`savedAt` は、このセッションで保存した
静止画の時刻である。 -/
structure SnapshotSink where
  config : Config
  now : Int
  isCapturing : Bool := false
  stopRequested : Bool := false
  lastSnapshotTimeMs : Int := 0
  currentFrame : Option FrameData := none
  calls : Nat → Option (YuvSource × Int) := fun _ => none
  capture : Capture := .stopped
  savedAt : List Int := []

def shouldCaptureUser (config : Config) (userId : String) : Bool :=
  config.targetUsers.isEmpty || config.targetUsers.contains userId

/-- `onVideoFrame` の、引数の検査。 -/
def accepts (s : YuvSource) : Bool :=
  s.yBuffer.isSome && s.uBuffer.isSome && s.vBuffer.isSome &&
    !(s.width = 0 ∨ s.height = 0 ∨ s.yStride ≤ 0 ∨ s.uStride ≤ 0 ∨ s.vStride ≤ 0) &&
    !(s.yStride < s.width.toInt32 ∨ s.uStride < (s.width / 2).toInt32 ∨ s.vStride < (s.width / 2).toInt32)

/-- 動き。`saved` は、符号化とファイルへの書き込みの成否である。 -/
inductive Event where
  | tick (ms : Nat)
  | start
  | stop
  | onVideoFrame (thread : Nat) (source : YuvSource)
  | deliver (thread : Nat) (allocated : Bool)
  | take
  | stamp
  | finish (saved : Bool)
  | exit
  | join

namespace SnapshotSink

/-- `frameMutex_` を持つ間に行うこと。 -/
def deliver (s : SnapshotSink) (source : YuvSource) (currentTimeMs : Int) (allocated : Bool) : SnapshotSink :=
  if currentTimeMs - s.lastSnapshotTimeMs < s.config.intervalInMs then s
  else
    match ({} : VideoFrame).initializeFromYUV allocated source with
    | (true, frame) =>
        let queued := ⟨frame, source.timestamp, source.userId, currentTimeMs, s.lastSnapshotTimeMs⟩
        { s with currentFrame := some queued }
    | (false, _) => s

/-- できない動きは、何も変えない。 -/
def next (s : SnapshotSink) : Event → SnapshotSink
  | .tick ms => { s with now := s.now + ms }
  | .start =>
      match s.capture with
      | .stopped =>
          if s.isCapturing then s
          else { s with isCapturing := true, stopRequested := false, capture := .waiting, savedAt := [] }
      | _ => s
  | .stop => if s.isCapturing then { s with stopRequested := true } else s
  | .onVideoFrame thread source =>
      match s.calls thread with
      | none =>
          if s.isCapturing && shouldCaptureUser s.config source.userId && accepts source then
            { s with calls := Function.update s.calls thread (some (source, s.now)) }
          else s
      | some _ => s
  | .deliver thread allocated =>
      match s.calls thread with
      | none => s
      | some (source, currentTimeMs) =>
          { s.deliver source currentTimeMs allocated with calls := Function.update s.calls thread none }
  | .take =>
      match s.capture, s.currentFrame with
      | .waiting, some frame =>
          if s.stopRequested then s else { s with capture := .taken frame, currentFrame := none }
      | _, _ => s
  | .stamp =>
      match s.capture with
      | .taken frameToSave => { s with capture := .stamped frameToSave s.now }
      | _ => s
  | .finish saved =>
      match s.capture with
      | .stamped frameToSave msSinceEpoch =>
          if frameToSave.frame.valid && saved then
            { s with capture := .waiting, lastSnapshotTimeMs := msSinceEpoch, savedAt := s.savedAt ++ [msSinceEpoch] }
          else { s with capture := .waiting }
      | _ => s
  | .exit =>
      match s.capture with
      | .waiting => if s.stopRequested then { s with capture := .stopped } else s
      | _ => s
  | .join =>
      match s.capture with
      | .stopped => if s.stopRequested then { s with isCapturing := false } else s
      | _ => s

def init (config : Config) (now : Int) : SnapshotSink := { config, now }

end SnapshotSink

abbrev capturing : System Event where
  State := SnapshotSink
  step e s := s.next e

/-- 続けて保存した静止画の時刻は、間隔だけ離れている。 -/
def KeepsInterval (s : SnapshotSink) : Prop := s.savedAt.IsChain fun a b => a + s.config.intervalInMs ≤ b

instance (s : SnapshotSink) : Decidable (KeepsInterval s) := inferInstanceAs (Decidable (List.IsChain _ _))

/-- このセッションの前の静止画を記録する前に入れたフレームは、その静止画から間隔が過ぎた時刻でなければ、保存しない。 -/
def NotStale (e : Event) (s : SnapshotSink) : Prop :=
  ∀ frameToSave msSinceEpoch, e = .finish true → s.capture = .stamped frameToSave msSinceEpoch →
    frameToSave.frame.valid = true → s.savedAt ≠ [] → frameToSave.lastSnapshotTimeMs ≠ s.lastSnapshotTimeMs →
      s.lastSnapshotTimeMs + s.config.intervalInMs ≤ msSinceEpoch

/-! ## 不変条件 -/

/-- 入れるときの検査を通り、その時刻は `t` までである。 -/
structure FrameData.Admitted (f : FrameData) (interval t : Int) : Prop where
  read : f.currentTimeMs ≤ t
  passed : f.lastSnapshotTimeMs + interval ≤ f.currentTimeMs

theorem FrameData.Admitted.mono {f : FrameData} {interval t t' : Int} (h : f.Admitted interval t) (ht : t ≤ t') :
    f.Admitted interval t' := ⟨h.read.trans ht, h.passed⟩

/-- 保存するスレッドの持つフレームは、読んだ時刻までに検査を通った。 -/
def Capture.Admitted (interval now : Int) : Capture → Prop
  | .stopped | .waiting => True
  | .taken f => f.Admitted interval now
  | .stamped f msSinceEpoch => f.Admitted interval msSinceEpoch ∧ msSinceEpoch ≤ now

theorem Capture.Admitted.mono {interval now now' : Int} {c : Capture} (h : c.Admitted interval now) (hn : now ≤ now') :
    c.Admitted interval now' := by
  cases c with
  | stopped | waiting => trivial
  | taken f => exact FrameData.Admitted.mono h hn
  | stamped f msSinceEpoch => exact ⟨h.1, h.2.trans hn⟩

namespace SnapshotSink

structure Timely (s : SnapshotSink) : Prop where
  readings : ∀ thread call, s.calls thread = some call → call.2 ≤ s.now
  queued : ∀ f ∈ s.currentFrame, f.Admitted s.config.intervalInMs s.now
  capture : s.capture.Admitted s.config.intervalInMs s.now
  /-- 記録は、最後に保存した静止画の時刻である。 -/
  recorded : ∀ t ∈ s.savedAt.getLast?, t = s.lastSnapshotTimeMs

variable {s : SnapshotSink}

theorem timely_init (config : Config) (now : Int) : (init config now).Timely :=
  ⟨by simp [init], by simp [init], trivial, by simp [init]⟩

theorem Timely.deliver (h : s.Timely) (source : YuvSource) {currentTimeMs : Int} (ht : currentTimeMs ≤ s.now)
    (allocated : Bool) : (s.deliver source currentTimeMs allocated).Timely := by
  unfold SnapshotSink.deliver
  split_ifs with hinterval
  · exact h
  · split
    · refine ⟨h.readings, fun f hf => ?_, h.capture, h.recorded⟩
      obtain rfl := Option.some.inj hf
      exact ⟨ht, by dsimp only; omega⟩
    · exact h

theorem Timely.withCall (h : s.Timely) (thread : Nat) {call : Option (YuvSource × Int)} (hcall : ∀ c ∈ call, c.2 ≤ s.now) :
    Timely { s with calls := Function.update s.calls thread call } := by
  have hreadings (thread' : Nat) (c : YuvSource × Int) (hc : Function.update s.calls thread call thread' = some c) :
      c.2 ≤ s.now := by
    by_cases heq : thread' = thread
    · subst heq
      rw [Function.update_self] at hc
      exact hcall c hc
    · rw [Function.update_of_ne heq] at hc
      exact h.readings thread' c hc
  exact ⟨hreadings, h.queued, h.capture, h.recorded⟩

theorem Timely.withCapture (h : s.Timely) {capture : Capture} (hc : capture.Admitted s.config.intervalInMs s.now) :
    Timely { s with capture } := ⟨h.readings, h.queued, hc, h.recorded⟩

/-- 入れることは、待つフレームだけを変える。 -/
theorem deliver_eq (s : SnapshotSink) (source : YuvSource) (currentTimeMs : Int) (allocated : Bool) :
    ∃ currentFrame, s.deliver source currentTimeMs allocated = { s with currentFrame } := by
  unfold deliver
  split_ifs
  · exact ⟨s.currentFrame, rfl⟩
  · split
    · exact ⟨_, rfl⟩
    · exact ⟨s.currentFrame, rfl⟩

theorem Timely.next (h : s.Timely) (e : Event) : (s.next e).Timely := by
  cases e with
  | tick ms =>
      have hlater : s.now ≤ s.now + ms := by omega
      exact ⟨fun thread call hcall => (h.readings thread call hcall).trans hlater,
        fun f hf => (h.queued f hf).mono hlater, h.capture.mono hlater, h.recorded⟩
  | start =>
      simp only [SnapshotSink.next]
      split
      · split_ifs
        · exact h
        · exact ⟨h.readings, h.queued, trivial, by simp⟩
      · exact h
  | stop =>
      simp only [SnapshotSink.next]
      split_ifs
      · exact ⟨h.readings, h.queued, h.capture, h.recorded⟩
      · exact h
  | onVideoFrame thread source =>
      simp only [SnapshotSink.next]
      split
      · split_ifs
        · exact h.withCall thread (by simp)
        · exact h
      · exact h
  | deliver thread allocated =>
      simp only [SnapshotSink.next]
      split
      · exact h
      · rename_i source currentTimeMs hcall
        have hdelivered := h.deliver source (h.readings thread _ hcall) allocated
        obtain ⟨currentFrame, heq⟩ := s.deliver_eq source currentTimeMs allocated
        rw [heq] at hdelivered ⊢
        exact hdelivered.withCall thread (by simp)
  | take =>
      simp only [SnapshotSink.next]
      split
      · rename_i frame hcapture hframe
        split_ifs
        · exact h
        · exact ⟨h.readings, by simp, h.queued frame hframe, h.recorded⟩
      · exact h
  | stamp =>
      simp only [SnapshotSink.next]
      split
      · rename_i frameToSave hcapture
        have hadmitted := h.capture
        rw [hcapture] at hadmitted
        exact h.withCapture ⟨hadmitted, Int.le_refl _⟩
      · exact h
  | finish saved =>
      simp only [SnapshotSink.next]
      split
      · split_ifs
        · exact ⟨h.readings, h.queued, trivial, by simp⟩
        · exact h.withCapture trivial
      · exact h
  | exit =>
      simp only [SnapshotSink.next]
      split
      · split_ifs
        · exact h.withCapture trivial
        · exact h
      · exact h
  | join =>
      simp only [SnapshotSink.next]
      split
      · split_ifs
        · exact ⟨h.readings, h.queued, h.capture, h.recorded⟩
        · exact h
      · exact h

/-- 保存の終わりのほかに、静止画の時刻を足す動きはない。 -/
theorem savedAt_next (s : SnapshotSink) {e : Event} (he : ∀ saved, e ≠ .finish saved) :
    (s.next e).config = s.config ∧ ((s.next e).savedAt = s.savedAt ∨ (s.next e).savedAt = []) := by
  cases e with
  | finish saved => exact absurd rfl (he saved)
  | tick ms => simp [next]
  | stop =>
      simp only [next]
      split_ifs <;> simp
  | deliver thread allocated =>
      simp only [next]
      split
      · simp
      · rename_i source currentTimeMs _
        obtain ⟨currentFrame, heq⟩ := s.deliver_eq source currentTimeMs allocated
        simp [heq]
  | stamp =>
      simp only [next]
      split <;> simp
  | start | onVideoFrame thread source | take | exit | join =>
      simp only [next]
      split
      · split_ifs <;> simp
      · simp

/-- 間隔が保たれるのは、保存するフレームが古い記録と比べたものでないか、時刻がそれでも離れているときである。 -/
theorem keepsInterval_finish (h : s.Timely) (hs : KeepsInterval s) (saved : Bool) :
    KeepsInterval (s.next (.finish saved)) ↔ NotStale (.finish saved) s := by
  have hadmitted := h.capture
  cases hcapture : s.capture with
  | stopped | waiting | taken f => simpa [next, NotStale, hcapture] using hs
  | stamped f msSinceEpoch =>
      rw [hcapture] at hadmitted
      obtain ⟨⟨hread, hpassed⟩, -⟩ := hadmitted
      cases hsaved : f.frame.valid && saved with
      | false =>
          -- 保存しなかったので、時刻の列は変わらない
          have hkeeps : KeepsInterval (s.next (.finish saved)) := by simpa [KeepsInterval, next, hcapture, hsaved] using hs
          refine iff_of_true hkeeps fun f' t heq hf' hvalid => ?_
          cases heq
          cases hcapture.symm.trans hf'
          simp [hvalid] at hsaved
      | true =>
          have hnext : KeepsInterval (s.next (.finish saved)) ↔
              ∀ t ∈ s.savedAt.getLast?, t + s.config.intervalInMs ≤ msSinceEpoch := by
            simp only [next, hcapture, hsaved, if_true, KeepsInterval, isChain_concat]
            exact and_iff_right hs
          rw [Bool.and_eq_true] at hsaved
          rw [hnext]
          constructor
          · intro hlast f' t heq hf' hvalid hne _
            cases hcapture.symm.trans hf'
            have ht := List.getLast?_eq_some_getLast hne
            exact h.recorded _ ht ▸ hlast _ ht
          · intro hstale t ht
            obtain rfl := h.recorded t ht
            by_cases hfresh : f.lastSnapshotTimeMs = s.lastSnapshotTimeMs
            · -- 入れるときに比べた記録が、いまの記録である
              omega
            · have hne : s.savedAt ≠ [] := by
                rintro hempty
                simp [hempty] at ht
              exact hstale f msSinceEpoch (by rw [hsaved.2]) hcapture hsaved.1 hne hfresh

theorem keepsInterval_next (h : s.Timely) (hs : KeepsInterval s) (e : Event) : KeepsInterval (s.next e) ↔ NotStale e s := by
  by_cases he : ∀ saved, e ≠ .finish saved
  · have hkeeps : KeepsInterval (s.next e) := by
      obtain ⟨hconfig, hsaved | hsaved⟩ := s.savedAt_next he <;> rw [KeepsInterval, hsaved, hconfig]
      · exact hs
      · exact .nil
    exact iff_of_true hkeeps fun _ _ heq => absurd heq (he true)
  · obtain ⟨saved, hsaved⟩ := not_forall.mp he
    obtain rfl := not_not.mp hsaved
    exact keepsInterval_finish h hs saved

end SnapshotSink

/-! ## 主な結果 -/

/-- どの順の動きでも、間隔がいつも保たれるのは、保存の間に入れたフレームを、間隔の過ぎないうちに保存しないときに限る。 -/
theorem interval_iff (config : Config) (now : Int) (events : List Event) :
    capturing.AllMeet (fun e s => KeepsInterval (s.next e)) events (.init config now) ↔
      capturing.AllMeet NotStale events (.init config now) :=
  System.allMeet_step_iff_of_invariant (S := capturing) (P := KeepsInterval) (fun e _ h => SnapshotSink.Timely.next h e)
    (fun e _ h hs => SnapshotSink.keepsInterval_next h hs e) events (SnapshotSink.timely_init config now) .nil

def smallSource : YuvSource where
  yBuffer := some [16, 16, 16, 16]
  uBuffer := some [128]
  vBuffer := some [128]
  yStride := 2
  uStride := 1
  vStride := 1
  width := 2
  height := 2
  timestamp := 0
  userId := "alice"

/-- 一枚目を保存する間に、二枚目が入る。 -/
def queuedWhileSaving : List Event :=
  [.start, .onVideoFrame 0 smallSource, .deliver 0 true, .take, .stamp, .tick 1, .onVideoFrame 0 smallSource,
    .deliver 0 true, .finish true, .take, .stamp, .finish true]

/-- 一枚目の 1 ミリ秒後に、二枚目を保存する。 -/
theorem not_interval : ¬∀ (config : Config) (now : Int) (events : List Event),
    capturing.AllMeet (fun e s => KeepsInterval (s.next e)) events (.init config now) := by
  intro h
  have hkeeps := System.AllMeet.run (S := capturing) (P := KeepsInterval) (h {} 20000 queuedWhileSaving) .nil
  revert hkeeps
  decide

end RtcEgress.Media.Snapshots
