import Mathlib.Logic.Function.Basic
import RtcEgress.Lib.System
import RtcEgress.Message.Users

/-!
# `src/snapshot_sink.cpp` の停止

`captureThread` は `frameMutex_` の中で条件を調べ、`cv_` で待つ。`stop` は `mutex_` だけを持って旗を立て、`cv_` に知らせる。
そこで、条件を調べてから待ち始めるまでの間に、知らせが届くことがある。個別の方式の静止画について、その間に届く知らせと、
`stop` の `join` が戻ることとの関係を調べる。
-/

namespace RtcEgress.Media.SnapshotStop

open RtcEgress.Lib
open Function (update)

structure Config where
  intervalInMs : Int
  targetUsers : List String

/-- 保存を待つフレーム。 -/
structure FrameData where
  timestamp : UInt64
  userId : String

/-- `captureThread` の段階。 -/
inductive Capture where
  /-- `while` の条件を調べる。 -/
  | top
  /-- `frameMutex_` を取ろうとする。 -/
  | locking
  /-- `frameMutex_` を取り、待つ条件が偽であった。 -/
  | dozing
  /-- `frameMutex_` を放して待つ。 -/
  | asleep
  | saving (frame : FrameData)
  | ended

/-- `onVideoFrame` を呼ぶスレッドの段階。 -/
inductive Producer where
  | idle
  /-- 時刻を読み、`frameMutex_` を取ろうとする。 -/
  | entering (currentTimeMs : Int) (frame : FrameData)
  /-- フレームを置いて `frameMutex_` を放した。 -/
  | notifying

/-- `stop` の段階。 -/
inductive Stop where
  | idle
  /-- `mutex_` の中で旗を立てた。 -/
  | requested
  /-- `notify_all` を終え、`mutex_` を放した。 -/
  | notified
  | joined
  | finished
  deriving DecidableEq

structure State where
  isCapturing : Bool := true
  stopRequested : Bool := false
  /-- `mutex_` と `frameMutex_` を、持つスレッドがある。 -/
  mutex : Bool := false
  frameMutex : Bool := false
  currentFrame : Option FrameData := none
  lastSnapshotTimeMs : Int := 0
  capture : Capture := .top
  producers : Nat → Producer := fun _ => .idle
  stops : Nat → Stop := fun _ => .idle

inductive Op where
  /-- 検査に通ったフレームを渡す。 -/
  | onVideoFrame (i : Nat) (currentTimeMs : Int) (frame : FrameData)
  | produce (i : Nat)
  /-- 保存の成否と、その時の時刻を添える。 -/
  | capture (saved : Bool) (now : Int)
  | spurious
  | requestStop (j : Nat)
  | stop (j : Nat)

variable (config : Config)

namespace State

def setProducer (s : State) (i : Nat) (p : Producer) : State := { s with producers := update s.producers i p }

def setStop (s : State) (j : Nat) (p : Stop) : State := { s with stops := update s.stops j p }

/-- `cv_` への知らせ。 -/
def notify (s : State) : State :=
  match s.capture with
  | .asleep => { s with capture := .locking }
  | _ => s

def stepProducer (s : State) (i : Nat) : State :=
  match s.producers i with
  | .idle => s
  | .entering currentTimeMs frame =>
      if s.frameMutex then s
      else if currentTimeMs - s.lastSnapshotTimeMs < config.intervalInMs then s.setProducer i .idle
      else { s.setProducer i .notifying with currentFrame := some frame }
  | .notifying => s.notify.setProducer i .idle

def stepCapture (s : State) (saved : Bool) (now : Int) : State :=
  match s.capture with
  | .top => { s with capture := if s.stopRequested then .ended else .locking }
  | .locking =>
      if s.frameMutex then s
      else if s.stopRequested then { s with capture := .ended }
      else
        match s.currentFrame with
        | some frame => { s with capture := .saving frame, currentFrame := none }
        | none => { s with capture := .dozing, frameMutex := true }
  | .dozing => { s with capture := .asleep, frameMutex := false }
  | .asleep => s
  | .saving _ => { s with capture := .top, lastSnapshotTimeMs := if saved then now else s.lastSnapshotTimeMs }
  | .ended => s

def stepStop (s : State) (j : Nat) : State :=
  match s.stops j with
  | .idle | .finished => s
  | .requested => { s.notify.setStop j .notified with mutex := false }
  | .notified =>
      match s.capture with
      | .ended => s.setStop j .joined
      | _ => s
  | .joined => { s.setStop j .finished with isCapturing := false }

def step : Op → State → State
  | .onVideoFrame i currentTimeMs frame, s =>
      match s.producers i with
      | .idle =>
          if s.isCapturing && Message.shouldRecordUser config.targetUsers frame.userId then
            s.setProducer i (.entering currentTimeMs frame)
          else s
      | _ => s
  | .produce i, s => s.stepProducer config i
  | .capture saved now, s => s.stepCapture saved now
  | .spurious, s => s.notify
  | .requestStop j, s =>
      match s.stops j with
      | .idle =>
          if s.mutex || !s.isCapturing then s
          else { s.setStop j .requested with stopRequested := true, mutex := true }
      | _ => s
  | .stop j, s => s.stepStop j

end State

/-- 静止画の部品。 -/
def sink : System Op := ⟨State, State.step config⟩

/-! ## 停止の後の待ち -/

variable {config} {s : State}

/-- 旗が立ち、`captureThread` は待っていない。 -/
structure Leaving (s : State) : Prop where
  stopRequested : s.stopRequested = true
  dozing : s.capture ≠ .dozing
  asleep : s.capture ≠ .asleep

theorem Leaving.notify (h : Leaving s) : s.notify = s := by
  unfold State.notify
  split
  next hc => exact absurd hc h.asleep
  · rfl

theorem Leaving.stepCapture (h : Leaving s) (saved : Bool) (now : Int) : Leaving (s.stepCapture saved now) := by
  have hstop := h.stopRequested
  cases hc : s.capture with
  | top => exact ⟨by simp [State.stepCapture, hc, hstop], by simp [State.stepCapture, hc, hstop],
      by simp [State.stepCapture, hc, hstop]⟩
  | locking =>
      simp only [State.stepCapture, hc, hstop, if_true]
      split
      · exact h
      · exact ⟨rfl, by simp, by simp⟩
  | dozing => exact absurd hc h.dozing
  | asleep => exact absurd hc h.asleep
  | saving => simp only [State.stepCapture, hc]; exact ⟨hstop, by simp, by simp⟩
  | ended => simpa only [State.stepCapture, hc] using h

theorem Leaving.step (h : Leaving s) (op : Op) : Leaving (s.step config op) := by
  cases op with
  | capture saved now => exact h.stepCapture saved now
  | spurious => simpa only [State.step, h.notify] using h
  | onVideoFrame i currentTimeMs frame =>
      simp only [State.step]
      split
      · split
        · exact ⟨h.stopRequested, h.dozing, h.asleep⟩
        · exact h
      · exact h
  | produce i =>
      simp only [State.step, State.stepProducer, h.notify]
      split
      · exact h
      · split
        · exact h
        · split <;> exact ⟨h.stopRequested, h.dozing, h.asleep⟩
      · exact ⟨h.stopRequested, h.dozing, h.asleep⟩
  | requestStop j =>
      simp only [State.step]
      split
      · split
        · exact h
        · exact ⟨rfl, h.dozing, h.asleep⟩
      · exact h
  | stop j =>
      simp only [State.step, State.stepStop, h.notify]
      split
      · exact h
      · exact h
      · exact ⟨h.stopRequested, h.dozing, h.asleep⟩
      · split
        · exact ⟨h.stopRequested, h.dozing, h.asleep⟩
        · exact h
      · exact ⟨h.stopRequested, h.dozing, h.asleep⟩

theorem Leaving.run (h : Leaving s) (ops : List Op) : Leaving ((sink config).run ops s) :=
  System.run_invariant (S := sink config) (I := Leaving) (fun op _ h => h.step op) ops h

/-- 旗を立てたスレッドがあれば、旗は立っている。 -/
def Requested (s : State) : Prop := ∀ j, s.stops j ≠ .idle → s.stopRequested = true

theorem notify_same (s : State) : s.notify.stops = s.stops ∧ s.notify.stopRequested = s.stopRequested := by
  unfold State.notify
  split <;> exact ⟨rfl, rfl⟩

theorem stops_setStop {j i : Nat} {p : Stop} (hj : s.stops j ≠ .idle) (hi : (s.setStop j p).stops i ≠ .idle) :
    ∃ k, s.stops k ≠ .idle := by
  by_cases hij : i = j
  · exact ⟨j, hj⟩
  · exact ⟨i, by simpa [State.setStop, Function.update_of_ne hij] using hi⟩

/-- 旗は、`requestStop` だけが立て、下ろさない。 -/
theorem Requested.step (h : Requested s) (op : Op) : Requested (s.step config op) := by
  have hsame := notify_same s
  cases op with
  | onVideoFrame =>
      simp only [State.step]
      split
      · split <;> exact h
      · exact h
  | produce =>
      simp only [State.step, State.stepProducer]
      split
      · exact h
      · split
        · exact h
        · split <;> exact h
      · simpa only [Requested, State.setProducer, hsame.1, hsame.2] using h
  | capture saved now =>
      simp only [State.step, State.stepCapture]
      split
      · exact h
      · split
        · exact h
        · split
          · exact h
          · split <;> exact h
      all_goals exact h
  | spurious => simpa only [Requested, State.step, hsame.1, hsame.2] using h
  | requestStop =>
      simp only [State.step]
      split
      · split
        · exact h
        · exact fun _ _ => rfl
      · exact h
  | stop j =>
      simp only [State.step, State.stepStop]
      split
      · exact h
      · exact h
      next hj =>
        intro i hi
        rw [State.setStop, hsame.1] at hi
        obtain ⟨k, hk⟩ := stops_setStop (s := s) (p := .notified) (by rw [hj]; simp) hi
        exact hsame.2.trans (h k hk)
      next hj =>
        split
        · intro i hi
          obtain ⟨k, hk⟩ := stops_setStop (by rw [hj]; simp) hi
          exact h k hk
        · exact h
      next hj =>
        intro i hi
        obtain ⟨k, hk⟩ := stops_setStop (p := .finished) (by rw [hj]; simp) hi
        exact h k hk

theorem reach_requested {g : (sink config).Condition} (hreach : (sink config).Reach g {} s) : Requested s :=
  hreach.invariant (I := Requested) (fun _ hj => absurd rfl hj) fun op _ h _ => h.step op

/-! ## 届かない知らせ -/

/-- `captureThread` は知らせの後に眠り、`stop` は戻らない。 -/
structure Hung (j : Nat) (s : State) : Prop where
  capture : s.capture = .dozing ∨ s.capture = .asleep
  stop : s.stops j = .notified

theorem Hung.step {j : Nat} (h : Hung j s) {op : Op} (hop : op = .stop j ∨ ∃ saved now, op = .capture saved now) :
    Hung j (s.step config op) := by
  rcases hop with rfl | ⟨saved, now, rfl⟩
  · rcases h.capture with hc | hc <;> simpa [State.step, State.stepStop, h.stop, hc] using h
  · rcases h.capture with hc | hc
    · simp only [State.step, State.stepCapture, hc]
      exact ⟨.inr rfl, h.stop⟩
    · simpa only [State.step, State.stepCapture, hc] using h

/-- `stop` の知らせが条件を調べてから待つまでの間に届かないことは、`captureThread` がその後に眠らないことと同値である。
間に届けば、他のスレッドが動くまで `join` は戻らない。 -/
theorem stop_wakes_iff (hreach : (sink config).Reach (fun _ _ => True) {} s) {j : Nat} (hj : s.stops j = .requested) :
    let s' := s.step config (.stop j)
    ((∀ ops, ((sink config).run ops s').capture ≠ .asleep) ↔ s.capture ≠ .dozing) ∧
      (s.capture = .dozing → ∀ ops : List Op, (∀ op ∈ ops, op = .stop j ∨ ∃ saved now, op = .capture saved now) →
        ((sink config).run ops s').stops j = .notified) := by
  have hstop : s.stopRequested = true := reach_requested hreach j (by rw [hj]; simp)
  have hstep : s.step config (.stop j) = { s.notify.setStop j .notified with mutex := false } := by
    simp only [State.step, State.stepStop, hj]
  have hdozing : s.capture = .dozing → Hung j (s.step config (.stop j)) := by
    intro hc
    rw [hstep]
    exact ⟨.inl (by simp [State.setStop, State.notify, hc]), by simp [State.setStop]⟩
  refine ⟨⟨fun hops hc => ?_, fun hc ops => ?_⟩, fun hc ops hops => ?_⟩
  · refine hops [.capture true 0] ?_
    rw [hstep]
    simp [System.run, sink, State.step, State.stepCapture, State.setStop, State.notify, hc]
  · refine (Leaving.run ?_ ops).asleep
    rw [hstep]
    cases hcap : s.capture with
    | dozing => exact absurd hcap hc
    | asleep | top | locking | saving | ended =>
        exact ⟨by simpa [State.setStop, (notify_same s).2] using hstop, by simp [State.setStop, State.notify, hcap],
          by simp [State.setStop, State.notify, hcap]⟩
  · suffices h : Hung j ((sink config).run ops (s.step config (.stop j))) from h.stop
    have hhung := hdozing hc
    generalize s.step config (.stop j) = s' at hhung
    induction ops generalizing s' with
    | nil => exact hhung
    | cons op ops ih =>
        exact ih (fun op' hop' => hops op' (List.mem_cons_of_mem _ hop')) _ (hhung.step (hops op List.mem_cons_self))

/-- 知らせの前に条件を調べた `captureThread` が、その後に眠る。 -/
def stopWhileDozing : List Op := [.capture true 0, .capture true 0, .requestStop 0]

theorem stop_wakes_iff_dozing :
    let config : Config := ⟨20000, []⟩
    let s := (sink config).run stopWhileDozing {}
    let s' := s.step config (.stop 0)
    ((∀ ops, ((sink config).run ops s').capture ≠ .asleep) ↔ s.capture ≠ .dozing) ∧
      (s.capture = .dozing → ∀ ops : List Op, (∀ op ∈ ops, op = .stop 0 ∨ ∃ saved now, op = .capture saved now) →
        ((sink config).run ops s').stops 0 = .notified) :=
  stop_wakes_iff (System.reach_run (System.allMeet_of_forall (fun _ _ => trivial) _ _)) rfl

end RtcEgress.Media.SnapshotStop
