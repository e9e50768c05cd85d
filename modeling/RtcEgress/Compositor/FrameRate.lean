import RtcEgress.Compositor.Order

/-!
# 合成の間隔

`addUserFrame` は、二つのロックを取る前に時刻を読む。待つ間に別のスレッドが合成すれば、`lastCompositeTime_` は読んだ
時刻より後になる。符号のない引き算は大きな値に戻るので、間隔が過ぎたと見てしまう。
-/

namespace RtcEgress.Compositor

open RtcEgress.Lib
open Media (elapsed)

/-! ## スレッド -/

/-- 合成器を呼ぶスレッド。検出器のスレッドは `onLayoutChange` だけを呼ぶ。 -/
inductive Caller where
  | user (i : Nat)
  | detector
  deriving DecidableEq

inductive Pc where
  | idle
  | timed (userId : String) (frame : VideoFrame) (currentTime : Nat)
  /-- `onUserFrame` から戻った。 -/
  | notified (userId : String) (frame : VideoFrame) (currentTime : Nat) (activeUsers : List String)
  /-- `frameBufferMutex_` を持ち、フレームを入れた。 -/
  | received (currentTime : Nat) (activeUsers : List String)
  /-- `createCompositeFrameWithoutLock` を呼んだ。 -/
  | composing (activeUsers : List String)
  | stamped (activeUsers : List String) (compositeTime : Nat)

def Pc.reading : Pc → Nat
  | .timed _ _ t | .notified _ _ t _ | .received t _ | .stamped _ t => t
  | .idle | .composing _ => 0

structure Compositing where
  /-- すべてのスレッドが読む、戻らない時計。 -/
  now : Nat
  compositor : VideoCompositor
  pc : Caller → Pc := fun _ => .idle
  /-- `frameBufferMutex_` の持ち主。 -/
  holder : Option Caller := none

namespace Compositing

def goto (s : Compositing) (c : Caller) (pc : Pc) : Compositing := { s with pc := Function.update s.pc c pc }

def acquire (s : Compositing) (c : Caller) (pc : Pc) : Compositing := { s.goto c pc with holder := some c }

def release (s : Compositing) (c : Caller) : Compositing := { s.goto c .idle with holder := none }

end Compositing

inductive Event where
  | tick (ms : Nat)
  | readClock (i : Nat) (userId : String) (frame : VideoFrame)
  | notify (i : Nat) (activeUsers : List String)
  | lock (i : Nat)
  | checkInterval (i : Nat)
  | layoutChange (activeUsers : List String)
  | readCompositeClock (c : Caller)
  | finish (c : Caller)

/-- 一つの動き。できない動きは、何も変えない。 -/
def Compositing.next (host : Host) (s : Compositing) : Event → Compositing
  | .tick ms => if s.now + ms < 2 ^ 64 then { s with now := s.now + ms } else s
  | .readClock i userId frame =>
      match s.pc (.user i) with
      | .idle =>
          if !s.compositor.initialized || s.compositor.stopRequested then s
          else s.goto (.user i) (.timed userId frame s.now)
      | _ => s
  | .notify i activeUsers =>
      match s.pc (.user i) with
      | .timed userId frame currentTime => s.goto (.user i) (.notified userId frame currentTime activeUsers)
      | _ => s
  | .lock i =>
      match s.pc (.user i), s.holder with
      | .notified userId frame currentTime activeUsers, none =>
          { s.acquire (.user i) (.received currentTime activeUsers) with
            compositor := s.compositor.receiveFrame userId frame currentTime s.now }
      | _, _ => s
  | .checkInterval i =>
      match s.pc (.user i) with
      | .received currentTime activeUsers =>
          if s.compositor.intervalPassed currentTime then s.goto (.user i) (.composing activeUsers)
          else s.release (.user i)
      | _ => s
  | .layoutChange activeUsers =>
      match s.pc .detector, s.holder with
      | .idle, none =>
          if s.compositor.layoutComposes activeUsers then s.acquire .detector (.composing activeUsers) else s
      | _, _ => s
  | .readCompositeClock c =>
      match s.pc c with
      | .composing activeUsers => if s.compositor.canComposite then s.goto c (.stamped activeUsers s.now) else s.release c
      | _ => s
  | .finish c =>
      match s.pc c with
      | .stamped activeUsers compositeTime =>
          { s.release c with
            compositor := (s.compositor.createCompositeFrameWithoutLock host activeUsers compositeTime).2.2 }
      | _ => s

/-- `addUserFrame` と `onLayoutChange` の、任意の順の動き。 -/
abbrev compositing (host : Host) : System Event where
  State := Compositing
  step e s := s.next host e

/-- `initialize` の後の状態。 -/
def Compositing.start (config : VideoCompositor.Config) (startTime : Nat) : Compositing where
  now := startTime
  compositor := { config, lastCompositeTime := startTime }

/-! ## 間隔 -/

def VideoCompositor.composes (host : Host) (s : VideoCompositor) (activeUsers : List String) : Prop :=
  s.canComposite = true ∧ s.usersWithFrames activeUsers ≠ [] ∧ host.writable = true

/-- 時刻 `currentTime` を読んだ `addUserFrame` が、間隔を調べる。 -/
def Decides (e : Event) (s : Compositing) (currentTime : Nat) (activeUsers : List String) : Prop :=
  ∃ i, e = .checkInterval i ∧ s.pc (.user i) = .received currentTime activeUsers

/-- 前の合成の記録から次に合成してよい時刻。 -/
def Compositing.due (s : Compositing) : Nat :=
  s.compositor.lastCompositeTime + s.compositor.config.minCompositeIntervalMs

/-- `addUserFrame` が合成を起こすなら、前の合成の記録から、定めた間隔が過ぎている。 -/
def RespectsInterval (host : Host) (e : Event) (s : Compositing) : Prop :=
  ∀ currentTime activeUsers, Decides e s currentTime activeUsers → s.compositor.composes host activeUsers →
    s.compositor.intervalPassed currentTime = true → s.due ≤ s.now

/-- 読んだ時刻の後に記録された合成から、間隔が過ぎないうちに調べることがない。戻った値も間隔に届かなければよい。 -/
def NotOvertaken (host : Host) (e : Event) (s : Compositing) : Prop :=
  ∀ currentTime activeUsers, Decides e s currentTime activeUsers → s.compositor.composes host activeUsers →
    ¬(currentTime < s.compositor.lastCompositeTime ∧ s.now < s.due ∧ s.due ≤ currentTime + 2 ^ 64)

/-- 読んだ時刻も、記録した時刻も、いまの時刻までである。 -/
structure Compositing.Timely (s : Compositing) : Prop where
  clock : s.now < 2 ^ 64
  recorded : s.compositor.lastCompositeTime ≤ s.now
  readings : ∀ c, (s.pc c).reading ≤ s.now

theorem VideoCompositor.lastCompositeTime_createComposite_le {host : Host} {s : VideoCompositor} {activeUsers : List String}
    {compositeTime now : Nat} (hs : s.lastCompositeTime ≤ now) (ht : compositeTime ≤ now) :
    (s.createCompositeFrameWithoutLock host activeUsers compositeTime).2.2.lastCompositeTime ≤ now := by
  unfold createCompositeFrameWithoutLock
  split_ifs
  · exact hs
  · exact hs
  · exact hs
  · exact ht

namespace Compositing

variable {host : Host} {s : Compositing}

theorem Timely.goto (h : s.Timely) {pc : Pc} (hpc : pc.reading ≤ s.now) (c : Caller) : (s.goto c pc).Timely := by
  refine ⟨h.clock, h.recorded, fun c' => ?_⟩
  by_cases hc : c' = c
  · subst hc
    simpa [Compositing.goto] using hpc
  · simpa [Compositing.goto, hc] using h.readings c'

theorem Timely.release (h : s.Timely) (c : Caller) : (s.release c).Timely :=
  let hgoto := h.goto (show Pc.reading .idle ≤ s.now from Nat.zero_le _) c
  ⟨hgoto.clock, hgoto.recorded, hgoto.readings⟩

theorem Timely.acquire (h : s.Timely) {pc : Pc} (hpc : pc.reading ≤ s.now) (c : Caller) : (s.acquire c pc).Timely :=
  let hgoto := h.goto hpc c
  ⟨hgoto.clock, hgoto.recorded, hgoto.readings⟩

theorem Timely.withCompositor (h : s.Timely) {compositor : VideoCompositor} (hc : compositor.lastCompositeTime ≤ s.now) :
    Timely { s with compositor } := ⟨h.clock, hc, h.readings⟩

theorem Timely.reading_le (h : s.Timely) {c : Caller} {pc : Pc} (hpc : s.pc c = pc) : pc.reading ≤ s.now :=
  hpc ▸ h.readings c

theorem Timely.step (h : s.Timely) (e : Event) : (s.next host e).Timely := by
  cases e with
  | tick ms =>
      simp only [next]
      split_ifs with hclock
      · exact ⟨hclock, h.recorded.trans (Nat.le_add_right _ _), fun c => (h.readings c).trans (Nat.le_add_right _ _)⟩
      · exact h
  | readClock i userId frame =>
      simp only [next]
      split
      · split_ifs
        · exact h
        · exact h.goto (Nat.le_refl _) _
      · exact h
  | notify i activeUsers =>
      simp only [next]
      split
      · rename_i hpc
        have hread := h.reading_le hpc
        exact h.goto (by exact hread) _
      · exact h
  | lock i =>
      simp only [next]
      split
      · rename_i hpc _
        have hread := h.reading_le hpc
        exact Timely.withCompositor (h.acquire (by exact hread) _) h.recorded
      · exact h
  | checkInterval i =>
      simp only [next]
      split
      · split_ifs
        · exact h.goto (Nat.zero_le _) _
        · exact h.release _
      · exact h
  | layoutChange activeUsers =>
      simp only [next]
      split
      · split_ifs
        · exact h.acquire (Nat.zero_le _) _
        · exact h
      · exact h
  | readCompositeClock c =>
      simp only [next]
      split
      · split_ifs
        · exact h.goto (Nat.le_refl _) _
        · exact h.release _
      · exact h
  | finish c =>
      simp only [next]
      split
      · rename_i hpc
        exact (h.release c).withCompositor
          (VideoCompositor.lastCompositeTime_createComposite_le h.recorded (h.reading_le hpc))
      · exact h

theorem timely_start {config : VideoCompositor.Config} {startTime : Nat} (h : startTime < 2 ^ 64) :
    (start config startTime).Timely :=
  ⟨h, Nat.le_refl _, fun _ => Nat.zero_le _⟩

end Compositing

/-- 間隔が過ぎていないのに合成を起こすのは、読んだ時刻が記録に追い越されたときである。 -/
theorem respectsInterval_iff {host : Host} {s : Compositing} (h : s.Timely) (e : Event) :
    RespectsInterval host e s ↔ NotOvertaken host e s := by
  refine forall₄_congr fun currentTime activeUsers hdecides _ => ?_
  obtain ⟨i, -, hpc⟩ := hdecides
  have hread : currentTime ≤ s.now := h.reading_le hpc
  have hclock := h.clock
  have hrecorded := h.recorded
  unfold VideoCompositor.intervalPassed elapsed Compositing.due
  rw [decide_eq_true_eq]
  generalize s.compositor.lastCompositeTime = last at *
  generalize s.compositor.config.minCompositeIntervalMs = minInterval
  by_cases hlast : last ≤ currentTime
  · rw [show 2 ^ 64 + currentTime - last = currentTime - last + 2 ^ 64 by omega, Nat.add_mod_right,
      Nat.mod_eq_of_lt (by omega)]
    omega
  · rw [Nat.mod_eq_of_lt (by omega)]
    omega

/-- どの順の動きでも、合成の間隔が守られるのは、間隔を調べる時刻が、間隔の足りない記録に追い越されないときである。 -/
theorem frame_rate_iff (host : Host) (config : VideoCompositor.Config) {startTime : Nat} (hstart : startTime < 2 ^ 64)
    (events : List Event) :
    (compositing host).AllMeet (RespectsInterval host) events (.start config startTime) ↔
      (compositing host).AllMeet (NotOvertaken host) events (.start config startTime) :=
  System.allMeet_congr (S := compositing host) (I := Compositing.Timely) (fun e _ h => h.step e)
    (fun e _ h => respectsInterval_iff h e) events (Compositing.timely_start hstart)

/-! ## 例 -/

/-- 一人が合成したすぐ後に、前に時刻を読んだもう一人が間隔を調べる。 -/
def overtaking : List Event :=
  [.tick 16, .readClock 0 "alice" plainFrame, .notify 0 ["alice"], .tick 1, .readClock 1 "bob" plainFrame,
    .notify 1 ["alice", "bob"], .lock 1, .checkInterval 1, .readCompositeClock (.user 1), .finish (.user 1), .lock 0,
    .checkInterval 0]

theorem frame_rate_iff_overtaking :
    (compositing plainHost).AllMeet (RespectsInterval plainHost) overtaking (.start (orderedBy []) 1000) ↔
      (compositing plainHost).AllMeet (NotOvertaken plainHost) overtaking (.start (orderedBy []) 1000) :=
  frame_rate_iff plainHost (orderedBy []) (by decide) overtaking

/-- 直前の合成と同じ時刻に、もう一度合成が起きる。 -/
theorem not_frame_rate : ¬∀ (host : Host) (config : VideoCompositor.Config) (startTime : Nat), startTime < 2 ^ 64 →
    ∀ events : List Event, (compositing host).AllMeet (RespectsInterval host) events (.start config startTime) := by
  intro h
  have hall := h plainHost (orderedBy []) 1000 (by decide) overtaking
  have hlast := hall.2.2.2.2.2.2.2.2.2.2.2.1 1016 ["alice"] ⟨0, rfl, rfl⟩ ⟨by decide, by decide, rfl⟩ (by decide)
  revert hlast
  decide

end RtcEgress.Compositor
