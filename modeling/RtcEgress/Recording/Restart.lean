import RtcEgress.Recording.Timestamps
import RtcEgress.Sink.RecordingSink

/-!
# `src/recording_sink.cpp` の流れの再開

`encodeIndividualFrame` と `encodeIndividualAudioFrame` は、流れの最後の時刻を書き換えてから、時刻の跳びを調べる。比べる
相手が自分の時刻になるので、跳びは見つからない。
-/

namespace RtcEgress.Recording

open Lib
open Sink.RecordingSink (OutputFormat)

namespace UserContext

def lastRtcTs (m : Medium) (ctx : UserContext) : Nat :=
  match m with
  | .video => ctx.lastVideoRtcTs
  | .audio => ctx.lastAudioRtcTs

def updateStreamState (m : Medium) (rtcTimestamp : Nat) (ctx : UserContext) : UserContext :=
  match m with
  | .video => { ctx with videoStreamActive := true, lastVideoRtcTs := rtcTimestamp }
  | .audio => { ctx with audioStreamActive := true, lastAudioRtcTs := rtcTimestamp }

def detectStreamRestart (m : Medium) (rtcTimestamp : Nat) (ctx : UserContext) : Bool :=
  let lastTs := ctx.lastRtcTs m
  if 0 < lastTs then
    let timeDiff := toInt64 (rtcTimestamp - lastTs)
    5000 < timeDiff || timeDiff < -1000
  else false

/-- 再開した流れの扱い。TS では `pts` を続ける。 -/
def restart (format : OutputFormat) (m : Medium) (ctx : UserContext) : UserContext :=
  let ctx := { ctx with hasTimeOrigin := false }
  match format with
  | .ts => ctx
  | .mp4 | .avi | .mkv => ctx.setLastPts m (-1)

end UserContext

structure Config where
  format : OutputFormat
  timing : Timing

/-- 二つの関数に共通の、`pts` を定めるまでの処理。 -/
def Config.stampFrame (c : Config) (m : Medium) (rtcTimestamp : Nat) (ctx : UserContext) : Int × UserContext :=
  let ctx := ctx.updateStreamState m rtcTimestamp
  let ctx := if ctx.detectStreamRestart m rtcTimestamp then ctx.restart c.format m else ctx
  c.timing.calculate m rtcTimestamp ctx

def Config.encodeIndividualFrame (c : Config) : Nat → UserContext → Int × UserContext := c.stampFrame .video

/-- 符号化に至る呼び出しについて。 -/
def Config.encodeIndividualAudioFrame (c : Config) : Nat → UserContext → Int × UserContext := c.stampFrame .audio

def Config.encode (c : Config) : Medium → Nat → UserContext → Int × UserContext
  | .video => c.encodeIndividualFrame
  | .audio => c.encodeIndividualAudioFrame

/-- 一人の利用者の映像と音声を、任意の順に符号化する。 -/
abbrev encoding (c : Config) : System Arrival where
  State := UserContext
  step a ctx := (c.encode a.1 a.2 ctx).2

/-! ## 再開を認めること -/

/-- 前のフレームの時刻から、五秒より後か、一秒より前に跳ぶ。 -/
def Jumps (last rtcTimestamp : Nat) : Prop :=
  0 < last ∧ (last + 5000 < rtcTimestamp ∨ rtcTimestamp + 1000 < last)

instance (last rtcTimestamp : Nat) : Decidable (Jumps last rtcTimestamp) := inferInstanceAs (Decidable (_ ∧ _))

/-- 跳んだフレームの時刻を原点とし、`pts` を、原点からの隔たり 0 から定める。 -/
def Config.Recognised (c : Config) (a : Arrival) (ctx : UserContext) : Prop :=
  Jumps (ctx.lastRtcTs a.1) a.2 →
    (c.encode a.1 a.2 ctx).2.rtcTimeOrigin = a.2 ∧
      (c.encode a.1 a.2 ctx).1 =
        ensureMonotonicPTS 0 (if c.format = .ts then ctx.lastPts a.1 else -1) (c.timing.minIncrement a.1)

/-- 跳びがないか、原点の時刻にちょうど跳ぶ。 -/
def Config.Unbroken (c : Config) (a : Arrival) (ctx : UserContext) : Prop :=
  Jumps (ctx.lastRtcTs a.1) a.2 → ctx.rtcTimeOrigin = a.2 ∧ (c.format = .ts ∨ ctx.lastPts a.1 < 0)

/-! ## 一つのフレーム -/

@[simp] theorem UserContext.lastRtcTs_updateStreamState (m : Medium) (ts : Nat) (ctx : UserContext) :
    (ctx.updateStreamState m ts).lastRtcTs m = ts := by
  cases m <;> rfl

@[simp] theorem UserContext.lastPts_updateStreamState (m m' : Medium) (ts : Nat) (ctx : UserContext) :
    (ctx.updateStreamState m ts).lastPts m' = ctx.lastPts m' := by
  cases m <;> cases m' <;> rfl

@[simp] theorem UserContext.origin_updateStreamState (m : Medium) (ts : Nat) (ctx : UserContext) :
    (ctx.updateStreamState m ts).origin ts = ctx.origin ts := by
  cases m <;> rfl

@[simp] theorem UserContext.offset_updateStreamState (m : Medium) (ts : Nat) (ctx : UserContext) :
    (ctx.updateStreamState m ts).offset ts = ctx.offset ts := by
  simp [UserContext.offset]

@[simp] theorem UserContext.rtcTimeOrigin_setLastPts (m : Medium) (pts : Int) (ctx : UserContext) :
    (ctx.setLastPts m pts).rtcTimeOrigin = ctx.rtcTimeOrigin := by
  cases m <;> rfl

@[simp] theorem UserContext.hasTimeOrigin_setLastPts (m : Medium) (pts : Int) (ctx : UserContext) :
    (ctx.setLastPts m pts).hasTimeOrigin = ctx.hasTimeOrigin := by
  cases m <;> rfl

@[simp] theorem UserContext.hasTimeOrigin_initializeRtcTimeOrigin (ts : Nat) (ctx : UserContext) :
    (ctx.initializeRtcTimeOrigin ts).hasTimeOrigin = true := by
  unfold UserContext.initializeRtcTimeOrigin
  split
  · assumption
  · rfl

/-- 書き換えた後では、時刻の差が 0 になる。 -/
theorem UserContext.detectStreamRestart_updateStreamState (m : Medium) (ts : Nat) (ctx : UserContext) :
    (ctx.updateStreamState m ts).detectStreamRestart m ts = false := by
  simp [UserContext.detectStreamRestart]

theorem Config.encode_eq (c : Config) (m : Medium) (ts : Nat) (ctx : UserContext) :
    c.encode m ts ctx =
      (ensureMonotonicPTS (ctx.offset ts) (ctx.lastPts m) (c.timing.minIncrement m),
        ((ctx.updateStreamState m ts).initializeRtcTimeOrigin ts).setLastPts m
          (ensureMonotonicPTS (ctx.offset ts) (ctx.lastPts m) (c.timing.minIncrement m))) := by
  have hstamp : c.encode m ts ctx = c.stampFrame m ts ctx := by
    cases m <;> rfl
  simp [hstamp, Config.stampFrame, UserContext.detectStreamRestart_updateStreamState, Timing.calculate_eq, calculatePTS_eq]

/-! ## 列の全体 -/

/-- 時刻のある流れがあれば原点があり、`pts` は 64 ビットに収まる。 -/
def UserContext.Anchored (ctx : UserContext) : Prop :=
  ∀ m, (0 < ctx.lastRtcTs m → ctx.hasTimeOrigin = true) ∧ ctx.lastPts m < 2 ^ 63

theorem UserContext.anchored_init : Anchored {} := by
  intro m
  cases m <;> decide

theorem UserContext.Anchored.step {c : Config} {ctx : UserContext} (a : Arrival) (h : ctx.Anchored) :
    Anchored ((encoding c).step a ctx) := by
  have hoffset : ctx.offset a.2 < 2 ^ 63 := (toInt64_range _).2
  intro m
  simp only [Config.encode_eq]
  constructor
  · simp
  · by_cases hm : m = a.1
    · rw [hm, UserContext.lastPts_setLastPts_self]
      exact ensureMonotonicPTS_lt hoffset
    · rw [UserContext.lastPts_setLastPts_of_ne hm]
      simpa using (h m).2

/-- 増やした `pts` は 0 にならない。 -/
theorem ensureMonotonicPTS_zero_iff {lastPts minIncrement : Int} (hlast : lastPts < 2 ^ 63)
    (hinc : 0 < minIncrement ∧ minIncrement < 2 ^ 63) :
    ensureMonotonicPTS 0 lastPts minIncrement = 0 ↔ lastPts < 0 := by
  unfold ensureMonotonicPTS
  split
  · rename_i h
    exact iff_of_true rfl h
  · rename_i h
    refine iff_of_false (fun hzero => ?_) h
    by_cases hfits : lastPts + minIncrement < 2 ^ 63
    · rw [toInt64_of_range ⟨by omega, hfits⟩] at hzero
      omega
    · have := toInt64_of_overflow (n := lastPts + minIncrement) ⟨by omega, by omega⟩
      omega

/-- 一つのフレームで再開が認められるのは、跳びがないか、原点にちょうど跳ぶときである。 -/
theorem Config.recognised_iff {c : Config} {ctx : UserContext} (a : Arrival) (h : ctx.Anchored) :
    c.Recognised a ctx ↔ c.Unbroken a ctx := by
  refine imp_congr_right fun hjump => ?_
  have hset : ctx.hasTimeOrigin = true := (h a.1).1 hjump.1
  have horigin : ctx.origin a.2 = ctx.rtcTimeOrigin := by simp [UserContext.origin, hset]
  simp only [Config.encode_eq, UserContext.rtcTimeOrigin_setLastPts, UserContext.rtcTimeOrigin_initializeRtcTimeOrigin,
    UserContext.origin_updateStreamState, horigin]
  refine and_congr_right fun heq => ?_
  have hoffset : ctx.offset a.2 = 0 := by simp [UserContext.offset, horigin, heq]
  rw [hoffset]
  by_cases hts : c.format = .ts
  · simp [hts]
  · have hfirst : ensureMonotonicPTS 0 (-1) (c.timing.minIncrement a.1) = 0 := rfl
    rw [if_neg hts, hfirst, ensureMonotonicPTS_zero_iff (h a.1).2 (c.timing.minIncrement_range a.1)]
    simp [hts]

/-- どの列でも、再開がすべて認められるのは、どのフレームも、跳びがないか、原点にちょうど跳ぶときである。 -/
theorem restarts_recognised_iff (c : Config) (arrivals : List Arrival) :
    (encoding c).AllMeet c.Recognised arrivals {} ↔ (encoding c).AllMeet c.Unbroken arrivals {} :=
  System.allMeet_congr (S := encoding c) (I := UserContext.Anchored) (fun a _ h => h.step a)
    (fun a _ h => Config.recognised_iff a h) arrivals UserContext.anchored_init

/-- 映像が一分の間とぎれても、原点は変わらない。 -/
theorem not_restarts_recognised :
    ¬∀ (c : Config) (arrivals : List Arrival), (encoding c).AllMeet c.Recognised arrivals {} := by
  intro h
  obtain ⟨-, hjump, -⟩ := h ⟨.mp4, usualTiming⟩ [(.video, 1000), (.video, 61000)]
  have horigin := (hjump (by decide)).1
  revert horigin
  decide

end RtcEgress.Recording
