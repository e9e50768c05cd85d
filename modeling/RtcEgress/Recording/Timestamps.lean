import RtcEgress.Lib.Int64
import RtcEgress.Lib.Stamps
import RtcEgress.Lib.System

/-!
# `src/recording_sink.cpp` の `pts` の計算

映像と音声は、先に届いたフレームの時刻を共通の原点とし、原点からのミリ秒を 90kHz の `pts` に直す。前の `pts` がないことは
負の値で表される。時刻は 64 ビットのミリ秒で、任意の自然数とする。
-/

namespace RtcEgress.Recording

open Lib

inductive Medium where
  | video | audio
  deriving DecidableEq

/-- 時刻の計算に使う設定。AAC では、標本化の周波数は 96000 以下で、一フレームの標本は 480 以上である。 -/
structure Timing where
  videoFps : Int
  /-- `audioCodecContext->frame_size`。 -/
  frameSize : Int
  /-- `audioCodecContext->sample_rate`。 -/
  sampleRate : Int
  video : 1 ≤ videoFps ∧ videoFps ≤ 90000 := by decide
  audio : 0 < sampleRate ∧ sampleRate ≤ frameSize * 90000 ∧ frameSize < 2 ^ 31 := by decide

/-- `UserContext` のうち、時刻の欄。 -/
structure UserContext where
  rtcTimeOrigin : Nat := 0
  hasTimeOrigin : Bool := false
  lastVideoPts : Int := -1
  lastAudioPts : Int := -1
  videoStreamActive : Bool := false
  audioStreamActive : Bool := false
  lastVideoRtcTs : Nat := 0
  lastAudioRtcTs : Nat := 0

namespace UserContext

def lastPts (m : Medium) (ctx : UserContext) : Int :=
  match m with
  | .video => ctx.lastVideoPts
  | .audio => ctx.lastAudioPts

def setLastPts (m : Medium) (pts : Int) (ctx : UserContext) : UserContext :=
  match m with
  | .video => { ctx with lastVideoPts := pts }
  | .audio => { ctx with lastAudioPts := pts }

def initializeRtcTimeOrigin (rtcTimestamp : Nat) (ctx : UserContext) : UserContext :=
  if ctx.hasTimeOrigin then ctx else { ctx with rtcTimeOrigin := rtcTimestamp, hasTimeOrigin := true }

end UserContext

def ensureMonotonicPTS (newPts lastPts minIncrement : Int) : Int :=
  -- 最初のフレームは、そのまま使う
  if lastPts < 0 then newPts
  else if lastPts < newPts then newPts
  else toInt64 (lastPts + minIncrement)

/-- `calculateVideoPTS` と `calculateAudioPTS` に共通の計算。 -/
def calculatePTS (m : Medium) (minIncrement : Int) (rtcTimestamp : Nat) (ctx : UserContext) : Int × UserContext :=
  let ctx := ctx.initializeRtcTimeOrigin rtcTimestamp
  let relativeMs := toInt64 (rtcTimestamp - ctx.rtcTimeOrigin)
  let pts := ensureMonotonicPTS (toInt64 (relativeMs * 90)) (ctx.lastPts m) minIncrement
  (pts, ctx.setLastPts m pts)

def Timing.minIncrement (t : Timing) : Medium → Int
  | .video => 90000 / t.videoFps
  | .audio => toInt64 (t.frameSize * 90000) / t.sampleRate

def calculateVideoPTS (t : Timing) : Nat → UserContext → Int × UserContext :=
  calculatePTS .video (t.minIncrement .video)

def calculateAudioPTS (t : Timing) : Nat → UserContext → Int × UserContext :=
  calculatePTS .audio (t.minIncrement .audio)

/-! ## 二つの流れ -/

/-- 一人の利用者の、種類と時刻。 -/
abbrev Arrival := Medium × Nat

structure Stamping where
  context : UserContext := {}
  log : List (Medium × Int) := []

/-- 返した `pts` を、種類ごとに順に並べる。 -/
def Stamping.stamps (m : Medium) (s : Stamping) : List Int := (s.log.filter (·.1 = m)).map (·.2)

def Timing.calculate (t : Timing) : Medium → Nat → UserContext → Int × UserContext
  | .video => calculateVideoPTS t
  | .audio => calculateAudioPTS t

/-- 映像と音声のフレームを、任意の順に処理する。 -/
abbrev stamping (t : Timing) : System Arrival where
  State := Stamping
  step a s :=
    let r := t.calculate a.1 a.2 s.context
    { context := r.2, log := s.log ++ [(a.1, r.1)] }

/-- フレームの時刻を測る原点。 -/
def UserContext.origin (rtcTimestamp : Nat) (ctx : UserContext) : Nat :=
  if ctx.hasTimeOrigin then ctx.rtcTimeOrigin else rtcTimestamp

/-- 原点からの、90kHz での隔たり。 -/
def UserContext.offset (rtcTimestamp : Nat) (ctx : UserContext) : Int :=
  toInt64 ((rtcTimestamp - ctx.origin rtcTimestamp) * 90)

/-- 種類の最初のフレームは原点より前でなく、前の `pts` に足すときは桁があふれない。 -/
def Timing.Sound (t : Timing) (a : Arrival) (s : Stamping) : Prop :=
  let last := s.context.lastPts a.1
  if last < 0 then 0 ≤ s.context.offset a.2
  else s.context.offset a.2 ≤ last → last + t.minIncrement a.1 < 2 ^ 63

/-! ## 一つのフレーム -/

@[simp] theorem UserContext.lastPts_setLastPts_self (m : Medium) (pts : Int) (ctx : UserContext) :
    (ctx.setLastPts m pts).lastPts m = pts := by
  cases m <;> rfl

theorem UserContext.lastPts_setLastPts_of_ne {m m' : Medium} (h : m' ≠ m) (pts : Int) (ctx : UserContext) :
    (ctx.setLastPts m pts).lastPts m' = ctx.lastPts m' := by
  cases m <;> cases m' <;> first | rfl | exact absurd rfl h

@[simp] theorem UserContext.lastPts_initializeRtcTimeOrigin (m : Medium) (rtcTimestamp : Nat) (ctx : UserContext) :
    (ctx.initializeRtcTimeOrigin rtcTimestamp).lastPts m = ctx.lastPts m := by
  unfold UserContext.initializeRtcTimeOrigin
  split <;> cases m <;> rfl

@[simp] theorem UserContext.rtcTimeOrigin_initializeRtcTimeOrigin (rtcTimestamp : Nat) (ctx : UserContext) :
    (ctx.initializeRtcTimeOrigin rtcTimestamp).rtcTimeOrigin = ctx.origin rtcTimestamp := by
  unfold UserContext.initializeRtcTimeOrigin UserContext.origin
  split <;> rfl

theorem calculatePTS_eq (m : Medium) (minIncrement : Int) (rtcTimestamp : Nat) (ctx : UserContext) :
    calculatePTS m minIncrement rtcTimestamp ctx =
      (ensureMonotonicPTS (ctx.offset rtcTimestamp) (ctx.lastPts m) minIncrement,
        (ctx.initializeRtcTimeOrigin rtcTimestamp).setLastPts m
          (ensureMonotonicPTS (ctx.offset rtcTimestamp) (ctx.lastPts m) minIncrement)) := by
  simp [calculatePTS, UserContext.offset]

theorem Timing.calculate_eq (t : Timing) (m : Medium) : t.calculate m = calculatePTS m (t.minIncrement m) := by
  cases m <;> rfl

/-- 増分は正で、64 ビットに収まる。 -/
theorem Timing.minIncrement_range (t : Timing) (m : Medium) : 0 < t.minIncrement m ∧ t.minIncrement m < 2 ^ 63 := by
  cases m with
  | video =>
      obtain ⟨hlo, hhi⟩ := t.video
      have hpos : 1 ≤ 90000 / t.videoFps := Int.le_ediv_of_mul_le (by omega) (by omega)
      have hle := Int.ediv_le_self t.videoFps (show (0 : Int) ≤ 90000 by omega)
      simp only [Timing.minIncrement]
      omega
  | audio =>
      obtain ⟨hrate, hcover, hsize⟩ := t.audio
      have hpos : 1 ≤ t.frameSize * 90000 / t.sampleRate := Int.le_ediv_of_mul_le hrate (by omega)
      have hle := Int.ediv_le_self t.sampleRate (show 0 ≤ t.frameSize * 90000 by omega)
      have hfits : toInt64 (t.frameSize * 90000) = t.frameSize * 90000 := toInt64_of_range ⟨by omega, by omega⟩
      simp only [Timing.minIncrement, hfits]
      omega

/-- 前の値より大きい値を得るのは、増やした値の桁があふれないときである。 -/
theorem lt_ensureMonotonicPTS_iff {newPts lastPts minIncrement : Int} (hlast : 0 ≤ lastPts ∧ lastPts < 2 ^ 63)
    (hinc : 0 < minIncrement ∧ minIncrement < 2 ^ 63) :
    lastPts < ensureMonotonicPTS newPts lastPts minIncrement ↔ (newPts ≤ lastPts → lastPts + minIncrement < 2 ^ 63) := by
  rw [ensureMonotonicPTS, if_neg (by omega)]
  split
  · rename_i h
    exact iff_of_true h fun hle => absurd h (by omega)
  · rename_i h
    rw [lt_toInt64_add_iff hlast hinc]
    exact ⟨fun hfits _ => hfits, fun hfits => hfits (by omega)⟩

theorem ensureMonotonicPTS_lt {newPts lastPts minIncrement : Int} (h : newPts < 2 ^ 63) :
    ensureMonotonicPTS newPts lastPts minIncrement < 2 ^ 63 := by
  have := toInt64_range (lastPts + minIncrement)
  unfold ensureMonotonicPTS
  split_ifs <;> omega

/-! ## 二つの流れの `pts` -/

/-- 文脈の前の `pts` は、返した最後の値である。 -/
def Stamping.Tracked (s : Stamping) : Prop :=
  ∀ m, s.context.lastPts m = (s.stamps m).getLast?.getD (-1) ∧ s.context.lastPts m < 2 ^ 63

theorem Stamping.stamps_concat (m m' : Medium) (pts : Int) (s : Stamping) (ctx : UserContext) :
    ({ context := ctx, log := s.log ++ [(m', pts)] } : Stamping).stamps m =
      if m' = m then s.stamps m ++ [pts] else s.stamps m := by
  by_cases h : m' = m <;> simp [Stamping.stamps, h]

theorem stamps_step (t : Timing) (a : Arrival) (s : Stamping) (m : Medium) :
    ((stamping t).step a s).stamps m =
      if a.1 = m then s.stamps m ++ [ensureMonotonicPTS (s.context.offset a.2) (s.context.lastPts m) (t.minIncrement m)]
      else s.stamps m := by
  simp only [Timing.calculate_eq, calculatePTS_eq, Stamping.stamps_concat]
  split
  · rename_i h
    rw [h]
  · rfl

theorem lastPts_step (t : Timing) (a : Arrival) (s : Stamping) (m : Medium) :
    ((stamping t).step a s).context.lastPts m =
      if a.1 = m then ensureMonotonicPTS (s.context.offset a.2) (s.context.lastPts m) (t.minIncrement m)
      else s.context.lastPts m := by
  simp only [Timing.calculate_eq, calculatePTS_eq]
  split
  · rename_i h
    rw [h, UserContext.lastPts_setLastPts_self]
  · rename_i h
    rw [UserContext.lastPts_setLastPts_of_ne (Ne.symm h), UserContext.lastPts_initializeRtcTimeOrigin]

theorem Stamping.tracked_init : Tracked {} := by
  intro m
  cases m <;> decide

theorem Stamping.Tracked.step {t : Timing} {s : Stamping} (a : Arrival) (h : s.Tracked) :
    Tracked ((stamping t).step a s) := by
  intro m
  rw [lastPts_step, stamps_step]
  split
  · have hoffset : s.context.offset a.2 < 2 ^ 63 := (toInt64_range _).2
    exact ⟨by simp, ensureMonotonicPTS_lt hoffset⟩
  · exact h m

/-- 新しい `pts` は、自分の種類の列の最後だけと比べる。 -/
theorem spaced_step_iff (t : Timing) (m : Medium) (ts : Nat) (s : Stamping) :
    (∀ m', Spaced 1 (((stamping t).step (m, ts) s).stamps m')) ↔
      (∀ m', Spaced 1 (s.stamps m')) ∧ 0 ≤ ensureMonotonicPTS (s.context.offset ts) (s.context.lastPts m) (t.minIncrement m) ∧
        ∀ b ∈ (s.stamps m).getLast?, b + 1 ≤
          ensureMonotonicPTS (s.context.offset ts) (s.context.lastPts m) (t.minIncrement m) := by
  constructor
  · intro hall
    have hm := hall m
    rw [stamps_step, if_pos rfl, spaced_concat] at hm
    refine ⟨fun m' => ?_, hm.2⟩
    have hm' := hall m'
    rw [stamps_step] at hm'
    split at hm'
    · exact (spaced_concat.mp hm').1
    · exact hm'
  · rintro ⟨hall, hnew⟩ m'
    rw [stamps_step]
    split
    · rename_i heq
      obtain rfl : m = m' := heq
      exact spaced_concat.mpr ⟨hall m, hnew⟩
    · exact hall m'

/-- 一つのフレームの後も増え続けるのは、そのフレームが条件を満たすときである。 -/
theorem spaced_step {t : Timing} {s : Stamping} (a : Arrival) (h : s.Tracked) :
    (∀ m, Spaced 1 (((stamping t).step a s).stamps m)) ↔ (∀ m, Spaced 1 (s.stamps m)) ∧ t.Sound a s := by
  obtain ⟨m, ts⟩ := a
  obtain ⟨hlast, hfits⟩ := h m
  rw [spaced_step_iff]
  refine and_congr_right fun hall => ?_
  cases hs : (s.stamps m).getLast? with
  | none =>
      rw [hs] at hlast
      have hneg : s.context.lastPts m < 0 := by
        rw [hlast]
        decide
      simp [Timing.Sound, ensureMonotonicPTS, hneg]
  | some last =>
      rw [hs] at hlast
      obtain rfl : s.context.lastPts m = last := hlast
      have hpos : 0 ≤ s.context.lastPts m := (hall m).nonneg _ (List.mem_of_getLast? hs)
      have hsound : t.Sound (m, ts) s ↔
          s.context.lastPts m < ensureMonotonicPTS (s.context.offset ts) (s.context.lastPts m) (t.minIncrement m) := by
        rw [lt_ensureMonotonicPTS_iff ⟨hpos, hfits⟩ (t.minIncrement_range m)]
        exact iff_of_eq (if_neg (Int.not_lt.mpr hpos))
      rw [hsound]
      constructor
      · rintro ⟨-, hlt⟩
        have := hlt _ rfl
        omega
      · intro hlt
        refine ⟨by omega, fun b hb => ?_⟩
        obtain rfl : s.context.lastPts m = b := Option.some.inj hb
        omega

/-- どの順に届いても、`pts` が負にならずに増え続けるのは、すべてのフレームが条件を満たすときである。 -/
theorem stamps_spaced_iff (t : Timing) (arrivals : List Arrival) :
    (∀ m, Spaced 1 (((stamping t).run arrivals {}).stamps m)) ↔ (stamping t).AllMeet t.Sound arrivals {} := by
  have hrun := System.run_iff_of_invariant (S := stamping t) (P := fun s => ∀ m, Spaced 1 (s.stamps m)) (g := t.Sound)
    (fun a _ => Stamping.Tracked.step a) (fun a _ => spaced_step a) arrivals Stamping.tracked_init
  rw [hrun]
  exact and_iff_right fun _ => spaced_nil

/-- 毎秒 30 枚の映像と、48kHz の AAC。 -/
def usualTiming : Timing where
  videoFps := 30
  frameSize := 1024
  sampleRate := 48000

/-- 映像より 40 ミリ秒早い音声が後に届くと、音声の最初の `pts` が負になる。 -/
theorem not_stamps_spaced :
    ¬∀ (t : Timing) (arrivals : List Arrival) (m : Medium), Spaced 1 (((stamping t).run arrivals {}).stamps m) := by
  intro h
  have hneg : (-3600 : Int) ∈ ((stamping usualTiming).run [(.video, 1000), (.audio, 960)] {}).stamps .audio := by decide
  have := (h usualTiming [(.video, 1000), (.audio, 960)] .audio).nonneg _ hneg
  omega

end RtcEgress.Recording
