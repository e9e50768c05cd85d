import RtcEgress.Lib.Blocks
import RtcEgress.Lib.Rescale
import RtcEgress.Lib.System
import RtcEgress.Recording.IndividualAudio

/-!
# `src/recording_sink.cpp` の、符号化済みの映像に添える音声

`encodePassthroughAudioFrame` は、フレームの時刻が標本の時刻から離れると、残りを無音で補って渡し、時刻を合わせ直す。
`writePassthroughAudioSamples` は、溜まった標本を一フレームずつ符号化器に渡す。ヘッダは書かれていて、符号化器、変換器、
書き出しの呼び出しはすべて成功するものとする。変換器の結果は外から与える。
-/

namespace RtcEgress.Recording

open Lib

structure PassthroughConfig extends AudioConfig where
  frame_pos : 0 < frameSize := by decide
  frame_fits : frameSize < 2 ^ 31 := by decide
  rate : 0 < audioSampleRate ∧ audioSampleRate ≤ frameSize * 90000 := by decide

/-- 変換器の呼び出しの結果。 -/
structure Resampled where
  delay : Nat := 0
  converted : List Int := []
  /-- 標本を渡さずに取り出した残り。 -/
  tail : List Int := []

/-- `PassthroughContext` のうち、音声の欄。 -/
structure PassthroughAudio where
  rtcTimeOrigin : Nat := 0
  hasTimeOrigin : Bool := false
  swrContext : Bool := false
  inputSampleRate : Nat := 0
  inputChannels : Nat := 0
  nextAudioPts : Int := AV_NOPTS_VALUE
  audioSampleBuffer : List Int := []

/-- 符号化器に渡した一フレームの、`nextAudioPts` と標本。 -/
abbrev Block := Int × List Int

namespace PassthroughConfig

variable (c : PassthroughConfig)

/-- 一フレームの標本の数。 -/
def required : Nat := c.frameSize * c.audioChannels

/-- 一フレームの長さ。 -/
def duration : Int := rescale c.frameSize 90000 c.audioSampleRate

/-- 一フレームに写す標本。足りない分は 0 とする。 -/
def blockSamples (buffer : List Int) : List Int :=
  let consumed := min c.required buffer.length
  (List.range c.frameSize).flatMap fun i =>
    (List.range c.audioChannels).map fun ch =>
      let offset := i * c.audioChannels + ch
      if offset < consumed then buffer.getD offset 0 else 0

/-- 溜まった標本を渡す繰り返し。一回ごとに標本が減るので、標本の数だけ繰り返せば終わる。 -/
def writeBlocks (flushPartial : Bool) : Nat → PassthroughAudio → PassthroughAudio × List Block
  | 0, ctx => (ctx, [])
  | fuel + 1, ctx =>
      if ctx.audioSampleBuffer ≠ [] ∧ (c.required ≤ ctx.audioSampleBuffer.length ∨ flushPartial) then
        let consumed := min c.required ctx.audioSampleBuffer.length
        let r := writeBlocks flushPartial fuel
          { ctx with
            audioSampleBuffer := ctx.audioSampleBuffer.drop consumed
            nextAudioPts := toInt64 (ctx.nextAudioPts + c.duration) }
        (r.1, (ctx.nextAudioPts, c.blockSamples ctx.audioSampleBuffer) :: r.2)
      else (ctx, [])

def writePassthroughAudioSamples (swr : Resampled) (flushPartial : Bool) (ctx : PassthroughAudio) :
    PassthroughAudio × List Block :=
  let ctx :=
    if flushPartial && ctx.swrContext then { ctx with audioSampleBuffer := ctx.audioSampleBuffer ++ swr.tail } else ctx
  c.writeBlocks flushPartial ctx.audioSampleBuffer.length ctx

end PassthroughConfig

namespace PassthroughAudio

variable (c : PassthroughConfig) (swr : Resampled)

def anchor (timestamp : Nat) (ctx : PassthroughAudio) : PassthroughAudio :=
  if ctx.hasTimeOrigin then ctx else { ctx with rtcTimeOrigin := timestamp, hasTimeOrigin := true }

/-- `int64_t` での、原点からの隔たり。 -/
def elapsed (timestamp : Nat) (ctx : PassthroughAudio) : Int :=
  toInt64 (toInt64 timestamp - toInt64 (ctx.anchor timestamp).rtcTimeOrigin)

/-- `gap`。溜まった標本の時刻と比べる。 -/
def hasGap (rtcPts : Int) (ctx : PassthroughAudio) : Bool :=
  let pendingSamples := ctx.audioSampleBuffer.length / c.audioChannels + if ctx.swrContext then swr.delay else 0
  let pendingPts := rescale pendingSamples 90000 c.audioSampleRate
  ctx.nextAudioPts ≠ AV_NOPTS_VALUE && toInt64 (toInt64 (ctx.nextAudioPts + pendingPts) + 9000) < rtcPts

def formatChanged (frame : AudioFrame) (ctx : PassthroughAudio) : Bool :=
  0 < ctx.inputSampleRate && (ctx.inputSampleRate ≠ frame.sampleRate || ctx.inputChannels ≠ frame.channels)

/-- 残りを渡し、変換器を捨てる。 -/
def flushAll (ctx : PassthroughAudio) : PassthroughAudio × List Block :=
  let r := c.writePassthroughAudioSamples swr true ctx
  ({ r.1 with swrContext := false }, r.2)

/-- 次の標本の時刻を、フレームの時刻に合わせる。 -/
def schedule (gap : Bool) (rtcPts : Int) (ctx : PassthroughAudio) : PassthroughAudio :=
  if ctx.nextAudioPts = AV_NOPTS_VALUE then { ctx with nextAudioPts := rtcPts }
  else if gap then { ctx with nextAudioPts := max ctx.nextAudioPts rtcPts }
  else ctx

/-- フレームの標本を溜める。 -/
def append (frame : AudioFrame) (ctx : PassthroughAudio) : PassthroughAudio :=
  let ctx :=
    if frame.needsResampling c.toAudioConfig then
      { ctx with swrContext := true, audioSampleBuffer := ctx.audioSampleBuffer ++ swr.converted }
    else { ctx with audioSampleBuffer := ctx.audioSampleBuffer ++ frame.samples }
  { ctx with inputSampleRate := frame.sampleRate, inputChannels := frame.channels }

end PassthroughAudio

def encodePassthroughAudioFrame (c : PassthroughConfig) (swr : Resampled) (timestamp : Nat) (frame : AudioFrame)
    (ctx : PassthroughAudio) : PassthroughAudio × List Block :=
  let rtcPts := toInt64 (max 0 (ctx.elapsed timestamp) * 90)
  let ctx := ctx.anchor timestamp
  let gap := ctx.hasGap c swr rtcPts
  let r := if gap || ctx.formatChanged frame then ctx.flushAll c swr else (ctx, [])
  let ctx := (r.1.schedule gap rtcPts).append c swr frame
  let w := c.writePassthroughAudioSamples swr false ctx
  (w.1, r.2 ++ w.2)

/-! ## 途切れのない区間 -/

/-- 変換の要らない、揃った標本のフレーム。 -/
structure PcmFrame (c : PassthroughConfig) where
  timestamp : Nat
  data : List Int
  whole : c.audioChannels ∣ data.length

def PcmFrame.frame {c : PassthroughConfig} (f : PcmFrame c) : AudioFrame := ⟨f.data, c.audioSampleRate, c.audioChannels⟩

/-- 途切れずに続く標本。最初のフレームの時刻と、最初の標本の時刻を添える。 -/
structure Segment where
  rtc : Int
  start : Int
  samples : List Int

/-- 区間の全体を、無音で補って渡すフレーム。 -/
def Segment.blocks (c : PassthroughConfig) (g : Segment) : List Block :=
  stamped g.start c.duration (Lib.blocks 0 c.required g.samples)

/-- 補った標本の終わりの時刻。 -/
def Segment.finish (c : PassthroughConfig) (g : Segment) : Int :=
  g.start + (Lib.blocks 0 c.required g.samples).length * c.duration

structure Passage where
  context : PassthroughAudio
  closed : List Segment := []
  /-- まだ標本が続き得る区間。 -/
  current : Option Segment := none
  blocks : List Block := []

def Passage.segments (s : Passage) : List Segment := s.closed ++ s.current.toList

/-- 90kHz での、原点からのフレームの時刻。 -/
def PassthroughAudio.rtcTime (timestamp : Nat) (ctx : PassthroughAudio) : Int := max 0 (ctx.elapsed timestamp) * 90

/-- 溜まった標本を含めた時刻よりも、9000 を超えて先である。 -/
def Gap {c : PassthroughConfig} (f : PcmFrame c) (ctx : PassthroughAudio) : Prop :=
  ctx.nextAudioPts + rescale (ctx.audioSampleBuffer.length / c.audioChannels : Nat) 90000 c.audioSampleRate + 9000 <
    ctx.rtcTime f.timestamp

instance {c : PassthroughConfig} (f : PcmFrame c) (ctx : PassthroughAudio) : Decidable (Gap f ctx) :=
  inferInstanceAs (Decidable (_ < _))

/-- 途切れたフレームから、次の区間を始める。 -/
def Passage.extend {c : PassthroughConfig} (f : PcmFrame c) (s : Passage) : List Segment × Segment :=
  let rtc := s.context.rtcTime f.timestamp
  match s.current with
  | none => (s.closed, ⟨rtc, rtc, f.data⟩)
  | some g =>
      if Gap f s.context then (s.closed ++ [g], ⟨rtc, max (g.finish c) rtc, f.data⟩)
      else (s.closed, { g with samples := g.samples ++ f.data })

abbrev passing (c : PassthroughConfig) (swr : Resampled) : System (PcmFrame c) where
  State := Passage
  step f s :=
    let r := encodePassthroughAudioFrame c swr f.timestamp f.frame s.context
    let e := s.extend f
    { context := r.1, closed := e.1, current := some e.2, blocks := s.blocks ++ r.2 }

/-- 最後に残りを渡した後の、すべてのフレーム。 -/
def Passage.flush (c : PassthroughConfig) (swr : Resampled) (s : Passage) : List Block :=
  s.blocks ++ (c.writePassthroughAudioSamples swr true s.context).2

/-- フレームを処理する間、時刻の桁があふれない。 -/
def InRange {c : PassthroughConfig} (f : PcmFrame c) (s : Passage) : Prop :=
  let rtc := s.context.rtcTime f.timestamp
  let clock := if s.context.nextAudioPts = AV_NOPTS_VALUE then rtc else max s.context.nextAudioPts rtc
  clock + 9000 + ((s.context.audioSampleBuffer.length + f.data.length) / c.required + 2 : Nat) * c.duration < 2 ^ 63

instance {c : PassthroughConfig} (f : PcmFrame c) (s : Passage) : Decidable (InRange f s) :=
  inferInstanceAs (Decidable (_ < _))

/-! ## 一フレームと、その繰り返し -/

namespace PassthroughConfig

variable {c : PassthroughConfig}

theorem required_pos (c : PassthroughConfig) : 0 < c.required := Nat.mul_pos c.frame_pos c.channels_pos

theorem blockSamples_eq (c : PassthroughConfig) (buffer : List Int) :
    c.blockSamples buffer = buffer.take c.required ++ List.replicate (c.required - buffer.length) 0 := by
  have hrows : c.blockSamples buffer = (List.range c.required).map fun offset =>
      if offset < min c.required buffer.length then buffer.getD offset 0 else 0 :=
    flatMap_range_rows (fun offset => if offset < min c.required buffer.length then buffer.getD offset 0 else 0) c.frameSize
      c.audioChannels
  rw [hrows]
  refine List.ext_getElem (by simp; omega) fun i hi _ => ?_
  simp only [List.length_map, List.length_range] at hi
  by_cases h : i < buffer.length
  · have htake : i < (buffer.take c.required).length := by
      rw [List.length_take]
      omega
    rw [List.getElem_append_left htake]
    simp [hi, h, List.getD_eq_getElem?_getD]
  · have htake : (buffer.take c.required).length ≤ i := by
      rw [List.length_take]
      omega
    rw [List.getElem_append_right htake]
    simp [h]

/-- 一フレームの長さは、丸めても 0 にならない。 -/
theorem duration_eq (c : PassthroughConfig) :
    c.duration = roundDiv c.frameSize 90000 c.audioSampleRate ∧ 0 < c.duration ∧ c.duration < 2 ^ 62 := by
  obtain ⟨hrate, hcover⟩ := c.rate
  have hfits := c.frame_fits
  have hpos : 0 < roundDiv c.frameSize 90000 c.audioSampleRate := Nat.div_pos (Nat.le_add_right_of_le hcover) hrate
  have hle : roundDiv c.frameSize 90000 c.audioSampleRate ≤ c.frameSize * 90000 + c.audioSampleRate / 2 := Nat.div_le_self _ _
  have hhalf : c.audioSampleRate / 2 ≤ c.audioSampleRate := Nat.div_le_self _ _
  have hbound : roundDiv c.frameSize 90000 c.audioSampleRate < 2 ^ 62 := by
    generalize c.audioSampleRate / 2 = half at hle hhalf
    omega
  have heq : c.duration = roundDiv c.frameSize 90000 c.audioSampleRate := by
    unfold duration
    exact rescale_natCast (by omega)
  omega

theorem writeBlocks_done {flushPartial : Bool} {ctx : PassthroughAudio} (fuel : Nat)
    (h : ¬(ctx.audioSampleBuffer ≠ [] ∧ (c.required ≤ ctx.audioSampleBuffer.length ∨ flushPartial = true))) :
    c.writeBlocks flushPartial fuel ctx = (ctx, []) := by
  cases fuel with
  | zero => rfl
  | succ fuel => rw [writeBlocks, if_neg h]

/-- 揃ったフレームを順に渡す。 -/
theorem writeBlocks_false {fuel : Nat} {ctx : PassthroughAudio} (hfuel : ctx.audioSampleBuffer.length ≤ fuel)
    (hlo : 0 ≤ ctx.nextAudioPts)
    (hhi : ctx.nextAudioPts + (ctx.audioSampleBuffer.length / c.required : Nat) * c.duration < 2 ^ 63) :
    c.writeBlocks false fuel ctx =
      ({ ctx with
         audioSampleBuffer := rest c.required ctx.audioSampleBuffer
         nextAudioPts := ctx.nextAudioPts + (ctx.audioSampleBuffer.length / c.required : Nat) * c.duration },
        stamped ctx.nextAudioPts c.duration (fullBlocks c.required ctx.audioSampleBuffer)) := by
  have hr := c.required_pos
  obtain ⟨-, hdur, -⟩ := c.duration_eq
  induction fuel generalizing ctx with
  | zero =>
      rw [writeBlocks_done 0 (by simp; omega), fullBlocks_of_lt (by omega), rest_of_lt (by omega),
        Nat.div_eq_of_lt (by omega)]
      simp [stamped]
  | succ fuel ih =>
      by_cases h : ctx.audioSampleBuffer.length < c.required
      · rw [writeBlocks_done _ (by simp; omega), fullBlocks_of_lt h, rest_of_lt h, Nat.div_eq_of_lt h]
        simp [stamped]
      · have hle : c.required ≤ ctx.audioSampleBuffer.length := by omega
        have hne : ctx.audioSampleBuffer ≠ [] := by
          intro hnil
          simp [hnil] at hle
          omega
        have hdiv := length_div_of_le hr hle
        have hnonneg : 0 ≤ ((ctx.audioSampleBuffer.drop c.required).length / c.required : Nat) * c.duration :=
          Int.mul_nonneg (Int.natCast_nonneg _) (by omega)
        have hclock : ctx.nextAudioPts + (ctx.audioSampleBuffer.length / c.required : Nat) * c.duration =
            ctx.nextAudioPts + c.duration + ((ctx.audioSampleBuffer.drop c.required).length / c.required : Nat) * c.duration := by
          rw [hdiv]
          push_cast
          ring
        rw [hclock] at hhi
        have hnext : toInt64 (ctx.nextAudioPts + c.duration) = ctx.nextAudioPts + c.duration :=
          toInt64_of_range ⟨by omega, by omega⟩
        have hshort : (ctx.audioSampleBuffer.drop c.required).length ≤ fuel := by
          rw [List.length_drop]
          omega
        have hblock : c.blockSamples ctx.audioSampleBuffer = ctx.audioSampleBuffer.take c.required := by
          rw [blockSamples_eq, Nat.sub_eq_zero_of_le hle]
          simp
        rw [writeBlocks, if_pos ⟨hne, .inl hle⟩, Nat.min_eq_left hle, hnext, hclock, hblock, fullBlocks_of_le hr hle,
          rest_of_le hr hle]
        have hrest := @ih { ctx with
          audioSampleBuffer := ctx.audioSampleBuffer.drop c.required
          nextAudioPts := ctx.nextAudioPts + c.duration } hshort (by simp only; omega) (by simpa using hhi)
        simp only [hrest, stamped]

/-- 足りない残りは、補った一フレームとして渡す。 -/
theorem writeBlocks_true {fuel : Nat} {ctx : PassthroughAudio} (hfuel : ctx.audioSampleBuffer.length ≤ fuel)
    (hshort : ctx.audioSampleBuffer.length < c.required) :
    c.writeBlocks true fuel ctx =
      ({ ctx with
         audioSampleBuffer := []
         nextAudioPts :=
           if ctx.audioSampleBuffer = [] then ctx.nextAudioPts else toInt64 (ctx.nextAudioPts + c.duration) },
        stamped ctx.nextAudioPts c.duration (paddedRest 0 c.required ctx.audioSampleBuffer)) := by
  by_cases hnil : ctx.audioSampleBuffer = []
  · rw [writeBlocks_done _ (by simp [hnil])]
    have hctx : ({ ctx with audioSampleBuffer := [] } : PassthroughAudio) = ctx := by rw [← hnil]
    simp [paddedRest, hnil, stamped, hctx]
  · have hpos := List.length_pos_iff.mpr hnil
    obtain ⟨fuel, rfl⟩ : ∃ n, fuel = n + 1 := ⟨fuel - 1, by omega⟩
    have hdrop : ctx.audioSampleBuffer.drop ctx.audioSampleBuffer.length = [] := List.drop_length
    have hblock : c.blockSamples ctx.audioSampleBuffer =
        ctx.audioSampleBuffer ++ List.replicate (c.required - ctx.audioSampleBuffer.length) 0 := by
      rw [blockSamples_eq, List.take_of_length_le (by omega)]
    rw [writeBlocks, if_pos ⟨hnil, .inr rfl⟩, Nat.min_eq_right (by omega), hblock]
    simp only [hdrop]
    rw [writeBlocks_done _ (by simp)]
    simp [paddedRest, hnil, stamped]

end PassthroughConfig

/-! ## 一つのフレーム -/

/-- 溜まった標本が一フレームに足りなければ、残りの長さも一フレームに満たない。 -/
theorem pendingPts_le {c : PassthroughConfig} {length : Nat} (h : length < c.required) :
    0 ≤ rescale (length / c.audioChannels : Nat) 90000 c.audioSampleRate ∧
      rescale (length / c.audioChannels : Nat) 90000 c.audioSampleRate ≤ c.duration := by
  obtain ⟨hdur, -, hlt⟩ := c.duration_eq
  have hle : length / c.audioChannels ≤ c.frameSize := Nat.le_of_lt (Nat.div_lt_of_lt_mul (by rwa [Nat.mul_comm]))
  have hmono := roundDiv_mono 90000 c.audioSampleRate hle
  have heq : rescale (length / c.audioChannels : Nat) 90000 c.audioSampleRate =
      roundDiv (length / c.audioChannels) 90000 c.audioSampleRate := rescale_natCast (by omega)
  omega

/-- 区間の、揃ったフレームまでを渡した状態。 -/
structure Segment.Written (c : PassthroughConfig) (g : Segment) (ctx : PassthroughAudio) : Prop where
  start : 0 ≤ g.start
  buffer : ctx.audioSampleBuffer = rest c.required g.samples
  clock : ctx.nextAudioPts = g.start + (fullBlocks c.required g.samples).length * c.duration

/-- 変換器は使われない。 -/
structure PassthroughAudio.Direct (c : PassthroughConfig) (ctx : PassthroughAudio) : Prop where
  swrContext : ctx.swrContext = false
  format : 0 < ctx.inputSampleRate → ctx.inputSampleRate = c.audioSampleRate ∧ ctx.inputChannels = c.audioChannels

theorem PcmFrame.samples_frame {c : PassthroughConfig} (f : PcmFrame c) : f.frame.samples = f.data := by
  simp only [AudioFrame.samples, PcmFrame.frame, Nat.div_mul_cancel f.whole, List.take_length]

theorem PcmFrame.needsResampling_frame {c : PassthroughConfig} (f : PcmFrame c) :
    f.frame.needsResampling c.toAudioConfig = false := by
  simp [AudioFrame.needsResampling, PcmFrame.frame]

namespace PassthroughAudio

variable {c : PassthroughConfig} {ctx : PassthroughAudio}

/-- 原点を定めても、他の欄は変わらない。 -/
theorem anchor_eq (timestamp : Nat) (ctx : PassthroughAudio) :
    ∃ origin, ctx.anchor timestamp = { ctx with rtcTimeOrigin := origin, hasTimeOrigin := true } := by
  unfold anchor
  split
  · rename_i h
    exact ⟨ctx.rtcTimeOrigin, by rw [← h]⟩
  · exact ⟨timestamp, rfl⟩

@[simp] theorem anchor_nextAudioPts (timestamp : Nat) (ctx : PassthroughAudio) :
    (ctx.anchor timestamp).nextAudioPts = ctx.nextAudioPts := by
  obtain ⟨origin, heq⟩ := anchor_eq timestamp ctx
  rw [heq]

@[simp] theorem anchor_audioSampleBuffer (timestamp : Nat) (ctx : PassthroughAudio) :
    (ctx.anchor timestamp).audioSampleBuffer = ctx.audioSampleBuffer := by
  obtain ⟨origin, heq⟩ := anchor_eq timestamp ctx
  rw [heq]

@[simp] theorem anchor_hasGap (swr : Resampled) (timestamp : Nat) (rtcPts : Int) (ctx : PassthroughAudio) :
    (ctx.anchor timestamp).hasGap c swr rtcPts = ctx.hasGap c swr rtcPts := by
  obtain ⟨origin, heq⟩ := anchor_eq timestamp ctx
  rw [heq]
  rfl

theorem rtcTime_nonneg (timestamp : Nat) (ctx : PassthroughAudio) : 0 ≤ ctx.rtcTime timestamp := by
  unfold rtcTime
  omega

theorem Direct.anchor (timestamp : Nat) (h : ctx.Direct c) : (ctx.anchor timestamp).Direct c := by
  obtain ⟨origin, heq⟩ := anchor_eq timestamp ctx
  rw [heq]
  exact ⟨h.swrContext, h.format⟩

theorem Direct.formatChanged (f : PcmFrame c) (h : ctx.Direct c) : ctx.formatChanged f.frame = false := by
  by_cases hrate : 0 < ctx.inputSampleRate
  · obtain ⟨heq, heq'⟩ := h.format hrate
    simp [PassthroughAudio.formatChanged, PcmFrame.frame, heq, heq']
  · simp [PassthroughAudio.formatChanged, hrate]

/-- 溜めた標本のうち、揃ったフレームを渡す。 -/
theorem Direct.append_write (swr : Resampled) (f : PcmFrame c) (h : ctx.swrContext = false) (hlo : 0 ≤ ctx.nextAudioPts)
    (hhi : ctx.nextAudioPts + ((ctx.audioSampleBuffer.length + f.data.length) / c.required : Nat) * c.duration < 2 ^ 63) :
    let w := c.writePassthroughAudioSamples swr false (ctx.append c swr f.frame)
    w.2 = stamped ctx.nextAudioPts c.duration (fullBlocks c.required (ctx.audioSampleBuffer ++ f.data)) ∧
      w.1.audioSampleBuffer = rest c.required (ctx.audioSampleBuffer ++ f.data) ∧
      w.1.nextAudioPts = ctx.nextAudioPts + (fullBlocks c.required (ctx.audioSampleBuffer ++ f.data)).length * c.duration ∧
      w.1.Direct c := by
  have hbuffer : (ctx.append c swr f.frame).audioSampleBuffer = ctx.audioSampleBuffer ++ f.data := by
    simp [append, f.needsResampling_frame, f.samples_frame]
  have hnext : (ctx.append c swr f.frame).nextAudioPts = ctx.nextAudioPts := by
    simp [append, f.needsResampling_frame]
  have hswr : (ctx.append c swr f.frame).swrContext = false := by
    simp [append, f.needsResampling_frame, h]
  have hwrite := PassthroughConfig.writeBlocks_false (Nat.le_refl (ctx.append c swr f.frame).audioSampleBuffer.length) (by omega)
    (by rw [hbuffer, hnext, List.length_append]; exact hhi)
  intro w
  have hw : w = c.writeBlocks false (ctx.append c swr f.frame).audioSampleBuffer.length (ctx.append c swr f.frame) := rfl
  rw [hw, hwrite, hbuffer, hnext, length_fullBlocks]
  exact ⟨rfl, rfl, rfl, hswr, fun _ => ⟨rfl, rfl⟩⟩

/-- 途切れの判定は、桁があふれなければ、時刻の比較である。 -/
theorem Direct.hasGap_eq {f : PcmFrame c} (swr : Resampled) (h : ctx.swrContext = false)
    (hbuffer : ctx.audioSampleBuffer.length < c.required) (hlo : 0 ≤ ctx.nextAudioPts)
    (hhi : ctx.nextAudioPts + c.duration + 9000 < 2 ^ 63) :
    ctx.hasGap c swr (ctx.rtcTime f.timestamp) = decide (Gap f ctx) := by
  obtain ⟨hpos, hle⟩ := pendingPts_le hbuffer
  have hfirst : ctx.nextAudioPts ≠ AV_NOPTS_VALUE := by
    unfold AV_NOPTS_VALUE
    omega
  have hpending : ctx.audioSampleBuffer.length / c.audioChannels + (if ctx.swrContext then swr.delay else 0) =
      ctx.audioSampleBuffer.length / c.audioChannels := by simp [h]
  simp only [hasGap, hpending, hfirst, ne_eq, not_false_eq_true, decide_true, Bool.true_and]
  refine decide_eq_decide.mpr ?_
  unfold Gap
  generalize rescale (ctx.audioSampleBuffer.length / c.audioChannels : Nat) 90000 c.audioSampleRate = pendingPts at hpos hle ⊢
  have hsum : toInt64 (ctx.nextAudioPts + pendingPts) = ctx.nextAudioPts + pendingPts :=
    toInt64_of_range ⟨by omega, by omega⟩
  have hlimit : toInt64 (ctx.nextAudioPts + pendingPts + 9000) = ctx.nextAudioPts + pendingPts + 9000 :=
    toInt64_of_range ⟨by omega, by omega⟩
  rw [hsum, hlimit]

end PassthroughAudio

theorem Segment.blocks_eq (c : PassthroughConfig) (g : Segment) :
    g.blocks c = stamped g.start c.duration (fullBlocks c.required g.samples) ++
      stamped (g.start + (fullBlocks c.required g.samples).length * c.duration) c.duration
        (paddedRest 0 c.required (rest c.required g.samples)) := by
  rw [blocks, Lib.blocks, stamped_append]

theorem Segment.finish_eq (c : PassthroughConfig) (g : Segment) :
    g.finish c = g.start + (fullBlocks c.required g.samples).length * c.duration +
      (paddedRest (0 : Int) c.required (rest c.required g.samples)).length * c.duration := by
  rw [finish, Lib.blocks, List.length_append]
  push_cast
  ring

theorem Segment.Written.nextAudioPts_nonneg {c : PassthroughConfig} {g : Segment} {ctx : PassthroughAudio}
    (h : g.Written c ctx) : 0 ≤ ctx.nextAudioPts := by
  obtain ⟨-, hdur, -⟩ := c.duration_eq
  rw [h.clock]
  exact Int.add_nonneg h.start (Int.mul_nonneg (Int.natCast_nonneg _) (by omega))

/-- 残りを渡すと、区間の全体が渡される。 -/
theorem Segment.Written.flush_blocks {c : PassthroughConfig} {g : Segment} {ctx : PassthroughAudio} (swr : Resampled)
    (h : g.Written c ctx) (hd : ctx.Direct c) :
    stamped g.start c.duration (fullBlocks c.required g.samples) ++ (c.writePassthroughAudioSamples swr true ctx).2 =
      g.blocks c := by
  have hshort : ctx.audioSampleBuffer.length < c.required := h.buffer ▸ length_rest_lt c.required_pos g.samples
  simp only [PassthroughConfig.writePassthroughAudioSamples, hd.swrContext, Bool.and_false, Bool.false_eq_true, ↓reduceIte,
    PassthroughConfig.writeBlocks_true (Nat.le_refl ctx.audioSampleBuffer.length) hshort]
  rw [Segment.blocks_eq, h.buffer, h.clock]

/-- 渡した後の時刻は、桁があふれなければ、補った標本の終わりである。 -/
theorem Segment.Written.flush {c : PassthroughConfig} {g : Segment} {ctx : PassthroughAudio} (swr : Resampled)
    (h : g.Written c ctx) (hd : ctx.Direct c) (hhi : ctx.nextAudioPts + c.duration < 2 ^ 63) :
    let w := c.writePassthroughAudioSamples swr true ctx
    w.1.audioSampleBuffer = [] ∧ w.1.nextAudioPts = g.finish c := by
  have hshort : ctx.audioSampleBuffer.length < c.required := h.buffer ▸ length_rest_lt c.required_pos g.samples
  have hlo := h.nextAudioPts_nonneg
  obtain ⟨-, hdur, -⟩ := c.duration_eq
  have hnext : toInt64 (ctx.nextAudioPts + c.duration) = ctx.nextAudioPts + c.duration :=
    toInt64_of_range ⟨by omega, hhi⟩
  have hfinish : g.finish c = ctx.nextAudioPts +
      (paddedRest (0 : Int) c.required ctx.audioSampleBuffer).length * c.duration := by
    rw [Segment.finish_eq, h.buffer, h.clock]
  simp only [PassthroughConfig.writePassthroughAudioSamples, hd.swrContext, Bool.and_false, Bool.false_eq_true, ↓reduceIte,
    PassthroughConfig.writeBlocks_true (Nat.le_refl ctx.audioSampleBuffer.length) hshort, hnext]
  rw [hfinish, paddedRest]
  split <;> simp

/-! ## 列の全体 -/

/-- 次の区間は、前の区間を補った終わりと、フレームの時刻の、遅い方から始まる。 -/
def Follows (c : PassthroughConfig) (g g' : Segment) : Prop := g'.start = max (g.finish c) g'.rtc

/-- 渡したフレームは、終わった区間の全体と、続いている区間の揃ったフレームである。 -/
def Passage.Progress (c : PassthroughConfig) (s : Passage) : Prop :=
  match s.current with
  | none => s.closed = [] ∧ s.blocks = [] ∧ s.context.nextAudioPts = AV_NOPTS_VALUE ∧ s.context.audioSampleBuffer = []
  | some g =>
      g.Written c s.context ∧
        s.blocks = s.closed.flatMap (Segment.blocks c) ++ stamped g.start c.duration (fullBlocks c.required g.samples)

structure Passage.Inv (c : PassthroughConfig) (s : Passage) : Prop where
  direct : s.context.Direct c
  progress : s.Progress c
  follows : s.segments.IsChain (Follows c)

/-- 桁があふれなければ、途切れの有無は `Gap` で決まり、書式は変わらない。 -/
theorem encode_eq {c : PassthroughConfig} {ctx : PassthroughAudio} {gap : Bool} (swr : Resampled) (f : PcmFrame c)
    (hd : ctx.Direct c) (hrtc : ctx.rtcTime f.timestamp < 2 ^ 63) (hgap : ctx.hasGap c swr (ctx.rtcTime f.timestamp) = gap) :
    encodePassthroughAudioFrame c swr f.timestamp f.frame ctx =
      let r := if gap then (ctx.anchor f.timestamp).flushAll c swr else (ctx.anchor f.timestamp, [])
      let w := c.writePassthroughAudioSamples swr false
        ((r.1.schedule gap (ctx.rtcTime f.timestamp)).append c swr f.frame)
      (w.1, r.2 ++ w.2) := by
  have hpos := ctx.rtcTime_nonneg f.timestamp
  have hpts : toInt64 (max 0 (ctx.elapsed f.timestamp) * 90) = ctx.rtcTime f.timestamp :=
    toInt64_of_range (n := ctx.rtcTime f.timestamp) ⟨by omega, hrtc⟩
  simp only [encodePassthroughAudioFrame, hpts, PassthroughAudio.anchor_hasGap, hgap,
    (hd.anchor f.timestamp).formatChanged f, Bool.or_false]

/-- 補う分は、一フレームを超えない。 -/
theorem Segment.Written.finish_le {c : PassthroughConfig} {g : Segment} {ctx : PassthroughAudio} (h : g.Written c ctx) :
    ctx.nextAudioPts ≤ g.finish c ∧ g.finish c ≤ ctx.nextAudioPts + c.duration := by
  obtain ⟨-, hdur, -⟩ := c.duration_eq
  rw [Segment.finish_eq, h.clock, paddedRest]
  split
  · simp only [List.length_nil, Nat.cast_zero, Int.zero_mul]
    omega
  · simp only [List.length_singleton, Nat.cast_one, Int.one_mul]
    omega

/-- 途切れずに続くフレーム。 -/
theorem encode_continue {c : PassthroughConfig} {g : Segment} {ctx : PassthroughAudio} (swr : Resampled) (f : PcmFrame c)
    (h : g.Written c ctx) (hd : ctx.Direct c) (hgap : ctx.hasGap c swr (ctx.rtcTime f.timestamp) = false)
    (hrtc : ctx.rtcTime f.timestamp < 2 ^ 63)
    (hhi : ctx.nextAudioPts + ((ctx.audioSampleBuffer.length + f.data.length) / c.required : Nat) * c.duration < 2 ^ 63) :
    let r := encodePassthroughAudioFrame c swr f.timestamp f.frame ctx
    let g' := { g with samples := g.samples ++ f.data }
    stamped g.start c.duration (fullBlocks c.required g.samples) ++ r.2 =
        stamped g'.start c.duration (fullBlocks c.required g'.samples) ∧
      g'.Written c r.1 ∧ r.1.Direct c := by
  intro r g'
  have hlo := h.nextAudioPts_nonneg
  have hfirst : ctx.nextAudioPts ≠ AV_NOPTS_VALUE := by
    unfold AV_NOPTS_VALUE
    omega
  have hschedule : (ctx.anchor f.timestamp).schedule false (ctx.rtcTime f.timestamp) = ctx.anchor f.timestamp := by
    simp [PassthroughAudio.schedule, hfirst]
  obtain ⟨hblocks, hbuffer, hnext, hdirect⟩ := @PassthroughAudio.Direct.append_write c (ctx.anchor f.timestamp) swr f
    (hd.anchor f.timestamp).swrContext (by simpa using hlo) (by simpa using hhi)
  have hr : r = c.writePassthroughAudioSamples swr false ((ctx.anchor f.timestamp).append c swr f.frame) := by
    simp only [r, encode_eq swr f hd hrtc hgap, Bool.false_eq_true, ↓reduceIte, hschedule, List.nil_append]
  have hfull := fullBlocks_append c.required_pos g.samples f.data
  simp only [PassthroughAudio.anchor_audioSampleBuffer, PassthroughAudio.anchor_nextAudioPts, h.buffer, h.clock]
    at hblocks hbuffer hnext
  rw [hr]
  refine ⟨?_, ⟨h.start, ?_, ?_⟩, hdirect⟩
  · rw [hblocks, hfull, stamped_append]
  · rw [hbuffer]
    exact (rest_append c.required_pos g.samples f.data).symm
  · rw [hnext, hfull, List.length_append]
    push_cast
    ring

/-- 新しい区間の最初のフレーム。 -/
theorem encode_start {c : PassthroughConfig} {ctx : PassthroughAudio} (swr : Resampled) (f : PcmFrame c) (rtc : Int)
    (hswr : ctx.swrContext = false) (hbuffer : ctx.audioSampleBuffer = []) (hlo : 0 ≤ ctx.nextAudioPts)
    (hhi : ctx.nextAudioPts + (f.data.length / c.required : Nat) * c.duration < 2 ^ 63) :
    let w := c.writePassthroughAudioSamples swr false (ctx.append c swr f.frame)
    let g : Segment := ⟨rtc, ctx.nextAudioPts, f.data⟩
    w.2 = stamped g.start c.duration (fullBlocks c.required g.samples) ∧ g.Written c w.1 ∧ w.1.Direct c := by
  intro w g
  obtain ⟨hblocks, hrest, hnext, hdirect⟩ := PassthroughAudio.Direct.append_write swr f hswr hlo (by simpa [hbuffer] using hhi)
  rw [hbuffer, List.nil_append] at hblocks hrest hnext
  exact ⟨hblocks, ⟨hlo, hrest, hnext⟩, hdirect⟩

/-- 途切れた後のフレーム。 -/
theorem encode_gap {c : PassthroughConfig} {g : Segment} {ctx : PassthroughAudio} (swr : Resampled) (f : PcmFrame c)
    (h : g.Written c ctx) (hd : ctx.Direct c) (hgap : ctx.hasGap c swr (ctx.rtcTime f.timestamp) = true)
    (hrtc : ctx.rtcTime f.timestamp < 2 ^ 63) (hflush : ctx.nextAudioPts + c.duration < 2 ^ 63)
    (hhi : max (g.finish c) (ctx.rtcTime f.timestamp) + (f.data.length / c.required : Nat) * c.duration < 2 ^ 63) :
    let r := encodePassthroughAudioFrame c swr f.timestamp f.frame ctx
    let g' : Segment := ⟨ctx.rtcTime f.timestamp, max (g.finish c) (ctx.rtcTime f.timestamp), f.data⟩
    stamped g.start c.duration (fullBlocks c.required g.samples) ++ r.2 =
        g.blocks c ++ stamped g'.start c.duration (fullBlocks c.required g'.samples) ∧
      g'.Written c r.1 ∧ r.1.Direct c := by
  intro r g'
  have hanchored : g.Written c (ctx.anchor f.timestamp) := by
    obtain ⟨origin, heq⟩ := PassthroughAudio.anchor_eq f.timestamp ctx
    rw [heq]
    exact ⟨h.start, h.buffer, h.clock⟩
  have hblocks := hanchored.flush_blocks swr (hd.anchor f.timestamp)
  obtain ⟨hempty, hfinish⟩ := hanchored.flush swr (hd.anchor f.timestamp) (by simpa using hflush)
  have hpos : 0 ≤ g.finish c := by
    obtain ⟨-, hdur, -⟩ := c.duration_eq
    exact Int.add_nonneg h.start (Int.mul_nonneg (Int.natCast_nonneg _) (by omega))
  have hfirst : g.finish c ≠ AV_NOPTS_VALUE := by
    unfold AV_NOPTS_VALUE
    omega
  -- 残りを渡した後で、時刻を合わせ直す
  obtain ⟨ctx', hctx'⟩ : ∃ ctx', ctx' = ((ctx.anchor f.timestamp).flushAll c swr).1.schedule true (ctx.rtcTime f.timestamp) :=
    ⟨_, rfl⟩
  have hnext : ctx'.nextAudioPts = max (g.finish c) (ctx.rtcTime f.timestamp) := by
    simp [hctx', PassthroughAudio.schedule, PassthroughAudio.flushAll, hfinish, hfirst]
  have hbuffer : ctx'.audioSampleBuffer = [] := by
    simp [hctx', PassthroughAudio.schedule, PassthroughAudio.flushAll, hfinish, hfirst, hempty]
  have hswr : ctx'.swrContext = false := by
    simp [hctx', PassthroughAudio.schedule, PassthroughAudio.flushAll, hfinish, hfirst]
  obtain ⟨hstart, hwritten, hdirect'⟩ := encode_start swr f (ctx.rtcTime f.timestamp) hswr hbuffer (by omega)
    (by rw [hnext]; exact hhi)
  have hr : r = ((c.writePassthroughAudioSamples swr false (ctx'.append c swr f.frame)).1,
      (c.writePassthroughAudioSamples swr true (ctx.anchor f.timestamp)).2 ++
        (c.writePassthroughAudioSamples swr false (ctx'.append c swr f.frame)).2) := by
    simp only [r, encode_eq swr f hd hrtc hgap, ↓reduceIte, hctx']
    rfl
  rw [hr]
  rw [hnext] at hstart hwritten
  refine ⟨?_, hwritten, hdirect'⟩
  rw [← List.append_assoc, hblocks, hstart]

theorem Passage.Progress.buffer_lt {c : PassthroughConfig} {s : Passage} (h : s.Progress c) :
    s.context.audioSampleBuffer.length < c.required := by
  unfold Passage.Progress at h
  split at h
  · obtain ⟨-, -, -, hbuffer⟩ := h
    rw [hbuffer]
    exact c.required_pos
  · rename_i g _
    rw [h.1.buffer]
    exact length_rest_lt c.required_pos g.samples

/-- 範囲の条件から、一つのフレームの間の時刻の上限を得る。 -/
theorem InRange.bounds {c : PassthroughConfig} {f : PcmFrame c} {s : Passage} (h : InRange f s) :
    let rtc := s.context.rtcTime f.timestamp
    let clock := if s.context.nextAudioPts = AV_NOPTS_VALUE then rtc else max s.context.nextAudioPts rtc
    rtc ≤ clock ∧
      clock + 9000 + ((s.context.audioSampleBuffer.length + f.data.length) / c.required : Nat) * c.duration +
        2 * c.duration < 2 ^ 63 ∧
      0 ≤ ((s.context.audioSampleBuffer.length + f.data.length) / c.required : Nat) * c.duration ∧
      (f.data.length / c.required : Nat) * c.duration ≤
        ((s.context.audioSampleBuffer.length + f.data.length) / c.required : Nat) * c.duration := by
  intro rtc clock
  obtain ⟨-, hdur, -⟩ := c.duration_eq
  have hsum : clock + 9000 + ((s.context.audioSampleBuffer.length + f.data.length) / c.required + 2 : Nat) *
      c.duration < 2 ^ 63 := h
  rw [Nat.cast_add, Int.add_mul] at hsum
  have hle : f.data.length / c.required ≤ (s.context.audioSampleBuffer.length + f.data.length) / c.required :=
    Nat.div_le_div_right (Nat.le_add_left _ _)
  refine ⟨?_, by omega, Int.mul_nonneg (Int.natCast_nonneg _) (by omega),
    Int.mul_le_mul_of_nonneg_right (Int.ofNat_le.mpr hle) (by omega)⟩
  simp only [clock]
  split <;> omega

/-- 最初のフレーム。 -/
theorem Passage.Inv.step_first {c : PassthroughConfig} {s : Passage} (swr : Resampled) (f : PcmFrame c) (h : s.Inv c)
    (hrange : InRange f s) (hcurrent : s.current = none) : Inv c ((passing c swr).step f s) := by
  have hprogress := h.progress
  unfold Passage.Progress at hprogress
  rw [hcurrent] at hprogress
  obtain ⟨hclosed, hblocks, hnone, hbuffer⟩ := hprogress
  obtain ⟨hrtc, hsum, hnonneg, hdata⟩ := hrange.bounds
  simp only [hnone, ↓reduceIte] at hsum
  obtain ⟨-, hdur, -⟩ := c.duration_eq
  have hpos := s.context.rtcTime_nonneg f.timestamp
  have hgap : s.context.hasGap c swr (s.context.rtcTime f.timestamp) = false := by
    simp [PassthroughAudio.hasGap, hnone]
  obtain ⟨ctx', hctx'⟩ : ∃ ctx', ctx' = (s.context.anchor f.timestamp).schedule false (s.context.rtcTime f.timestamp) := ⟨_, rfl⟩
  have hnext : ctx'.nextAudioPts = s.context.rtcTime f.timestamp := by
    simp [hctx', PassthroughAudio.schedule, hnone]
  obtain ⟨hstart, hwritten, hdirect⟩ := @encode_start c ctx' swr f (s.context.rtcTime f.timestamp)
    (by simp [hctx', PassthroughAudio.schedule, hnone, (h.direct.anchor f.timestamp).swrContext])
    (by simp [hctx', PassthroughAudio.schedule, hnone, hbuffer]) (by omega) (by rw [hnext]; omega)
  have hr : encodePassthroughAudioFrame c swr f.timestamp f.frame s.context =
      c.writePassthroughAudioSamples swr false (ctx'.append c swr f.frame) := by
    simp only [encode_eq swr f h.direct (by omega) hgap, Bool.false_eq_true, ↓reduceIte, List.nil_append, hctx']
  rw [hnext] at hstart hwritten
  refine ⟨?_, ?_, ?_⟩
  · simpa only [hr] using hdirect
  · simp only [Passage.Progress, Passage.extend, hcurrent, hr, hclosed, hblocks, List.nil_append, List.flatMap_nil]
    exact ⟨hwritten, hstart⟩
  · simp only [Passage.segments, Passage.extend, hcurrent, hclosed, List.nil_append, Option.toList_some]
    exact .singleton _

theorem Passage.Inv.step {c : PassthroughConfig} {s : Passage} (swr : Resampled) (f : PcmFrame c) (h : s.Inv c)
    (hrange : InRange f s) : Inv c ((passing c swr).step f s) := by
  cases hcurrent : s.current with
  | none => exact h.step_first swr f hrange hcurrent
  | some g =>
      have hprogress := h.progress
      have hfollows := h.follows
      have hshort := hprogress.buffer_lt
      unfold Passage.Progress at hprogress
      simp only [Passage.segments, hcurrent, Option.toList_some] at hprogress hfollows
      obtain ⟨hwritten, hblocks⟩ := hprogress
      obtain ⟨hrtc, hsum, hnonneg, hdata⟩ := hrange.bounds
      obtain ⟨-, hdur, -⟩ := c.duration_eq
      have hlo := hwritten.nextAudioPts_nonneg
      have hfirst : s.context.nextAudioPts ≠ AV_NOPTS_VALUE := by
        unfold AV_NOPTS_VALUE
        omega
      rw [if_neg hfirst] at hrtc hsum
      have hgap := PassthroughAudio.Direct.hasGap_eq (f := f) swr h.direct.swrContext hshort hlo (by omega)
      by_cases hg : Gap f s.context
      · rw [decide_eq_true hg] at hgap
        obtain ⟨-, hfinish⟩ := hwritten.finish_le
        obtain ⟨hnew, hwritten', hdirect⟩ := encode_gap swr f hwritten h.direct hgap (by omega) (by omega) (by omega)
        refine ⟨hdirect, ?_, ?_⟩
        · simp only [Passage.Progress, Passage.extend, hcurrent, if_pos hg]
          refine ⟨hwritten', ?_⟩
          rw [hblocks, List.append_assoc, hnew, List.flatMap_append, List.flatMap_singleton, List.append_assoc]
        · simp only [Passage.segments, Passage.extend, hcurrent, if_pos hg, Option.toList_some]
          refine hfollows.append (.singleton _) fun a ha b hb => ?_
          obtain rfl : g = a := by simpa using ha
          obtain rfl : _ = b := by simpa using hb
          rfl
      · rw [decide_eq_false hg] at hgap
        obtain ⟨hnew, hwritten', hdirect⟩ := encode_continue swr f hwritten h.direct hgap (by omega) (by omega)
        refine ⟨hdirect, ?_, ?_⟩
        · simp only [Passage.Progress, Passage.extend, hcurrent, if_neg hg]
          refine ⟨hwritten', ?_⟩
          rw [hblocks, List.append_assoc, hnew]
        · simp only [Passage.segments, Passage.extend, hcurrent, if_neg hg, Option.toList_some]
          obtain ⟨hclosed, -, hlast⟩ := List.isChain_append.mp hfollows
          refine hclosed.append (.singleton _) fun a ha b hb => ?_
          obtain rfl : _ = b := by simpa using hb
          exact hlast a ha g rfl

theorem Passage.Inv.run {c : PassthroughConfig} {swr : Resampled} (frames : List (PcmFrame c)) {s : Passage} (h : s.Inv c)
    (hrange : (passing c swr).AllMeet InRange frames s) :
    Inv c ((passing c swr).run frames s) ∧
      (passing c swr).AllMeet (fun f s => ((passing c swr).step f s).context.audioSampleBuffer.length < c.required) frames s := by
  induction frames generalizing s with
  | nil => exact ⟨h, trivial⟩
  | cons f frames ih =>
      have hstep := h.step swr f hrange.1
      obtain ⟨hinv, hall⟩ := ih hstep hrange.2
      exact ⟨hinv, hstep.progress.buffer_lt, hall⟩

/-- 区間の標本は、届いた標本のすべてである。 -/
theorem Passage.samples_run {c : PassthroughConfig} (swr : Resampled) (frames : List (PcmFrame c)) (s : Passage) :
    ((passing c swr).run frames s).segments.flatMap (·.samples) = s.segments.flatMap (·.samples) ++ frames.flatMap (·.data) := by
  induction frames generalizing s with
  | nil => simp [System.run]
  | cons f frames ih =>
      have hstep : ((passing c swr).step f s).segments.flatMap (·.samples) = s.segments.flatMap (·.samples) ++ f.data := by
        simp only [Passage.segments, Passage.extend]
        cases s.current with
        | none => simp
        | some g =>
            by_cases hg : Gap f s.context
            · simp [hg]
            · simp [hg]
      rw [System.run, ih, hstep, List.flatMap_cons, List.append_assoc]

/-- 最後の残りを渡すと、すべての区間の全体が渡される。 -/
theorem Passage.Inv.flush_eq {c : PassthroughConfig} {s : Passage} (swr : Resampled) (h : s.Inv c) :
    s.flush c swr = s.segments.flatMap (Segment.blocks c) := by
  have hprogress := h.progress
  unfold Passage.Progress at hprogress
  unfold Passage.flush Passage.segments
  cases hcurrent : s.current with
  | none =>
      rw [hcurrent] at hprogress
      obtain ⟨hclosed, hblocks, -, hbuffer⟩ := hprogress
      simp [hclosed, hblocks, hbuffer, PassthroughConfig.writePassthroughAudioSamples, h.direct.swrContext,
        PassthroughConfig.writeBlocks]
  | some g =>
      rw [hcurrent] at hprogress
      obtain ⟨hwritten, hblocks⟩ := hprogress
      rw [hblocks, List.append_assoc, hwritten.flush_blocks swr h.direct, List.flatMap_append]
      simp

/-- 区間の標本は、区間の終わりまで補って渡される。 -/
theorem Segment.samples_blocks (c : PassthroughConfig) (g : Segment) :
    (g.blocks c).flatMap (·.2) = Lib.padded 0 c.required g.samples := by
  rw [Segment.blocks, List.flatMap_def, map_snd_stamped, flatten_blocks c.required_pos]

theorem Segment.start_le_finish (c : PassthroughConfig) (g : Segment) : g.start ≤ g.finish c := by
  obtain ⟨-, hdur, -⟩ := c.duration_eq
  have hnonneg : 0 ≤ (Lib.blocks (0 : Int) c.required g.samples).length * c.duration :=
    Int.mul_nonneg (Int.natCast_nonneg _) (by omega)
  unfold Segment.finish
  omega

instance (c : PassthroughConfig) : IsTrans Segment fun g g' => g.finish c ≤ g'.start where
  trans _ g _ h h' := (h.trans (g.start_le_finish c)).trans h'

/-- 続く区間のフレームは、前の区間の終わりより後にある。 -/
theorem pairwise_blocks {c : PassthroughConfig} {segments : List Segment} (h : segments.IsChain (Follows c)) :
    (segments.flatMap (Segment.blocks c)).Pairwise fun a b => a.1 < b.1 := by
  obtain ⟨-, hdur, -⟩ := c.duration_eq
  have hlater : segments.Pairwise fun g g' => g.finish c ≤ g'.start :=
    List.isChain_iff_pairwise.mp (h.imp fun g g' (hstart : g'.start = _) => hstart ▸ Int.le_max_left _ _)
  rw [List.pairwise_flatMap]
  refine ⟨fun g _ => stamped_pairwise hdur _ _, hlater.imp fun {g g'} hle a ha b hb => ?_⟩
  have hfirst := (mem_stamped hdur ha).2
  have hsecond := (mem_stamped hdur hb).1
  unfold Segment.finish at hle
  omega

/-- 映像が原点を定めているかもしれない、音声の始め。 -/
def PassthroughAudio.begin (hasTimeOrigin : Bool) (rtcTimeOrigin : Nat) : PassthroughAudio where
  hasTimeOrigin := hasTimeOrigin
  rtcTimeOrigin := rtcTimeOrigin

theorem Passage.inv_begin (c : PassthroughConfig) (hasTimeOrigin : Bool) (rtcTimeOrigin : Nat) :
    Inv c { context := .begin hasTimeOrigin rtcTimeOrigin } where
  direct := ⟨rfl, fun h => absurd h (Nat.lt_irrefl 0)⟩
  progress := ⟨rfl, rfl, rfl, rfl⟩
  follows := .nil

/-- 音声は、途切れと最後とで補うほかは、そのまま順に渡される。途切れるまでは一フレームの長さずつ進み、途切れると合わせ直す。 -/
theorem audio_passed (c : PassthroughConfig) (swr : Resampled) (hasTimeOrigin : Bool) (rtcTimeOrigin : Nat)
    (frames : List (PcmFrame c))
    (hrange : (passing c swr).AllMeet InRange frames ⟨.begin hasTimeOrigin rtcTimeOrigin, [], none, []⟩) :
    let s := (passing c swr).run frames ⟨.begin hasTimeOrigin rtcTimeOrigin, [], none, []⟩
    (s.segments.flatMap (·.samples) = frames.flatMap (·.data) ∧
      (s.flush c swr).flatMap (·.2) = s.segments.flatMap fun g => Lib.padded 0 c.required g.samples) ∧
    (passing c swr).AllMeet (fun f s => ((passing c swr).step f s).context.audioSampleBuffer.length < c.required) frames
      ⟨.begin hasTimeOrigin rtcTimeOrigin, [], none, []⟩ ∧
    (s.flush c swr).Pairwise (fun a b => a.1 < b.1) ∧
    s.flush c swr = s.segments.flatMap (Segment.blocks c) ∧
    s.segments.IsChain (Follows c) := by
  intro s
  obtain ⟨hinv, hshort⟩ := Passage.Inv.run frames (Passage.inv_begin c hasTimeOrigin rtcTimeOrigin) hrange
  have hflush := hinv.flush_eq swr
  refine ⟨⟨?_, ?_⟩, hshort, ?_, hflush, hinv.follows⟩
  · simpa [Passage.segments] using Passage.samples_run swr frames ⟨.begin hasTimeOrigin rtcTimeOrigin, [], none, []⟩
  · rw [hflush, List.flatMap_assoc]
    simp only [Segment.samples_blocks]
    rfl
  · rw [hflush]
    exact pairwise_blocks hinv.follows

/-- 二つの標本を一フレームとする、モノラルの設定。 -/
def monoPairs : PassthroughConfig where
  audioSampleRate := 48000
  audioChannels := 1
  frameSize := 2
  frame_pos := Nat.two_pos

/-- 三つの標本の後、一秒の途切れがある。 -/
def gapFrames : List (PcmFrame monoPairs) :=
  [{ timestamp := 1000, data := [1, 2, 3], whole := by decide }, { timestamp := 2000, data := [4], whole := by decide }]

theorem audio_passed_gapFrames :
    let s := (passing monoPairs {}).run gapFrames ⟨.begin false 0, [], none, []⟩
    (s.segments.flatMap (·.samples) = gapFrames.flatMap (·.data) ∧
      (s.flush monoPairs {}).flatMap (·.2) = s.segments.flatMap fun g => Lib.padded 0 monoPairs.required g.samples) ∧
    (passing monoPairs {}).AllMeet
      (fun f s => ((passing monoPairs {}).step f s).context.audioSampleBuffer.length < monoPairs.required) gapFrames
      ⟨.begin false 0, [], none, []⟩ ∧
    (s.flush monoPairs {}).Pairwise (fun a b => a.1 < b.1) ∧
    s.flush monoPairs {} = s.segments.flatMap (Segment.blocks monoPairs) ∧
    s.segments.IsChain (Follows monoPairs) :=
  audio_passed monoPairs {} false 0 gapFrames (by decide)

/-- 64 ビットの終わりの時刻では、三つ目のフレームの時刻が負になる。 -/
theorem not_audio_passed :
    ¬∀ (c : PassthroughConfig) (swr : Resampled) (hasTimeOrigin : Bool) (rtcTimeOrigin : Nat) (frames : List (PcmFrame c)),
      (((passing c swr).run frames ⟨.begin hasTimeOrigin rtcTimeOrigin, [], none, []⟩).flush c swr).Pairwise
        fun a b => a.1 < b.1 := by
  intro h
  have hpairs := h monoPairs {} true 0
    [{ timestamp := 102481911520608620, data := [1, 2, 3, 4, 5, 6], whole := by decide }]
  revert hpairs
  decide

end RtcEgress.Recording
