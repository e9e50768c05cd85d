import Mathlib.Data.List.Basic
import RtcEgress.Lib.System

/-!
# `src/recording_sink.cpp` の利用者ごとの音声

`encodeIndividualAudioFrame` は、届いた標本を溜め、一フレーム分を超えると符号化器か変換器に渡して、渡した分を除く。
`cleanupEncoder` は残りを無音で補い、最後のフレームとして渡す。符号化器と変換器の呼び出しはすべて成功するものとし、
符号化器の標本の形式は、`setupAudioEncoder` が選ぶ `AV_SAMPLE_FMT_FLTP` である。
-/

namespace RtcEgress.Recording

open Lib

structure AudioConfig where
  audioSampleRate : Nat
  audioChannels : Nat
  /-- `audioCodecContext->frame_size`。 -/
  frameSize : Nat
  channels_pos : 0 < audioChannels := by decide

def AudioConfig.samplesPerFrame (c : AudioConfig) : Nat := if c.frameSize = 0 then 1024 else c.frameSize

/-- 標本は、チャンネルの順に並ぶ。 -/
structure AudioFrame where
  data : List Int
  sampleRate : Nat
  channels : Nat

/-- すべてのチャンネルが揃った標本。 -/
def AudioFrame.samples (frame : AudioFrame) : List Int :=
  let inputSamples := frame.data.length / frame.channels
  frame.data.take (inputSamples * frame.channels)

def AudioFrame.needsResampling (c : AudioConfig) (frame : AudioFrame) : Bool :=
  frame.sampleRate ≠ c.audioSampleRate || frame.channels ≠ c.audioChannels

structure AudioContext where
  audioSampleBuffer : List Int := []
  swrContext : Bool := false

/-- 一回の呼び出しで渡した標本と、そのとき溜まっていた標本の数。 -/
structure Handover where
  samples : List Int
  buffered : Nat

/-- 溜まった標本の先頭から読む。終わりより後では、値は定まらない。 -/
def readSamples (buffer : List Int) (count : Nat) : List Int := (List.range count).map (buffer.getD · 0)

/-- `swr_convert` に渡す標本。 -/
def resamplingInput (c : AudioConfig) (frame : AudioFrame) (buffer : List Int) : List Int :=
  let inputSamplesForResampling := c.samplesPerFrame * frame.channels / c.audioChannels
  readSamples buffer (inputSamplesForResampling * frame.channels)

/-- チャンネルごとに `float` に直す標本。足りないチャンネルには、最後のチャンネルを繰り返す。 -/
def directInput (c : AudioConfig) (frame : AudioFrame) (buffer : List Int) : List Int :=
  (List.range c.samplesPerFrame).flatMap fun i =>
    (List.range c.audioChannels).map fun ch => buffer.getD (i * frame.channels + min ch (frame.channels - 1)) 0

def encodeIndividualAudioFrame (c : AudioConfig) (frame : AudioFrame) (ctx : AudioContext) : AudioContext × Option Handover :=
  let needsResampling := frame.needsResampling c
  let ctx := { ctx with swrContext := ctx.swrContext || needsResampling }
  let buffer := ctx.audioSampleBuffer ++ frame.samples
  let requiredSamples := c.samplesPerFrame * frame.channels
  if buffer.length < requiredSamples then ({ ctx with audioSampleBuffer := buffer }, none)
  else
    let samples :=
      if needsResampling && ctx.swrContext then resamplingInput c frame buffer else directInput c frame buffer
    let samplesConsumed := c.samplesPerFrame * frame.channels
    let rest := if samplesConsumed < buffer.length then buffer.drop samplesConsumed else []
    ({ ctx with audioSampleBuffer := rest }, some ⟨samples, buffer.length⟩)

/-- 残りを、一フレーム分まで無音で補う。 -/
def silencePadded (c : AudioConfig) (buffer : List Int) : List Int :=
  buffer ++ List.replicate (c.samplesPerFrame * c.audioChannels - buffer.length) 0

/-- 補った残りの先頭から作る、最後のフレーム。 -/
def finalFrame (c : AudioConfig) (buffer : List Int) : AudioFrame where
  data := (silencePadded c buffer).take (c.samplesPerFrame * c.audioChannels)
  sampleRate := c.audioSampleRate
  channels := c.audioChannels

/-- `cleanupEncoder` の、音声の残りの扱い。最後のフレームは、補った残りの後ろに足される。 -/
def cleanupEncoder (c : AudioConfig) (ctx : AudioContext) : AudioContext × Option Handover :=
  if ctx.audioSampleBuffer = [] then (ctx, none)
  else
    let r := encodeIndividualAudioFrame c (finalFrame c ctx.audioSampleBuffer)
      { ctx with audioSampleBuffer := silencePadded c ctx.audioSampleBuffer }
    ({ r.1 with audioSampleBuffer := [] }, r.2)

/-! ## 一人の利用者の音声 -/

/-- 利用者の音声の、変わらない形式。 -/
structure Source where
  sampleRate : Nat
  channels : Nat
  channels_pos : 0 < channels := by decide

structure Intake where
  context : AudioContext := {}
  /-- 届いたすべての標本。 -/
  input : List Int := []
  /-- 渡したすべての標本。 -/
  handed : List Int := []
  handovers : List Handover := []

def Handover.samplesOf (h : Option Handover) : List Int := (h.map Handover.samples).getD []

def Source.frame (src : Source) (data : List Int) : AudioFrame := ⟨data, src.sampleRate, src.channels⟩

abbrev intake (c : AudioConfig) (src : Source) : System (List Int) where
  State := Intake
  step data s :=
    let r := encodeIndividualAudioFrame c (src.frame data) s.context
    { context := r.1
      input := s.input ++ (src.frame data).samples
      handed := s.handed ++ Handover.samplesOf r.2
      handovers := s.handovers ++ r.2.toList }

/-- 渡した標本は、溜まっている標本を除いた、届いた標本の全体である。溜まった数より多くは読まず、一フレーム分は残さない。 -/
structure Intake.Kept (c : AudioConfig) (src : Source) (s : Intake) : Prop where
  handed : s.handed ++ s.context.audioSampleBuffer = s.input
  bounded : ∀ h ∈ s.handovers, h.samples.length ≤ h.buffered
  drained : s.context.audioSampleBuffer.length < c.samplesPerFrame * src.channels

/-- 最後には、届いた標本をすべて渡し、その後に無音だけを足す。 -/
def Intake.Flushed (c : AudioConfig) (s : Intake) : Prop :=
  ∃ n, s.handed ++ Handover.samplesOf (cleanupEncoder c s.context).2 = s.input ++ List.replicate n 0

/-- 溜まる標本は二フレーム分に満たず、渡すときの数の計算は一フレーム分に一致する。 -/
def Fits (c : AudioConfig) (src : Source) (data : List Int) (s : Intake) : Prop :=
  let buffered := s.context.audioSampleBuffer.length + (src.frame data).samples.length
  let required := c.samplesPerFrame * src.channels
  buffered < 2 * required ∧ (required ≤ buffered → c.samplesPerFrame * src.channels / c.audioChannels = c.samplesPerFrame)

/-! ## 読み取る数 -/

theorem AudioConfig.samplesPerFrame_pos (c : AudioConfig) : 0 < c.samplesPerFrame := by
  unfold samplesPerFrame
  split <;> omega

@[simp] theorem length_readSamples (buffer : List Int) (count : Nat) : (readSamples buffer count).length = count := by
  simp [readSamples]

theorem readSamples_eq_take {buffer : List Int} {count : Nat} (h : count ≤ buffer.length) :
    readSamples buffer count = buffer.take count := by
  refine List.ext_getElem (by simp [h]) fun i hi _ => ?_
  rw [length_readSamples] at hi
  simp [readSamples, List.getD_eq_getElem?_getD, List.getElem?_eq_getElem (show i < buffer.length by omega)]

/-- 行ごとに読んだ値は、通しの番号の順に読んだ値と同じである。 -/
theorem flatMap_range_rows (f : Nat → Int) (n c : Nat) :
    ((List.range n).flatMap fun i => (List.range c).map fun ch => f (i * c + ch)) = (List.range (n * c)).map f := by
  induction n with
  | zero => simp
  | succ n ih => simp [List.range_succ, ih, Nat.succ_mul, List.range_add, Function.comp_def]

/-- チャンネルの数が同じなら、チャンネルごとに読んでも、先頭から順に読むのと同じである。 -/
theorem directInput_eq {c : AudioConfig} {frame : AudioFrame} (h : frame.channels = c.audioChannels) (buffer : List Int) :
    directInput c frame buffer = readSamples buffer (c.samplesPerFrame * frame.channels) := by
  have hrow : ∀ i, ((List.range c.audioChannels).map fun ch => buffer.getD (i * frame.channels + min ch (frame.channels - 1)) 0) =
      (List.range c.audioChannels).map fun ch => buffer.getD (i * c.audioChannels + ch) 0 := by
    intro i
    refine List.map_congr_left fun ch hch => ?_
    rw [List.mem_range] at hch
    rw [h, Nat.min_eq_left (by omega)]
  simp only [directInput, hrow]
  rw [readSamples, h]
  exact flatMap_range_rows (buffer.getD · 0) c.samplesPerFrame c.audioChannels

/-- 一フレームのために読む標本の数。 -/
def readCount (c : AudioConfig) (frame : AudioFrame) : Nat :=
  if frame.needsResampling c then c.samplesPerFrame * frame.channels / c.audioChannels * frame.channels
  else c.samplesPerFrame * frame.channels

theorem channels_of_not_needsResampling {c : AudioConfig} {frame : AudioFrame} (h : frame.needsResampling c = false) :
    frame.channels = c.audioChannels := by
  simp [AudioFrame.needsResampling] at h
  exact h.2

/-- 一フレームに足りなければ溜めるだけで、足りれば先頭の標本を渡し、一フレーム分を除く。 -/
theorem encodeIndividualAudioFrame_eq (c : AudioConfig) (frame : AudioFrame) (ctx : AudioContext) :
    let buffer := ctx.audioSampleBuffer ++ frame.samples
    encodeIndividualAudioFrame c frame ctx =
      if buffer.length < c.samplesPerFrame * frame.channels then
        ({ audioSampleBuffer := buffer, swrContext := ctx.swrContext || frame.needsResampling c }, none)
      else
        ({ audioSampleBuffer := buffer.drop (c.samplesPerFrame * frame.channels)
           swrContext := ctx.swrContext || frame.needsResampling c },
          some ⟨readSamples buffer (readCount c frame), buffer.length⟩) := by
  intro buffer
  have hrest : (if c.samplesPerFrame * frame.channels < buffer.length then buffer.drop (c.samplesPerFrame * frame.channels)
      else []) = buffer.drop (c.samplesPerFrame * frame.channels) := by
    split
    · rfl
    · rename_i h
      rw [List.drop_eq_nil_of_le (by omega)]
  have hread : (if frame.needsResampling c && (ctx.swrContext || frame.needsResampling c) then resamplingInput c frame buffer
      else directInput c frame buffer) = readSamples buffer (readCount c frame) := by
    cases hn : frame.needsResampling c with
    | false => simpa [readCount, hn] using directInput_eq (channels_of_not_needsResampling hn) buffer
    | true => simp [readCount, hn, resamplingInput]
  simp only [encodeIndividualAudioFrame, ← hread]
  split
  · rfl
  · exact congrArg (fun rest => ((⟨rest, _⟩ : AudioContext), some _)) hrest

/-- 読む数が一フレーム分になるのは、変換のための割り算が一フレームの数に戻るときである。 -/
theorem readCount_eq_iff {c : AudioConfig} {frame : AudioFrame} (hpos : 0 < frame.channels) :
    readCount c frame = c.samplesPerFrame * frame.channels ↔
      c.samplesPerFrame * frame.channels / c.audioChannels = c.samplesPerFrame := by
  unfold readCount
  cases hn : frame.needsResampling c with
  | false =>
      rw [channels_of_not_needsResampling hn]
      exact iff_of_true rfl (Nat.mul_div_cancel _ c.channels_pos)
  | true => simpa using Nat.mul_left_inj (by omega)

/-- 読んだ標本と残した標本が元の列をなすのは、読んだ数と除いた数が同じときである。 -/
theorem readSamples_append_drop_iff {buffer : List Int} {count consumed : Nat} (hcount : count ≤ buffer.length)
    (hconsumed : consumed ≤ buffer.length) : readSamples buffer count ++ buffer.drop consumed = buffer ↔ count = consumed := by
  constructor
  · intro h
    have hlength := congrArg List.length h
    simp at hlength
    omega
  · rintro rfl
    rw [readSamples_eq_take hcount, List.take_append_drop]

/-! ## 一回の呼び出し -/

theorem intake_step (c : AudioConfig) (src : Source) (data : List Int) (s : Intake) :
    let buffer := s.context.audioSampleBuffer ++ (src.frame data).samples
    let swrContext := s.context.swrContext || (src.frame data).needsResampling c
    let samples := readSamples buffer (readCount c (src.frame data))
    (intake c src).step data s =
      if buffer.length < c.samplesPerFrame * src.channels then
        { s with context := ⟨buffer, swrContext⟩, input := s.input ++ (src.frame data).samples }
      else
        { context := ⟨buffer.drop (c.samplesPerFrame * src.channels), swrContext⟩
          input := s.input ++ (src.frame data).samples
          handed := s.handed ++ samples
          handovers := s.handovers ++ [⟨samples, buffer.length⟩] } := by
  intro buffer swrContext samples
  have hencode := encodeIndividualAudioFrame_eq c (src.frame data) s.context
  by_cases h : buffer.length < c.samplesPerFrame * src.channels
  · have hnone := hencode.trans (if_pos h)
    rw [if_pos h]
    simp [hnone, Handover.samplesOf, buffer, swrContext]
  · have hsome := hencode.trans (if_neg h)
    simp only [hsome, if_neg h]
    rfl

/-- 一回の呼び出しの後にも成り立つのは、その呼び出しが条件を満たすときである。 -/
theorem Intake.Kept.step_iff {c : AudioConfig} {src : Source} {s : Intake} (data : List Int) (h : s.Kept c src) :
    Kept c src ((intake c src).step data s) ↔ Fits c src data s := by
  have hstep := intake_step c src data s
  have hfits : Fits c src data s ↔
      (s.context.audioSampleBuffer ++ (src.frame data).samples).length < 2 * (c.samplesPerFrame * src.channels) ∧
        (c.samplesPerFrame * src.channels ≤ (s.context.audioSampleBuffer ++ (src.frame data).samples).length →
          readCount c (src.frame data) = c.samplesPerFrame * src.channels) := by
    have hcount : readCount c (src.frame data) = c.samplesPerFrame * src.channels ↔
        c.samplesPerFrame * src.channels / c.audioChannels = c.samplesPerFrame := readCount_eq_iff src.channels_pos
    rw [hcount, List.length_append]
    rfl
  have hinput : s.input ++ (src.frame data).samples =
      s.handed ++ (s.context.audioSampleBuffer ++ (src.frame data).samples) := by
    rw [← List.append_assoc, h.handed]
  rw [hfits, hstep, hinput]
  generalize s.context.audioSampleBuffer ++ (src.frame data).samples = buffer
  generalize readCount c (src.frame data) = count
  have hbounded := h.bounded
  by_cases hlt : buffer.length < c.samplesPerFrame * src.channels
  · rw [if_pos hlt]
    refine iff_of_true ⟨rfl, hbounded, hlt⟩ ⟨by omega, fun hge => absurd hge (by omega)⟩
  · rw [if_neg hlt]
    constructor
    · rintro ⟨hhanded, hread, hdrained⟩
      simp only [List.append_assoc, List.append_cancel_left_eq] at hhanded
      have hcount : count ≤ buffer.length := by
        simpa using hread ⟨readSamples buffer count, buffer.length⟩ (by simp)
      simp only [List.length_drop] at hdrained
      exact ⟨by omega, fun hge => (readSamples_append_drop_iff hcount hge).mp hhanded⟩
    · rintro ⟨hlt', hcount⟩
      have hge : c.samplesPerFrame * src.channels ≤ buffer.length := by omega
      have heq := hcount hge
      refine ⟨?_, ?_, ?_⟩
      · simp only [List.append_assoc, List.append_cancel_left_eq]
        exact (readSamples_append_drop_iff (by omega) hge).mpr heq
      · intro x hx
        rw [List.mem_append, List.mem_singleton] at hx
        obtain hx | rfl := hx
        · exact hbounded x hx
        · simp only [length_readSamples]
          omega
      · simp only [List.length_drop]
        omega

/-! ## 最後のフレーム -/

theorem le_length_silencePadded (c : AudioConfig) (buffer : List Int) :
    c.samplesPerFrame * c.audioChannels ≤ (silencePadded c buffer).length := by
  rw [silencePadded, List.length_append, List.length_replicate]
  omega

theorem readCount_finalFrame (c : AudioConfig) (buffer : List Int) :
    readCount c (finalFrame c buffer) = c.samplesPerFrame * c.audioChannels := by
  have hresampling : (finalFrame c buffer).needsResampling c = false := by simp [AudioFrame.needsResampling, finalFrame]
  rw [readCount, hresampling]
  rfl

/-- 最後のフレームは、溜まった標本の、一フレームに収まる分だけを、無音で補って渡す。 -/
theorem samplesOf_cleanupEncoder {c : AudioConfig} {ctx : AudioContext} (h : ctx.audioSampleBuffer ≠ []) :
    Handover.samplesOf (cleanupEncoder c ctx).2 =
      ctx.audioSampleBuffer.take (c.samplesPerFrame * c.audioChannels) ++
        List.replicate (c.samplesPerFrame * c.audioChannels - ctx.audioSampleBuffer.length) 0 := by
  have hlength := le_length_silencePadded c ctx.audioSampleBuffer
  have hread : c.samplesPerFrame * c.audioChannels ≤
      (silencePadded c ctx.audioSampleBuffer ++ (finalFrame c ctx.audioSampleBuffer).samples).length := by
    rw [List.length_append]
    omega
  have hsome := (encodeIndividualAudioFrame_eq c (finalFrame c ctx.audioSampleBuffer)
    { ctx with audioSampleBuffer := silencePadded c ctx.audioSampleBuffer }).trans (if_neg (Nat.not_lt.mpr hread))
  simp only [cleanupEncoder, if_neg h, hsome, Handover.samplesOf, Option.map_some, Option.getD_some, readCount_finalFrame]
  rw [readSamples_eq_take hread, List.take_append_of_le_length hlength, silencePadded, List.take_append]
  simp

/-- すべてが渡されるのは、残りが一フレームに収まるときである。 -/
theorem Intake.Kept.flushed_iff {c : AudioConfig} {src : Source} {s : Intake} (h : s.Kept c src) :
    s.Flushed c ↔ s.context.audioSampleBuffer.length ≤ c.samplesPerFrame * c.audioChannels := by
  unfold Intake.Flushed
  rw [← h.handed]
  by_cases hempty : s.context.audioSampleBuffer = []
  · refine iff_of_true ⟨0, ?_⟩ (by simp [hempty])
    simp [cleanupEncoder, hempty, Handover.samplesOf]
  · rw [samplesOf_cleanupEncoder hempty]
    constructor
    · rintro ⟨n, hn⟩
      have hlength := congrArg List.length hn
      simp at hlength
      omega
    · intro hle
      rw [List.take_of_length_le hle]
      exact ⟨_, (List.append_assoc _ _ _).symm⟩

theorem Intake.kept_init (c : AudioConfig) (src : Source) : Kept c src {} where
  handed := rfl
  bounded := by simp
  drained := Nat.mul_pos c.samplesPerFrame_pos src.channels_pos

/-- 標本が失われず、溜まり続けないのは、どの呼び出しも条件を満たし、最後の残りが一フレームに収まるときである。 -/
theorem audio_conserved_iff (c : AudioConfig) (src : Source) (frames : List (List Int)) :
    ((intake c src).AllMeet (fun data s => ((intake c src).step data s).Kept c src) frames {} ∧
        ((intake c src).run frames {}).Flushed c) ↔
      (intake c src).AllMeet (Fits c src) frames {} ∧
        ((intake c src).run frames {}).context.audioSampleBuffer.length ≤ c.samplesPerFrame * c.audioChannels := by
  have hinit := Intake.kept_init c src
  have hall := System.allMeet_step_iff (S := intake c src) (P := Intake.Kept c src) (fun data _ => Intake.Kept.step_iff data)
    frames hinit
  rw [← hall]
  refine and_congr_right fun hkept => ?_
  exact (System.AllMeet.run hkept hinit).flushed_iff

/-- 48kHz のステレオで符号化する。 -/
def stereo : AudioConfig where
  audioSampleRate := 48000
  audioChannels := 2
  frameSize := 1024

/-- モノラルの標本は、半分しか変換器に渡されない。 -/
theorem not_audio_conserved :
    ¬∀ (c : AudioConfig) (src : Source) (frames : List (List Int)),
      (intake c src).AllMeet (fun data s => ((intake c src).step data s).Kept c src) frames {} ∧
        ((intake c src).run frames {}).Flushed c := by
  intro h
  have hkept := (h stereo { sampleRate := 48000, channels := 1 } [List.replicate 1024 1]).1.1
  have hdata : (List.replicate 1024 (1 : Int)).length = 1024 := List.length_replicate
  generalize List.replicate 1024 (1 : Int) = data at hkept hdata
  have hsamples : (Source.frame { sampleRate := 48000, channels := 1 } data).samples = data := by
    simp [AudioFrame.samples, Source.frame]
  have hcount : readCount stereo (Source.frame { sampleRate := 48000, channels := 1 } data) = 512 := by
    simp [readCount, AudioFrame.needsResampling, Source.frame, stereo, AudioConfig.samplesPerFrame]
  have hframe : stereo.samplesPerFrame = 1024 := rfl
  have hlength := congrArg List.length hkept.handed
  rw [intake_step] at hlength
  simp [hsamples, hcount, hframe, hdata] at hlength

end RtcEgress.Recording
