import RtcEgress.Lib.Rescale
import RtcEgress.Lib.Stamps
import RtcEgress.Lib.System

/-!
# `src/streaming_sink.cpp` の `pts`

`openSession` は、共通の原点と、映像と音声の `pts` を始めに戻す。`run` と `encodeAudio` は、フレームの時刻の原点からの隔たりを
符号化器の時間の単位に直し、前の `pts` から決まった間隔をあける。時刻は 64 ビットのミリ秒で、任意の自然数とする。
-/

namespace RtcEgress.Sink.StreamingPts

open Lib

/-- `MediaEncoder::openVideo` の `time_base` の分母。 -/
def videoTimeBase : Nat := 90000

/-- `openSession` が渡す `audio.timeBase` の分母。 -/
def audioTimeBase : Nat := 48000

/-- 音声の符号化器。 -/
structure AudioEncoder where
  frameSize : Nat
  positive : 0 < frameSize := by decide
  fits : frameSize < 2 ^ 31 := by decide

structure Session where
  hasOrigin : Bool := false
  originMs : Nat := 0
  lastVideoPts : Int := -1
  nextAudioPts : Int := AV_NOPTS_VALUE
  /-- この配信で符号化器に渡した映像の `pts`。 -/
  videoPts : List Int := []
  audioPts : List Int := []

namespace Session

/-- 開けた `openSession`。 -/
def openSession (s : Session) : Session :=
  { s with hasOrigin := false, lastVideoPts := -1, nextAudioPts := AV_NOPTS_VALUE, videoPts := [], audioPts := [] }

def anchor (timestamp : Nat) (s : Session) : Session :=
  if s.hasOrigin then s else { s with originMs := timestamp, hasOrigin := true }

/-- `int64_t` での、原点からの隔たり。 -/
def relativeMs (timestamp : Nat) (s : Session) : Int := toInt64 (toInt64 timestamp - toInt64 s.originMs)

/-- 映像の間にあける、一ミリ秒。 -/
def increment : Int := rescale 1 videoTimeBase 1000

/-- `run` が合成された一枚について行うこと。 -/
def videoFrame (timestamp : Nat) (s : Session) : Session :=
  let s := s.anchor timestamp
  let pts := rescale (s.relativeMs timestamp) videoTimeBase 1000
  let pts := max (if s.lastVideoPts < 0 then 0 else toInt64 (s.lastVideoPts + increment)) pts
  { s with lastVideoPts := pts, videoPts := s.videoPts ++ [pts] }

/-- `encodeAudio` が符号化器に渡すまでに行うこと。二つの確保の成否を与える。 -/
def encodeAudio (e : AudioEncoder) (timestamp : Nat) (frameAlloc getBuffer : Bool) (s : Session) : Session :=
  let s := s.anchor timestamp
  let timestamp := rescale (s.relativeMs timestamp) audioTimeBase 1000
  let s :=
    if s.nextAudioPts = AV_NOPTS_VALUE ∨ toInt64 (s.nextAudioPts + 4800) < timestamp then
      { s with nextAudioPts := max 0 timestamp }
    else s
  if !frameAlloc then s
  else
    let pts := s.nextAudioPts
    let s := { s with nextAudioPts := toInt64 (pts + e.frameSize) }
    if !getBuffer then s else { s with audioPts := s.audioPts ++ [pts] }

end Session

inductive Op where
  | openSession
  | video (timestamp : Nat)
  | audio (timestamp : Nat) (frameAlloc getBuffer : Bool)

abbrev publishing (e : AudioEncoder) : System Op where
  State := Session
  step
    | .openSession => Session.openSession
    | .video timestamp => Session.videoFrame timestamp
    | .audio timestamp frameAlloc getBuffer => Session.encodeAudio e timestamp frameAlloc getBuffer

/-- FLV の時刻。 -/
def flvTimestamp (pts : Int) : Int := rescale pts 1000 videoTimeBase

/-- 次の `pts` を求める足し算の桁があふれず、前の足し算の桁もあふれていない。 -/
def Fits : Op → Session → Prop
  | .openSession, _ => True
  | .video _, s => s.lastVideoPts + Session.increment < 2 ^ 63
  | .audio .., s => (s.nextAudioPts = AV_NOPTS_VALUE ∧ s.audioPts = []) ∨ (0 ≤ s.nextAudioPts ∧ s.nextAudioPts + 4800 < 2 ^ 63)

instance (op : Op) (s : Session) : Decidable (Fits op s) := by
  cases op <;> unfold Fits <;> infer_instance

/-! ## 一回の配信の不変条件 -/

/-- 一回の配信で渡した `pts` と、次の `pts` の材料。 -/
structure Inv (e : AudioEncoder) (s : Session) : Prop where
  video : Spaced Session.increment s.videoPts
  lastVideo : s.lastVideoPts = s.videoPts.getLast?.getD (-1)
  videoFits : ∀ p ∈ s.videoPts, p < 2 ^ 63
  audio : Spaced e.frameSize s.audioPts
  nextFits : s.nextAudioPts < 2 ^ 63
  next : ∀ p ∈ s.audioPts.getLast?, s.nextAudioPts < 0 ∨ p + e.frameSize ≤ s.nextAudioPts

theorem inv_init (e : AudioEncoder) : Inv e {} where
  video := spaced_nil
  lastVideo := rfl
  videoFits := by simp
  audio := spaced_nil
  nextFits := by decide
  next := by simp

theorem Inv.openSession {e : AudioEncoder} (s : Session) : Inv e s.openSession where
  video := spaced_nil
  lastVideo := rfl
  videoFits := by simp [Session.openSession]
  audio := spaced_nil
  nextFits := by simp [Session.openSession, AV_NOPTS_VALUE]
  next := by simp [Session.openSession]

theorem Inv.anchor {e : AudioEncoder} {s : Session} (timestamp : Nat) (h : Inv e s) :
    Inv e (s.anchor timestamp) := by
  unfold Session.anchor
  split
  · exact h
  · exact ⟨h.video, h.lastVideo, h.videoFits, h.audio, h.nextFits, h.next⟩

theorem increment_eq : Session.increment = 90 := by decide

/-- 前の `pts` から一ミリ秒以上あけた値を足す。 -/
theorem Inv.pushVideo {e : AudioEncoder} {s : Session} {p : Int} (h : Inv e s) (hp : p < 2 ^ 63)
    (hfits : s.lastVideoPts + Session.increment < 2 ^ 63) :
    let pts := max (if s.lastVideoPts < 0 then 0 else toInt64 (s.lastVideoPts + Session.increment)) p
    Inv e { s with lastVideoPts := pts, videoPts := s.videoPts ++ [pts] } := by
  intro pts
  have hinc := increment_eq
  have hlast := h.lastVideo
  have hnew : 0 ≤ pts ∧ pts < 2 ^ 63 ∧ ∀ q ∈ s.videoPts.getLast?, q + Session.increment ≤ pts := by
    cases hs : s.videoPts.getLast? with
    | none =>
        rw [hs] at hlast
        have hpts : pts = max 0 p := by
          simp only [pts]
          rw [hlast]
          rfl
        exact ⟨by omega, by omega, by simp⟩
    | some q =>
        rw [hs] at hlast
        obtain rfl : s.lastVideoPts = q := hlast
        have hpos : 0 ≤ s.lastVideoPts := h.video.nonneg _ (List.mem_of_getLast? hs)
        have hpts : pts = max (s.lastVideoPts + Session.increment) p := by
          simp only [pts]
          rw [if_neg (by omega), toInt64_of_range ⟨by omega, hfits⟩]
        refine ⟨by omega, by omega, fun q hq => ?_⟩
        obtain rfl : s.lastVideoPts = q := Option.some.inj hq
        omega
  obtain ⟨hpos, hlt, hgap⟩ := hnew
  constructor
  · exact spaced_concat.mpr ⟨h.video, hpos, hgap⟩
  · simp
  · intro q hq
    rw [List.mem_append, List.mem_singleton] at hq
    obtain hq | rfl := hq
    · exact h.videoFits q hq
    · exact hlt
  · exact h.audio
  · exact h.nextFits
  · exact h.next

@[simp] theorem anchor_lastVideoPts (timestamp : Nat) (s : Session) :
    (s.anchor timestamp).lastVideoPts = s.lastVideoPts := by
  unfold Session.anchor
  split <;> rfl

@[simp] theorem anchor_nextAudioPts (timestamp : Nat) (s : Session) :
    (s.anchor timestamp).nextAudioPts = s.nextAudioPts := by
  unfold Session.anchor
  split <;> rfl

@[simp] theorem anchor_audioPts (timestamp : Nat) (s : Session) : (s.anchor timestamp).audioPts = s.audioPts := by
  unfold Session.anchor
  split <;> rfl

theorem Inv.videoFrame {e : AudioEncoder} {s : Session} (timestamp : Nat) (h : Inv e s)
    (hfits : s.lastVideoPts + Session.increment < 2 ^ 63) : Inv e (s.videoFrame timestamp) :=
  (h.anchor timestamp).pushVideo (rescale_lt _ _ _) (by simpa using hfits)

/-- 合わせ直した `nextAudioPts` は負でなく、前の `pts` から一フレーム以上離れている。 -/
theorem Inv.reanchor {e : AudioEncoder} {s : Session} {timestamp : Int} (h : Inv e s) (ht : timestamp < 2 ^ 63)
    (hfits : Fits (.audio 0 true true) s) :
    let s' := if s.nextAudioPts = AV_NOPTS_VALUE ∨ toInt64 (s.nextAudioPts + 4800) < timestamp then
      { s with nextAudioPts := max 0 timestamp } else s
    Inv e s' ∧ 0 ≤ s'.nextAudioPts ∧ ∀ p ∈ s'.audioPts.getLast?, p + e.frameSize ≤ s'.nextAudioPts := by
  intro s'
  obtain ⟨hnone, hempty⟩ | ⟨hpos, hlt⟩ := hfits
  · have hs' : s' = { s with nextAudioPts := max 0 timestamp } := if_pos (.inl hnone)
    have hgap : ∀ p ∈ s.audioPts.getLast?, p + e.frameSize ≤ max 0 timestamp := by simp [hempty]
    rw [hs']
    exact ⟨⟨h.video, h.lastVideo, h.videoFits, h.audio, by simp only; omega, fun p hp => .inr (hgap p hp)⟩,
      by simp only; omega, hgap⟩
  · have hfirst : s.nextAudioPts ≠ AV_NOPTS_VALUE := by
      unfold AV_NOPTS_VALUE
      omega
    have hgap : ∀ p ∈ s.audioPts.getLast?, p + e.frameSize ≤ s.nextAudioPts := fun p hp =>
      (h.next p hp).resolve_left (by omega)
    have hwrap : toInt64 (s.nextAudioPts + 4800) = s.nextAudioPts + 4800 := toInt64_of_range ⟨by omega, hlt⟩
    simp only [s', hfirst, false_or, hwrap]
    split
    · have hgap' : ∀ p ∈ s.audioPts.getLast?, p + e.frameSize ≤ max 0 timestamp := by
        intro p hp
        have := hgap p hp
        omega
      exact ⟨⟨h.video, h.lastVideo, h.videoFits, h.audio, by simp only; omega, fun p hp => .inr (hgap' p hp)⟩,
        by simp only; omega, hgap'⟩
    · exact ⟨h, hpos, hgap⟩

/-- 一フレームを渡した後の `nextAudioPts` は、桁があふれていなければ、一フレームだけ先にある。 -/
theorem Inv.pushAudio {e : AudioEncoder} {s : Session} (getBuffer : Bool) (h : Inv e s) (hpos : 0 ≤ s.nextAudioPts)
    (hgap : ∀ p ∈ s.audioPts.getLast?, p + e.frameSize ≤ s.nextAudioPts) :
    let s' := { s with nextAudioPts := toInt64 (s.nextAudioPts + e.frameSize) }
    Inv e (if !getBuffer then s' else { s' with audioPts := s'.audioPts ++ [s.nextAudioPts] }) := by
  have hfits := e.fits
  have hlt := h.nextFits
  have hnext : toInt64 (s.nextAudioPts + e.frameSize) < 0 ∨
      toInt64 (s.nextAudioPts + e.frameSize) = s.nextAudioPts + e.frameSize := by
    by_cases hover : s.nextAudioPts + e.frameSize < 2 ^ 63
    · exact .inr (toInt64_of_range ⟨by omega, hover⟩)
    · exact .inl (toInt64_of_overflow ⟨by omega, by omega⟩)
  have hrange := (toInt64_range (s.nextAudioPts + e.frameSize)).2
  have hafter : ∀ p ≤ s.nextAudioPts, toInt64 (s.nextAudioPts + e.frameSize) < 0 ∨
      p + e.frameSize ≤ toInt64 (s.nextAudioPts + e.frameSize) := by
    intro p hp
    omega
  cases getBuffer with
  | false =>
      refine ⟨h.video, h.lastVideo, h.videoFits, h.audio, hrange, fun p hp => hafter p ?_⟩
      have := hgap p hp
      omega
  | true =>
      refine ⟨h.video, h.lastVideo, h.videoFits, spaced_concat.mpr ⟨h.audio, hpos, hgap⟩, hrange, fun p hp => hafter p ?_⟩
      obtain rfl : s.nextAudioPts = p := by simpa using hp
      exact Int.le_refl _

theorem Inv.encodeAudio {e : AudioEncoder} {s : Session} (timestamp : Nat) (frameAlloc getBuffer : Bool) (h : Inv e s)
    (hfits : Fits (.audio timestamp frameAlloc getBuffer) s) : Inv e (s.encodeAudio e timestamp frameAlloc getBuffer) := by
  have hanchor : Fits (.audio 0 true true) (s.anchor timestamp) := by simpa [Fits] using hfits
  obtain ⟨hinv, hpos, hgap⟩ :=
    (h.anchor timestamp).reanchor (rescale_lt ((s.anchor timestamp).relativeMs timestamp) audioTimeBase 1000) hanchor
  unfold Session.encodeAudio
  cases frameAlloc with
  | false => exact hinv
  | true => exact hinv.pushAudio getBuffer hpos hgap

theorem Inv.step {e : AudioEncoder} {s : Session} (op : Op) (h : Inv e s) (hfits : Fits op s) :
    Inv e ((publishing e).step op s) := by
  cases op with
  | openSession => exact Inv.openSession s
  | video timestamp => exact h.videoFrame timestamp hfits
  | audio timestamp frameAlloc getBuffer => exact h.encodeAudio timestamp frameAlloc getBuffer hfits

/-- 一ミリ秒の隔たりは、FLV の時刻でも消えない。 -/
theorem Inv.flv {e : AudioEncoder} {s : Session} (h : Inv e s) : (s.videoPts.map flvTimestamp).IsChain (· < ·) := by
  rw [List.isChain_map]
  refine h.video.spaced.imp_of_mem_imp fun p q hp hq hpq => ?_
  exact rescale_lt_rescale (d := 90) (by decide) (by decide) (by decide) (h.video.nonneg p hp) hpq (h.videoFits q hq)

/-! ## 配信の区切り -/

/-- 使われない原点を除いて同じである。 -/
def Same (s s' : Session) : Prop :=
  s' = { s with originMs := s'.originMs } ∧ (s.hasOrigin = true → s'.originMs = s.originMs)

theorem Same.anchor {s s' : Session} (timestamp : Nat) (h : Same s s') : s'.anchor timestamp = s.anchor timestamp := by
  obtain ⟨hsame, horigin⟩ := h
  cases hs : s.hasOrigin with
  | false =>
      rw [hsame]
      simp [Session.anchor, hs]
  | true =>
      rw [horigin hs] at hsame
      rw [hsame]

theorem Same.refl (s : Session) : Same s s := ⟨rfl, fun _ => rfl⟩

/-- 開き直すと、前の原点は使われない。 -/
theorem Same.openSession {s s' : Session} (h : Same s s') : Same s.openSession s'.openSession := by
  obtain ⟨hsame, -⟩ := h
  rw [hsame]
  exact ⟨rfl, fun hset => absurd hset (by simp [Session.openSession])⟩

theorem Same.step {e : AudioEncoder} {s s' : Session} (op : Op) (h : Same s s') :
    Same ((publishing e).step op s) ((publishing e).step op s') := by
  cases op with
  | openSession => exact h.openSession
  | video timestamp =>
      simp only [Session.videoFrame, h.anchor]
      exact Same.refl _
  | audio timestamp frameAlloc getBuffer =>
      simp only [Session.encodeAudio, h.anchor]
      exact Same.refl _

theorem Same.run {e : AudioEncoder} (ops : List Op) {s s' : Session} (h : Same s s') :
    Same ((publishing e).run ops s) ((publishing e).run ops s') := by
  induction ops generalizing s s' with
  | nil => exact h
  | cons op ops ih => exact ih (h.step op)

theorem inv_run {e : AudioEncoder} (ops : List Op) {s : Session} (h : Inv e s) (hfits : (publishing e).AllMeet Fits ops s) :
    Inv e ((publishing e).run ops s) := by
  induction ops generalizing s with
  | nil => exact h
  | cons op ops ih => exact ih (h.step op hfits.1) hfits.2

/-- それまでの配信によらず、桁があふれない配信の `pts` は、決まった間隔以上ずつ増える。 -/
theorem published_spaced (e : AudioEncoder) (before session : List Op) (h : (publishing e).AllMeet Fits session {}) :
    let s := (publishing e).run (before ++ .openSession :: session) {}
    let fresh := (publishing e).run session {}
    (s.videoPts = fresh.videoPts ∧ s.audioPts = fresh.audioPts) ∧
      Spaced Session.increment s.videoPts ∧ (s.videoPts.map flvTimestamp).IsChain (· < ·) ∧ Spaced e.frameSize s.audioPts := by
  intro s fresh
  have hopened : Same ({} : Session) ((publishing e).run before {}).openSession := ⟨rfl, by simp⟩
  have hsame : Same fresh s := by
    simp only [s, System.run_append]
    exact hopened.run session
  have hvideo : s.videoPts = fresh.videoPts := by rw [hsame.1]
  have haudio : s.audioPts = fresh.audioPts := by rw [hsame.1]
  have hinv : Inv e fresh := inv_run session (inv_init e) h
  rw [hvideo, haudio]
  exact ⟨⟨rfl, rfl⟩, hinv.video, hinv.flv, hinv.audio⟩

/-- 標本が 1024 の AAC。 -/
def aac : AudioEncoder where
  frameSize := 1024

theorem published_spaced_aac :
    let s := (publishing aac).run ([.video 9000] ++ .openSession :: [.video 5000, .audio 4990 true true, .video 5000]) {}
    let fresh := (publishing aac).run [.video 5000, .audio 4990 true true, .video 5000] {}
    (s.videoPts = fresh.videoPts ∧ s.audioPts = fresh.audioPts) ∧
      Spaced Session.increment s.videoPts ∧ (s.videoPts.map flvTimestamp).IsChain (· < ·) ∧ Spaced aac.frameSize s.audioPts :=
  published_spaced aac [.video 9000] [.video 5000, .audio 4990 true true, .video 5000] (by decide)

/-- 64 ビットの終わりまで跳ぶと、次のフレームの `pts` が同じになる。 -/
theorem not_published_spaced :
    ¬∀ (e : AudioEncoder) (ops : List Op), Spaced Session.increment ((publishing e).run ops {}).videoPts := by
  intro h
  have hpts : ((publishing aac).run [.video 0, .video 102481911520608620, .video 102481911520608620] {}).videoPts =
      [0, 9223372036854775800, 9223372036854775800] := by decide
  have hspaced := (h aac [.video 0, .video 102481911520608620, .video 102481911520608620]).spaced
  rw [hpts] at hspaced
  revert hspaced
  decide

end RtcEgress.Sink.StreamingPts
