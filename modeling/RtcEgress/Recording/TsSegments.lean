import Mathlib.Data.List.Nodup
import Mathlib.Data.List.Range
import Mathlib.Data.Rat.Floor
import RtcEgress.Lib.System

/-!
# `src/ts_segment_manager.cpp` のセグメント

TS の録画を、番号の付いたセグメントに分ける。セグメントは、一時ファイルの名前を変えて確定し、確定するたびに再生リストを書き
直す。時刻は単調な時計のナノ秒で、長さは秒の有理数である。名前の変更とファイルを開くことの成否は、外から与える。
-/

namespace RtcEgress.Recording

open RtcEgress.Lib

structure TSSegmentManager.Config where
  outputDir : String := "./ts_recordings"
  segmentDurationSeconds : Int := 10
  generatePlaylist : Bool := true

structure SegmentInfo where
  filename : String := ""
  tempFilename : String := ""
  startTime : Int := 0
  duration : Rat := 0
  segmentNumber : Nat := 0
  isComplete : Bool := false

structure SessionInfo where
  sessionId : String := ""
  sessionDir : String := ""
  segments : List SegmentInfo := []
  sessionStartTime : Int := 0
  currentSegmentNumber : Nat := 1
  totalDuration : Rat := 0

/-- 再生リスト。`EXTINF` の長さは、千分の一秒の数である。 -/
structure Playlist where
  targetDuration : Int
  entries : List (Int × String)

/-- `playlist` は最後に書いた再生リスト、`renamed` は名前の変更に成功したパスである。 -/
structure TSSegmentManager where
  config : TSSegmentManager.Config
  currentSession : SessionInfo := {}
  currentSegment : SegmentInfo := {}
  playlistPath : String := ""
  playlist : Option Playlist := none
  renamed : List String := []

/-- 一つの呼び出しの中で起こること。 -/
structure SegmentIo where
  renamed : Bool := true
  finalizedAt : Int := 0
  opened : Bool := true
  reopened : Bool := true
  rotatedAt : Int := 0

/-- 最も近い整数。同じ近さなら偶数を選ぶ。 -/
def roundHalfEven (q : Rat) : Int :=
  if q - q.floor < 1 / 2 then q.floor
  else if 1 / 2 < q - q.floor then q.floor + 1
  else if q.floor % 2 = 0 then q.floor
  else q.floor + 1

/-- `std::setw(5)` で零を補った十進数。 -/
def generateSegmentFilename (segmentNumber : Nat) : String :=
  "segment_" ++ String.ofList ((Nat.toDigits 10 segmentNumber).leftpad 5 '0') ++ ".ts"

namespace TSSegmentManager

def startNewSession (m : TSSegmentManager) (sessionId : String) (created : Bool) (now : Int) : Bool × TSSegmentManager :=
  let sessionDir := m.config.outputDir ++ "/" ++ sessionId
  let m := { m with currentSession := { sessionId, sessionDir, sessionStartTime := now } }
  if created then (true, { m with playlistPath := sessionDir ++ "/playlist.m3u8" }) else (false, m)

def getCurrentSegmentPath (m : TSSegmentManager) : String :=
  if m.currentSegment.filename = "" then "" else m.currentSession.sessionDir ++ "/" ++ m.currentSegment.filename

def getCurrentTempSegmentPath (m : TSSegmentManager) : String :=
  if m.currentSegment.tempFilename = "" then "" else m.currentSession.sessionDir ++ "/" ++ m.currentSegment.tempFilename

/-- 開けなければ、前の再生リストが残る。 -/
def generateHLSPlaylist (m : TSSegmentManager) (opened : Bool) : TSSegmentManager :=
  if !opened || m.playlistPath = "" then m
  else
    let entries := (m.currentSession.segments.filter (·.isComplete)).map fun segment =>
      (roundHalfEven (segment.duration * 1000), segment.filename)
    { m with playlist := some ⟨m.config.segmentDurationSeconds, entries⟩ }

def updatePlaylistWithNewSegment (m : TSSegmentManager) (segment : SegmentInfo) (opened : Bool) : TSSegmentManager :=
  if !m.config.generatePlaylist || !segment.isComplete then m else m.generateHLSPlaylist opened

def isPending (m : TSSegmentManager) : Bool := m.currentSegment.filename ≠ "" && !m.currentSegment.isComplete

/-- 名前を変えたセグメントを、完了した印を付けて並べる。 -/
def pushed (m : TSSegmentManager) (io : SegmentIo) : TSSegmentManager :=
  let segment := { m.currentSegment with
    isComplete := true, duration := (io.finalizedAt - m.currentSegment.startTime : Rat) / 1000000000 }
  { m with
    renamed := m.renamed ++ [m.getCurrentSegmentPath]
    currentSegment := segment
    currentSession := { m.currentSession with
      segments := m.currentSession.segments ++ [segment]
      totalDuration := m.currentSession.totalDuration + segment.duration } }

/-- 名前の変更に成功した後の書き換え。 -/
def completeCurrentSegment (m : TSSegmentManager) (io : SegmentIo) : TSSegmentManager :=
  let m := m.pushed io
  if m.config.generatePlaylist then m.updatePlaylistWithNewSegment m.currentSegment io.opened else m

def finalizeCurrentSegment (m : TSSegmentManager) (io : SegmentIo) : Bool × TSSegmentManager :=
  if !m.isPending then (true, m)
  else if !io.renamed then (false, m)
  else (true, m.completeCurrentSegment io)

def beginSegment (m : TSSegmentManager) (io : SegmentIo) : TSSegmentManager :=
  let segmentNumber := m.currentSession.currentSegmentNumber
  let filename := generateSegmentFilename segmentNumber
  { m with
    currentSegment := { segmentNumber, filename, tempFilename := filename ++ ".tmp", startTime := io.rotatedAt }
    currentSession := { m.currentSession with currentSegmentNumber := segmentNumber + 1 } }

def rotateToNewSegment (m : TSSegmentManager) (io : SegmentIo) : Bool × TSSegmentManager :=
  let (finalized, m) := if m.isPending then m.finalizeCurrentSegment io else (true, m)
  if !finalized then (false, m) else (true, m.beginSegment io)

/-- 最後に、再生リストをもう一度書く。 -/
def endCurrentSession (m : TSSegmentManager) (io : SegmentIo) : Bool × TSSegmentManager :=
  let (finalized, m) := if m.isPending then m.finalizeCurrentSegment io else (true, m)
  if m.config.generatePlaylist && m.currentSession.segments.length ≠ 0 then (finalized, m.generateHLSPlaylist io.reopened)
  else (finalized, m)

def cleanup (m : TSSegmentManager) (io : SegmentIo) : Bool × TSSegmentManager :=
  if m.isPending then m.finalizeCurrentSegment io else (true, m)

end TSSegmentManager

/-! ## 呼び出しの列 -/

/-- `finalizeCurrentSegment` に至る四つの呼び出し。 -/
inductive SegmentCall where
  | rotate | finalize | endSession | cleanup
  deriving DecidableEq

/-- 呼び出しの成否と、その後の状態。戻り値のない呼び出しでは、中で行う確定の成否とする。 -/
def SegmentCall.perform (io : SegmentIo) (m : TSSegmentManager) : SegmentCall → Bool × TSSegmentManager
  | .rotate => m.rotateToNewSegment io
  | .finalize => m.finalizeCurrentSegment io
  | .endSession => m.endCurrentSession io
  | .cleanup => m.cleanup io

abbrev segmentSystem : System (SegmentCall × SegmentIo) where
  State := TSSegmentManager
  step op m := (op.1.perform op.2 m).2

/-- 呼び出しの列の後の、セグメントと再生リスト。 -/
structure GapFree (ops : List (SegmentCall × SegmentIo)) (m : TSSegmentManager) : Prop where
  complete : ∀ segment ∈ m.currentSession.segments, segment.isComplete = true
  numbered : m.currentSession.segments.map (·.segmentNumber) = List.range' 1 m.currentSession.segments.length
  distinct : (m.currentSession.segments.map (·.filename)).Nodup
  /-- 名前の変更は、並ぶセグメントについて、一度ずつ行われた。 -/
  once : m.renamed = m.currentSession.segments.map fun segment => m.currentSession.sessionDir ++ "/" ++ segment.filename
  /-- 失敗した呼び出しは、何も変えない。 -/
  unchanged : ∀ op : SegmentCall × SegmentIo, (op.1.perform op.2 m).1 = false →
    (op.1.perform op.2 m).2.currentSession = m.currentSession ∧ (op.1.perform op.2 m).2.currentSegment = m.currentSegment
  /-- 最後に書いた再生リストは、書いたときに並んでいたセグメントを、順に並べる。 -/
  listed : ∀ p ∈ m.playlist, p.entries.map Prod.snd <+: m.currentSession.segments.map (·.filename)
  /-- 開けている限り、それはすべてのセグメントである。 -/
  playlist : m.playlistPath ≠ "" → (∀ op ∈ ops, op.2.opened = true ∧ op.2.reopened = true) →
    m.playlist.map (·.entries.map Prod.snd) =
      if m.config.generatePlaylist ∧ m.currentSession.segments ≠ [] then
        some (m.currentSession.segments.map (·.filename))
      else none

/-! ## セグメントの名前 -/

theorem generateSegmentFilename_injective : Function.Injective generateSegmentFilename := by
  intro n k h
  have hlist : (Nat.toDigits 10 n).leftpad 5 '0' = (Nat.toDigits 10 k).leftpad 5 '0' := by
    have hchars := congrArg String.toList h
    simp only [generateSegmentFilename, String.toList_append, String.toList_ofList, List.append_assoc,
      List.append_cancel_left_eq] at hchars
    exact List.append_cancel_right hchars
  have hvalue (n : Nat) : Nat.ofDigitChars 10 ((Nat.toDigits 10 n).leftpad 5 '0') 0 = n := by
    rw [List.leftpad, Nat.ofDigitChars_append, Nat.ofDigitChars_replicate_zero, Nat.mul_zero]
    exact Nat.ofDigitChars_ten_toDigits
  rw [← hvalue n, hlist, hvalue k]

theorem generateSegmentFilename_ne_empty (n : Nat) : generateSegmentFilename n ≠ "" := by
  simp [generateSegmentFilename, ← String.toList_inj]

/-! ## 不変条件 -/

namespace TSSegmentManager

/-- セグメントは完了して一から順に番号を持ち、今のセグメントは、完了していれば最後のもの、していなければその次である。 -/
structure Numbered (m : TSSegmentManager) : Prop where
  complete : ∀ segment ∈ m.currentSession.segments, segment.isComplete = true
  numbered : m.currentSession.segments.map (·.segmentNumber) = List.range' 1 m.currentSession.segments.length
  named : ∀ segment ∈ m.currentSession.segments, segment.filename = generateSegmentFilename segment.segmentNumber
  once : m.renamed = m.currentSession.segments.map fun segment => m.currentSession.sessionDir ++ "/" ++ segment.filename
  listed : ∀ p ∈ m.playlist, p.entries.map Prod.snd <+: m.currentSession.segments.map (·.filename)
  current : (m.currentSegment.filename = "" ∧ m.currentSession.segments = [] ∧ m.currentSession.currentSegmentNumber = 1) ∨
    (m.currentSegment.filename = generateSegmentFilename m.currentSegment.segmentNumber ∧
      m.currentSession.currentSegmentNumber = m.currentSegment.segmentNumber + 1 ∧
      m.currentSegment.segmentNumber =
        m.currentSession.segments.length + if m.currentSegment.isComplete then 0 else 1)

/-- 最後に書いた再生リストが、すべてのセグメントを並べる。 -/
def Listed (m : TSSegmentManager) : Prop :=
  m.playlist.map (·.entries.map Prod.snd) =
    if m.config.generatePlaylist ∧ m.currentSession.segments ≠ [] then some (m.currentSession.segments.map (·.filename))
    else none

variable {m : TSSegmentManager}

theorem Numbered.distinct (h : m.Numbered) : (m.currentSession.segments.map (·.filename)).Nodup := by
  have hnames : m.currentSession.segments.map (·.filename) =
      (m.currentSession.segments.map (·.segmentNumber)).map generateSegmentFilename := by
    rw [List.map_map]
    exact List.map_congr_left h.named
  rw [hnames, h.numbered]
  exact List.Nodup.map generateSegmentFilename_injective List.nodup_range'

/-! ## 再生リスト -/

section Frame

variable (m : TSSegmentManager) (opened : Bool)

@[simp] theorem generateHLSPlaylist_config : (m.generateHLSPlaylist opened).config = m.config := by
  unfold generateHLSPlaylist
  split <;> rfl

@[simp] theorem generateHLSPlaylist_currentSession : (m.generateHLSPlaylist opened).currentSession = m.currentSession := by
  unfold generateHLSPlaylist
  split <;> rfl

@[simp] theorem generateHLSPlaylist_currentSegment : (m.generateHLSPlaylist opened).currentSegment = m.currentSegment := by
  unfold generateHLSPlaylist
  split <;> rfl

@[simp] theorem generateHLSPlaylist_playlistPath : (m.generateHLSPlaylist opened).playlistPath = m.playlistPath := by
  unfold generateHLSPlaylist
  split <;> rfl

@[simp] theorem generateHLSPlaylist_renamed : (m.generateHLSPlaylist opened).renamed = m.renamed := by
  unfold generateHLSPlaylist
  split <;> rfl

end Frame

/-- 開けたなら、書いた再生リストはすべてのセグメントを並べる。 -/
theorem Numbered.map_generateHLSPlaylist (h : m.Numbered) (hpath : m.playlistPath ≠ "") :
    (m.generateHLSPlaylist true).playlist.map (·.entries.map Prod.snd) =
      some (m.currentSession.segments.map (·.filename)) := by
  have hall : m.currentSession.segments.filter (·.isComplete) = m.currentSession.segments :=
    List.filter_eq_self.mpr h.complete
  simp [TSSegmentManager.generateHLSPlaylist, hpath, hall, Function.comp_def]

theorem Numbered.generateHLSPlaylist (h : m.Numbered) (opened : Bool) : (m.generateHLSPlaylist opened).Numbered := by
  constructor
  · simpa using h.complete
  · simpa using h.numbered
  · simpa using h.named
  · simpa using h.once
  · intro p hp
    rw [generateHLSPlaylist_currentSession]
    by_cases hwritten : opened = true ∧ m.playlistPath ≠ ""
    · obtain ⟨rfl, hpath⟩ := hwritten
      have hmap := h.map_generateHLSPlaylist hpath
      rw [Option.mem_def.mp hp] at hmap
      exact Option.some.inj hmap ▸ List.prefix_rfl
    · have hkept : m.generateHLSPlaylist opened = m := if_pos (by simpa [Classical.or_iff_not_imp_left] using hwritten)
      exact h.listed p (hkept ▸ hp)
  · simpa using h.current

theorem Numbered.listed_generateHLSPlaylist (h : m.Numbered) (hpath : m.playlistPath ≠ "")
    (hgenerate : m.config.generatePlaylist = true) (hne : m.currentSession.segments ≠ []) :
    (m.generateHLSPlaylist true).Listed := by
  simp [Listed, h.map_generateHLSPlaylist hpath, hgenerate, hne]

/-! ## 各呼び出し -/

theorem completeCurrentSegment_eq (m : TSSegmentManager) (io : SegmentIo) :
    m.completeCurrentSegment io =
      if m.config.generatePlaylist then (m.pushed io).generateHLSPlaylist io.opened else m.pushed io := by
  have hconfig : (m.pushed io).config = m.config := rfl
  have hcomplete : (m.pushed io).currentSegment.isComplete = true := rfl
  cases hgenerate : m.config.generatePlaylist <;>
    simp [completeCurrentSegment, updatePlaylistWithNewSegment, hconfig, hcomplete, hgenerate]

theorem Numbered.pushed (h : m.Numbered) (hpending : m.isPending = true) (io : SegmentIo) : (m.pushed io).Numbered := by
  simp only [isPending, Bool.and_eq_true, decide_eq_true_eq, Bool.not_eq_true'] at hpending
  obtain ⟨hne, hincomplete⟩ := hpending
  rcases h.current with ⟨hempty, -⟩ | ⟨hname, hnext, hnumber⟩
  · exact absurd hempty hne
  · rw [hincomplete, if_neg Bool.false_ne_true] at hnumber
    constructor
    · intro segment hsegment
      rcases List.mem_append.mp hsegment with hold | hnew
      · exact h.complete segment hold
      · obtain rfl := List.mem_singleton.mp hnew
        rfl
    · simp only [TSSegmentManager.pushed, List.map_append, List.length_append, List.map_cons, List.map_nil,
        List.length_singleton, h.numbered, hnumber, List.range'_concat]
      simp [Nat.add_comm]
    · intro segment hsegment
      rcases List.mem_append.mp hsegment with hold | hnew
      · exact h.named segment hold
      · obtain rfl := List.mem_singleton.mp hnew
        exact hname
    · simp [TSSegmentManager.pushed, h.once, getCurrentSegmentPath, hne]
    · intro p hp
      rw [TSSegmentManager.pushed, List.map_append]
      exact (h.listed p hp).trans (List.prefix_append _ _)
    · right
      refine ⟨hname, hnext, ?_⟩
      simp [TSSegmentManager.pushed, hnumber]

theorem Numbered.completeCurrentSegment (h : m.Numbered) (hpending : m.isPending = true) (io : SegmentIo) :
    (m.completeCurrentSegment io).Numbered := by
  rw [completeCurrentSegment_eq]
  split
  · exact (h.pushed hpending io).generateHLSPlaylist io.opened
  · exact h.pushed hpending io

/-- 確定していないセグメントがなければ、次の番号は、並んだセグメントに続く。 -/
theorem Numbered.beginSegment (h : m.Numbered) (hpending : m.isPending = false) (io : SegmentIo) :
    (m.beginSegment io).Numbered := by
  refine ⟨h.complete, h.numbered, h.named, h.once, h.listed, .inr ⟨rfl, rfl, ?_⟩⟩
  rcases h.current with ⟨-, hsegments, hnext⟩ | ⟨hname, hnext, hnumber⟩
  · simp [TSSegmentManager.beginSegment, hsegments, hnext]
  · have hcomplete : m.currentSegment.isComplete = true := by
      have hne : m.currentSegment.filename ≠ "" := hname ▸ generateSegmentFilename_ne_empty _
      simpa [isPending, hne] using hpending
    simp [TSSegmentManager.beginSegment, hnext, hnumber, hcomplete]

theorem finalizeCurrentSegment_cases (m : TSSegmentManager) (io : SegmentIo) :
    (m.isPending = false ∧ m.finalizeCurrentSegment io = (true, m)) ∨
      (m.isPending = true ∧ m.finalizeCurrentSegment io = (false, m)) ∨
        (m.isPending = true ∧ m.finalizeCurrentSegment io = (true, m.completeCurrentSegment io)) := by
  unfold finalizeCurrentSegment
  cases m.isPending with
  | false => exact .inl ⟨rfl, rfl⟩
  | true =>
      cases io.renamed with
      | false => exact .inr (.inl ⟨rfl, rfl⟩)
      | true => exact .inr (.inr ⟨rfl, rfl⟩)

/-- 四つの呼び出しは、確定していないセグメントのないときは何もしない確定から始まる。 -/
theorem ite_finalizeCurrentSegment (m : TSSegmentManager) (io : SegmentIo) :
    (if m.isPending then m.finalizeCurrentSegment io else (true, m)) = m.finalizeCurrentSegment io := by
  unfold finalizeCurrentSegment
  cases m.isPending <;> rfl

theorem isPending_completeCurrentSegment (m : TSSegmentManager) (io : SegmentIo) :
    (m.completeCurrentSegment io).isPending = false := by
  rw [completeCurrentSegment_eq]
  split <;> simp [isPending, TSSegmentManager.pushed]

theorem Numbered.finalizeCurrentSegment (h : m.Numbered) (io : SegmentIo) : (m.finalizeCurrentSegment io).2.Numbered := by
  rcases m.finalizeCurrentSegment_cases io with ⟨-, heq⟩ | ⟨-, heq⟩ | ⟨hpending, heq⟩ <;> rw [heq]
  · exact h
  · exact h
  · exact h.completeCurrentSegment hpending io

/-- 確定に成功すれば、確定していないセグメントは残らない。 -/
theorem isPending_of_finalized {io : SegmentIo} (h : (m.finalizeCurrentSegment io).1 = true) :
    (m.finalizeCurrentSegment io).2.isPending = false := by
  rcases m.finalizeCurrentSegment_cases io with ⟨hpending, heq⟩ | ⟨-, heq⟩ | ⟨-, heq⟩ <;> rw [heq] at h ⊢
  · exact hpending
  · cases h
  · exact m.isPending_completeCurrentSegment io

/-- 確定していないセグメントがなければ、番号を進めることは失敗しない。 -/
theorem rotateToNewSegment_of_not_pending (h : m.isPending = false) (io : SegmentIo) :
    m.rotateToNewSegment io = (true, m.beginSegment io) := by
  simp [rotateToNewSegment, h]

theorem Numbered.perform (h : m.Numbered) (call : SegmentCall) (io : SegmentIo) : (call.perform io m).2.Numbered := by
  have hfinal := h.finalizeCurrentSegment io
  cases call with
  | finalize => exact hfinal
  | cleanup =>
      simp only [SegmentCall.perform, TSSegmentManager.cleanup, ite_finalizeCurrentSegment]
      exact hfinal
  | rotate =>
      simp only [SegmentCall.perform, rotateToNewSegment, ite_finalizeCurrentSegment]
      cases hresult : (m.finalizeCurrentSegment io).1 with
      | false => simpa using hfinal
      | true => simpa using hfinal.beginSegment (isPending_of_finalized hresult) io
  | endSession =>
      simp only [SegmentCall.perform, endCurrentSession, ite_finalizeCurrentSegment]
      split
      · exact hfinal.generateHLSPlaylist io.reopened
      · exact hfinal

/-- 失敗した呼び出しは、セグメントの列も番号も変えない。 -/
theorem perform_unchanged {call : SegmentCall} {io : SegmentIo} (h : (call.perform io m).1 = false) :
    (call.perform io m).2.currentSession = m.currentSession ∧ (call.perform io m).2.currentSegment = m.currentSegment := by
  have hkeep : (m.finalizeCurrentSegment io).1 = false → (m.finalizeCurrentSegment io).2 = m := by
    rcases m.finalizeCurrentSegment_cases io with ⟨-, heq⟩ | ⟨-, heq⟩ | ⟨-, heq⟩ <;> simp [heq]
  cases call with
  | finalize =>
      simp only [SegmentCall.perform] at h ⊢
      simp [hkeep h]
  | cleanup =>
      simp only [SegmentCall.perform, TSSegmentManager.cleanup, ite_finalizeCurrentSegment] at h ⊢
      simp [hkeep h]
  | rotate =>
      simp only [SegmentCall.perform, rotateToNewSegment, ite_finalizeCurrentSegment] at h ⊢
      cases hresult : (m.finalizeCurrentSegment io).1 with
      | false => simp [hkeep hresult]
      | true => simp [hresult] at h
  | endSession =>
      simp only [SegmentCall.perform, endCurrentSession, ite_finalizeCurrentSegment] at h ⊢
      split_ifs at h ⊢ <;> simp [hkeep h]

/-! ## 書いた再生リスト -/

@[simp] theorem config_finalizeCurrentSegment (m : TSSegmentManager) (io : SegmentIo) :
    (m.finalizeCurrentSegment io).2.config = m.config := by
  have hcomplete : (m.completeCurrentSegment io).config = m.config := by
    rw [completeCurrentSegment_eq]
    split <;> simp [TSSegmentManager.pushed]
  rcases m.finalizeCurrentSegment_cases io with ⟨-, heq⟩ | ⟨-, heq⟩ | ⟨-, heq⟩ <;> simp [heq, hcomplete]

@[simp] theorem playlistPath_completeCurrentSegment (m : TSSegmentManager) (io : SegmentIo) :
    (m.completeCurrentSegment io).playlistPath = m.playlistPath := by
  rw [completeCurrentSegment_eq]
  split <;> simp [TSSegmentManager.pushed]

@[simp] theorem playlistPath_finalizeCurrentSegment (m : TSSegmentManager) (io : SegmentIo) :
    (m.finalizeCurrentSegment io).2.playlistPath = m.playlistPath := by
  rcases m.finalizeCurrentSegment_cases io with ⟨-, heq⟩ | ⟨-, heq⟩ | ⟨-, heq⟩ <;> simp [heq]

@[simp] theorem playlistPath_perform (m : TSSegmentManager) (call : SegmentCall) (io : SegmentIo) :
    (call.perform io m).2.playlistPath = m.playlistPath := by
  have hfinal := m.playlistPath_finalizeCurrentSegment io
  cases call with
  | finalize => exact hfinal
  | cleanup =>
      simp only [SegmentCall.perform, TSSegmentManager.cleanup, ite_finalizeCurrentSegment]
      exact hfinal
  | rotate =>
      simp only [SegmentCall.perform, rotateToNewSegment, ite_finalizeCurrentSegment]
      split <;> simp [TSSegmentManager.beginSegment]
  | endSession =>
      simp only [SegmentCall.perform, endCurrentSession, ite_finalizeCurrentSegment]
      split <;> simp

theorem Numbered.listed_finalizeCurrentSegment (h : m.Numbered) (hlisted : m.Listed) (hpath : m.playlistPath ≠ "")
    {io : SegmentIo} (hopened : io.opened = true) : (m.finalizeCurrentSegment io).2.Listed := by
  rcases m.finalizeCurrentSegment_cases io with ⟨-, heq⟩ | ⟨-, heq⟩ | ⟨hpending, heq⟩ <;> rw [heq]
  · exact hlisted
  · exact hlisted
  · simp only [completeCurrentSegment_eq, hopened]
    cases hgenerate : m.config.generatePlaylist with
    | false =>
        -- 再生リストを書かない設定では、一度も書かない
        simp only [Bool.false_eq_true, if_false]
        simpa [Listed, TSSegmentManager.pushed, hgenerate] using hlisted
    | true => exact (h.pushed hpending io).listed_generateHLSPlaylist hpath hgenerate (by simp [TSSegmentManager.pushed])

theorem Numbered.listed_perform (h : m.Numbered) (hlisted : m.Listed) (hpath : m.playlistPath ≠ "") (call : SegmentCall)
    {io : SegmentIo} (hopened : io.opened = true ∧ io.reopened = true) : (call.perform io m).2.Listed := by
  have hfinal := h.finalizeCurrentSegment io
  have hfinalListed := h.listed_finalizeCurrentSegment hlisted hpath hopened.1
  cases call with
  | finalize => exact hfinalListed
  | cleanup =>
      simp only [SegmentCall.perform, TSSegmentManager.cleanup, ite_finalizeCurrentSegment]
      exact hfinalListed
  | rotate =>
      simp only [SegmentCall.perform, rotateToNewSegment, ite_finalizeCurrentSegment]
      split
      · exact hfinalListed
      · exact hfinalListed
  | endSession =>
      simp only [SegmentCall.perform, endCurrentSession, ite_finalizeCurrentSegment]
      split
      next hwrite =>
        simp only [Bool.and_eq_true, decide_eq_true_eq] at hwrite
        rw [hopened.2]
        exact hfinal.listed_generateHLSPlaylist (by simpa using hpath) hwrite.1 (by simpa using hwrite.2)
      · exact hfinalListed

/-! ## 主な結果 -/

theorem Numbered.run (h : m.Numbered) (ops : List (SegmentCall × SegmentIo)) :
    Numbered (segmentSystem.run ops m) ∧ (segmentSystem.run ops m).playlistPath = m.playlistPath ∧
      (m.Listed → m.playlistPath ≠ "" → (∀ op ∈ ops, op.2.opened = true ∧ op.2.reopened = true) →
        Listed (segmentSystem.run ops m)) := by
  induction ops generalizing m with
  | nil => exact ⟨h, rfl, fun hlisted _ _ => hlisted⟩
  | cons op ops ih =>
      obtain ⟨hnumbered, hpath, hlisted⟩ := ih (h.perform op.1 op.2)
      refine ⟨hnumbered, ?_, fun hl hne hopened => ?_⟩
      · exact hpath.trans (m.playlistPath_perform op.1 op.2)
      · obtain ⟨hop, hops⟩ := List.forall_mem_cons.mp hopened
        exact hlisted (h.listed_perform hl hne op.1 hop) (by simpa using hne) hops

theorem numbered_startNewSession (config : Config) (sessionId : String) (created : Bool) (now : Int) :
    let m := (TSSegmentManager.startNewSession { config } sessionId created now).2
    m.Numbered ∧ m.Listed := by
  cases created <;>
    exact ⟨⟨by simp [startNewSession], by simp [startNewSession], by simp [startNewSession], by simp [startNewSession],
      by simp [startNewSession], .inl (by simp [startNewSession])⟩, by simp [Listed, startNewSession]⟩

end TSSegmentManager

/-- 新しい管理者のセッションは、名前の変更がどう失敗しても、切れ目なく番号の付いたセグメントを並べる。 -/
theorem gapFree (config : TSSegmentManager.Config) (sessionId : String) (created : Bool) (now : Int)
    (ops : List (SegmentCall × SegmentIo)) :
    GapFree ops (segmentSystem.run ops
      (TSSegmentManager.startNewSession { config } sessionId created now).2) := by
  obtain ⟨hstart, hlistedStart⟩ := TSSegmentManager.numbered_startNewSession config sessionId created now
  obtain ⟨h, hpath, hlisted⟩ := hstart.run ops
  constructor
  · exact h.complete
  · exact h.numbered
  · exact h.distinct
  · exact h.once
  · exact fun op hfail => TSSegmentManager.perform_unchanged hfail
  · exact h.listed
  · exact fun hne hopened => hlisted hlistedStart (hpath ▸ hne) hopened

end RtcEgress.Recording
