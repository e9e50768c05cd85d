import RtcEgress.Recording.TsSegments
import RtcEgress.Sink.RecordingSink

/-!
# 録画の途中のセグメントの切り替え

`src/recording_sink.cpp` の `switchToNewTSSegment` と、その後で映像のパケットを書く二つの関数。`AVFormatContext` は、どのファイル
のものか、ファイルを開いたか、見出しを書いたかを持ち、ストリームは、それを持つ `AVFormatContext` のパスで表す。
-/

namespace RtcEgress.Recording.SegmentSwitch

open Sink.RecordingSink (OutputFormat)

structure FormatContext where
  path : String
  opened : Bool := false
  headerWritten : Bool := false

structure UserContext where
  formatContext : Option FormatContext := none
  hasVideoCodec : Bool := true
  hasAudioCodec : Bool := true
  videoStream : Option String := none
  audioStream : Option String := none

/-- `context` は、フレームの属する文脈、`appended` はメタデータに加えたセグメントである。 -/
structure RecordingSink where
  format : OutputFormat := .ts
  tsSegmentManager : Option TSSegmentManager := none
  tsPendingSegmentRotation : Bool := false
  hasMetadata : Bool := true
  context : UserContext := {}
  appended : List SegmentInfo := []

/-- 一度の切り替えの中で起こること。`noFile` は、出力形式がファイルを要しないことである。 -/
structure SwitchIo where
  finalize : SegmentIo := {}
  rotate : SegmentIo := {}
  allocated : Bool := true
  noFile : Bool := false
  opened : Bool := true
  videoStream : Bool := true
  audioStream : Bool := true
  headerWritten : Bool := true

/-- 開けなくても、割り当てた `AVFormatContext` は残る。 -/
def setupOutputFormat (io : SwitchIo) (path : String) : Bool × Option FormatContext :=
  if !io.allocated then (false, none)
  else if io.noFile then (true, some { path })
  else if !io.opened then (false, some { path })
  else (true, some { path, opened := true })

namespace UserContext

/-- 符号化器のあるストリームを、新しい `AVFormatContext` に加える。 -/
def addStreams (context : UserContext) (io : SwitchIo) (path : String) : UserContext :=
  { context with
    videoStream := if context.hasVideoCodec then (if io.videoStream then some path else none) else context.videoStream
    audioStream := if context.hasAudioCodec then (if io.audioStream then some path else none) else context.audioStream }

def writeHeader (context : UserContext) : UserContext :=
  { context with formatContext := context.formatContext.map fun f => { f with headerWritten := true } }

end UserContext

namespace RecordingSink

/-- 前のセグメントの `AVFormatContext` を閉じてから、`manager` の今のセグメントのものを作る。 -/
def openNewSegment (s : RecordingSink) (manager : TSSegmentManager) (io : SwitchIo) : Bool × RecordingSink :=
  let newSegmentPath := manager.getCurrentTempSegmentPath
  let (ready, formatContext) := setupOutputFormat io newSegmentPath
  let context := { s.context with formatContext }
  if !ready then (false, { s with context })
  else
    let context := context.addStreams io newSegmentPath
    if !io.headerWritten then (false, { s with context })
    else
      let completed := if s.hasMetadata then manager.currentSession.segments.getLast?.filter (·.isComplete) else none
      (true, { s with context := context.writeHeader, appended := s.appended ++ completed.toList })

def switchToNewTSSegment (s : RecordingSink) (io : SwitchIo) : Bool × RecordingSink :=
  match s.tsSegmentManager, s.context.formatContext with
  | some manager, some _ =>
      let (finalized, manager) := manager.finalizeCurrentSegment io.finalize
      let s := { s with tsSegmentManager := some manager }
      if !finalized then (false, s)
      else
        let (rotated, manager) := manager.rotateToNewSegment io.rotate
        let s := { s with tsSegmentManager := some manager }
        if !rotated then (false, s) else s.openNewSegment manager io
  | _, _ => (false, s)

/-- このキーフレームで、切り替えを呼ぶ。 -/
def switches (s : RecordingSink) : Bool := s.format = .ts && s.tsPendingSegmentRotation && s.tsSegmentManager.isSome

end RecordingSink

/-- 一つの映像のパケットの行き先。`written` は、`av_interleaved_write_frame` に渡す `AVFormatContext` である。 -/
inductive PacketWrite where
  | skipped
  | written (formatContext : Option FormatContext)

namespace RecordingSink

/-- 二つの関数が、符号化器から受け取ったパケットに対して行うこと。 -/
def handlePacket (s : RecordingSink) (keyframe : Bool) (io : SwitchIo) : PacketWrite × RecordingSink :=
  if !s.context.hasVideoCodec then (.skipped, s)
  else
    let s :=
      if keyframe && s.switches then
        let (switched, s) := s.switchToNewTSSegment io
        if switched then { s with tsPendingSegmentRotation := false } else s
      else s
    -- 切り替えの成否によらずに書く
    (.written s.context.formatContext, s)

def encodeIndividualFrame (s : RecordingSink) (keyframe : Bool) (io : SwitchIo) : PacketWrite × RecordingSink :=
  s.handlePacket keyframe io

def onComposedFrame (s : RecordingSink) (keyframe : Bool) (io : SwitchIo) : PacketWrite × RecordingSink :=
  s.handlePacket keyframe io

/-- 見出しのある `AVFormatContext` があって、セグメントの管理者の今のセグメントのものである。 -/
def InStep (s : RecordingSink) : Prop :=
  ∃ f manager, s.context.formatContext = some f ∧ s.tsSegmentManager = some manager ∧ f.headerWritten = true ∧
    f.path = manager.getCurrentTempSegmentPath

/-- セグメントを確定する名前の変更が失敗する。 -/
def RenameFails (s : RecordingSink) (io : SwitchIo) : Prop :=
  io.finalize.renamed = false ∧ ∃ manager, s.tsSegmentManager = some manager ∧ manager.isPending = true

end RecordingSink

/-- パケットは、書かないか、見出しのある `AVFormatContext` に書き、その後も録画は続けて書ける。 -/
structure StaysWritable (result : PacketWrite × RecordingSink) : Prop where
  written : ∀ target, result.1 = .written target → ∃ f, target = some f ∧ f.headerWritten = true
  inStep : result.2.InStep

/-! ## 切り替えの失敗 -/

namespace RecordingSink

variable {s : RecordingSink} {io : SwitchIo}

/-- 新しいセグメントを開けなかったとき、見出しのある `AVFormatContext` はない。 -/
theorem headerWritten_of_openNewSegment {manager : TSSegmentManager} (h : (s.openNewSegment manager io).1 = false)
    {f : FormatContext} (hf : (s.openNewSegment manager io).2.context.formatContext = some f) :
    f.headerWritten = false := by
  simp only [openNewSegment, setupOutputFormat] at h hf
  cases hallocated : io.allocated <;> cases hnoFile : io.noFile <;> cases hopened : io.opened <;>
    cases hheader : io.headerWritten <;>
    simp [hallocated, hnoFile, hopened, hheader, UserContext.addStreams] at h hf <;> simp [← hf]

theorem not_inStep_of_openNewSegment {manager : TSSegmentManager} (h : (s.openNewSegment manager io).1 = false) :
    ¬(s.openNewSegment manager io).2.InStep := by
  rintro ⟨f, m, hf, -, hheader, -⟩
  rw [headerWritten_of_openNewSegment h hf] at hheader
  cases hheader

/-- 確定に失敗した切り替えは、何も変えない。 -/
theorem switchToNewTSSegment_of_renameFails (h : s.RenameFails io) : s.switchToNewTSSegment io = (false, s) := by
  obtain ⟨hrenamed, manager, hmanager, hpending⟩ := h
  have hfinalize : manager.finalizeCurrentSegment io.finalize = (false, manager) := by
    simp [TSSegmentManager.finalizeCurrentSegment, hpending, hrenamed]
  have hsame : { s with tsSegmentManager := some manager } = s := by simp [← hmanager]
  unfold switchToNewTSSegment
  cases hformat : s.context.formatContext with
  | none => simp [hmanager]
  | some f => simpa [hmanager, hfinalize] using hsame

/-- 確定に成功すれば、番号を進めることは失敗せず、新しいセグメントを開くことになる。 -/
theorem switchToNewTSSegment_of_not_renameFails {manager : TSSegmentManager} {f : FormatContext}
    (hmanager : s.tsSegmentManager = some manager) (hformat : s.context.formatContext = some f) (h : ¬s.RenameFails io) :
    ∃ s' manager', s.switchToNewTSSegment io = openNewSegment s' manager' io := by
  have hfinalized : (manager.finalizeCurrentSegment io.finalize).1 = true := by
    unfold TSSegmentManager.finalizeCurrentSegment
    cases hpending : manager.isPending with
    | false => rfl
    | true =>
        cases hrenamed : io.finalize.renamed with
        | false => exact absurd ⟨hrenamed, manager, hmanager, hpending⟩ h
        | true => rfl
  have hrotated := TSSegmentManager.rotateToNewSegment_of_not_pending
    (TSSegmentManager.isPending_of_finalized hfinalized) io.rotate
  let rotated := (manager.finalizeCurrentSegment io.finalize).2.beginSegment io.rotate
  exact ⟨{ s with tsSegmentManager := some rotated }, rotated, by
    simp [switchToNewTSSegment, hmanager, hformat, hfinalized, hrotated, rotated]⟩

/-- 失敗した切り替えの後も続けて書けるのは、確定に失敗して、前から続けて書けたときに限る。 -/
theorem inStep_switchToNewTSSegment (h : (s.switchToNewTSSegment io).1 = false) :
    (s.switchToNewTSSegment io).2.InStep ↔ s.InStep ∧ s.RenameFails io := by
  by_cases hrename : s.RenameFails io
  · simp [switchToNewTSSegment_of_renameFails hrename, hrename]
  · simp only [hrename, and_false, iff_false]
    cases hmanager : s.tsSegmentManager with
    | none => simp [switchToNewTSSegment, InStep, hmanager]
    | some manager =>
        cases hformat : s.context.formatContext with
        | none => simp [switchToNewTSSegment, InStep, hmanager, hformat]
        | some f =>
            obtain ⟨s', manager', heq⟩ := switchToNewTSSegment_of_not_renameFails hmanager hformat hrename
            rw [heq] at h ⊢
            exact not_inStep_of_openNewSegment h

/-- パケットは、その後の文脈の `AVFormatContext` に書く。 -/
theorem staysWritable_handlePacket (hcodec : s.context.hasVideoCodec = true) (hswitches : s.switches = true)
    (h : (s.switchToNewTSSegment io).1 = false) :
    StaysWritable (s.handlePacket true io) ↔ (s.switchToNewTSSegment io).2.InStep := by
  have heq : s.handlePacket true io =
      (.written (s.switchToNewTSSegment io).2.context.formatContext, (s.switchToNewTSSegment io).2) := by
    simp [handlePacket, hcodec, hswitches, h]
  rw [heq]
  constructor
  · exact fun hstays => hstays.inStep
  · intro hstep
    refine ⟨fun target htarget => ?_, hstep⟩
    obtain ⟨f, -, hf, -, hheader, -⟩ := hstep
    cases htarget
    exact ⟨f, hf, hheader⟩

end RecordingSink

/-! ## 主な結果 -/

/-- どちらの関数でも、失敗した切り替えの後に続けて書けるのは、確定の名前の変更で失敗し、切り替えの前に書けたときに限る。 -/
theorem failedSwitch_iff {s : RecordingSink} {io : SwitchIo} (hcodec : s.context.hasVideoCodec = true)
    (hswitches : s.switches = true) (h : (s.switchToNewTSSegment io).1 = false) :
    StaysWritable (s.encodeIndividualFrame true io) ∧ StaysWritable (s.onComposedFrame true io) ↔
      s.InStep ∧ s.RenameFails io := by
  have hstays := RecordingSink.staysWritable_handlePacket hcodec hswitches h
  rw [RecordingSink.encodeIndividualFrame, RecordingSink.onComposedFrame, and_self, hstays]
  exact RecordingSink.inStep_switchToNewTSSegment h

/-- 最初のセグメントを書いていて、切り替えを待つ。 -/
def recordingFirst : RecordingSink :=
  let manager := ((TSSegmentManager.startNewSession { config := {} } "s" true 0).2.rotateToNewSegment {}).2
  { tsSegmentManager := some manager
    tsPendingSegmentRotation := true
    context := { formatContext := some { path := manager.getCurrentTempSegmentPath, opened := true, headerWritten := true } } }

theorem failedSwitch_iff_renameFails :
    StaysWritable (recordingFirst.encodeIndividualFrame true { finalize := { renamed := false } }) ∧
        StaysWritable (recordingFirst.onComposedFrame true { finalize := { renamed := false } }) ↔
      recordingFirst.InStep ∧ recordingFirst.RenameFails { finalize := { renamed := false } } :=
  failedSwitch_iff rfl rfl (by decide)

/-- 新しいセグメントのファイルを開けないと、見出しのない `AVFormatContext` に書く。 -/
theorem not_failedSwitch : ¬∀ (s : RecordingSink) (io : SwitchIo), s.context.hasVideoCodec = true → s.switches = true →
    s.InStep → (s.switchToNewTSSegment io).1 = false →
      StaysWritable (s.encodeIndividualFrame true io) ∧ StaysWritable (s.onComposedFrame true io) := by
  intro h
  have h := h recordingFirst { opened := false } rfl rfl ⟨_, _, rfl, rfl, rfl, rfl⟩ (by decide)
  obtain ⟨f, hf, hheader⟩ := h.1.written _ rfl
  revert hheader
  obtain rfl := Option.some.inj hf
  decide

end RtcEgress.Recording.SegmentSwitch
