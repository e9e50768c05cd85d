import Mathlib.Tactic.Linarith
import RtcEgress.Recording.SegmentSwitch

/-!
# セグメントの長さと再生リストの目標

録画のスレッドは、時間の経ったセグメントに切り替えの印を付けるだけであり、セグメントは、その後のキーフレームで終わる。再生リスト
の `EXT-X-TARGETDURATION` は、設定の値である。
-/

namespace RtcEgress.Recording

open RtcEgress.Lib
open Sink.RecordingSink (OutputFormat)

/-- `std::chrono::duration_cast<std::chrono::seconds>` は、零に向かって切り捨てる。 -/
def TSSegmentManager.shouldRotateSegment (m : TSSegmentManager) (currentTime : Int) : Bool :=
  m.currentSegment.filename ≠ "" &&
    m.config.segmentDurationSeconds ≤ (currentTime - m.currentSegment.startTime).tdiv 1000000000

/-- 千分の一秒で表した長さを、最も近い秒にする。 -/
def nearestSecond (milliseconds : Int) : Int := (milliseconds + 500) / 1000

/-- どの `EXTINF` の長さも、丸めれば目標を超えない。 -/
def Playlist.ObeysTarget (p : Playlist) : Prop := ∀ entry ∈ p.entries, nearestSecond entry.1 ≤ p.targetDuration

instance (p : Playlist) : Decidable p.ObeysTarget := inferInstanceAs (Decidable (∀ entry ∈ p.entries, _))

/-! ## 録画の流れ -/

open SegmentSwitch

namespace SegmentSwitch.RecordingSink

def checkAndRotateSegmentIfNeeded (s : RecordingSink) (currentTime : Int) : RecordingSink :=
  match s.tsSegmentManager with
  | none => s
  | some manager =>
      if s.format ≠ .ts then s
      else if manager.shouldRotateSegment currentTime then { s with tsPendingSegmentRotation := true }
      else s

/-- 初めてのフレームで、セグメントを一つ始める。 -/
def initializeEncoder (s : RecordingSink) (io : SegmentIo) : RecordingSink :=
  if s.format ≠ .ts then s
  else { s with tsSegmentManager := s.tsSegmentManager.map fun manager => (manager.rotateToNewSegment io).2 }

def stop (s : RecordingSink) (io : SegmentIo) : RecordingSink :=
  if s.format ≠ .ts then s
  else { s with tsSegmentManager := s.tsSegmentManager.map fun manager => (manager.endCurrentSession io).2 }

/-- `~TSSegmentManager` -/
def destroy (s : RecordingSink) (io : SegmentIo) : RecordingSink :=
  { s with tsSegmentManager := s.tsSegmentManager.map fun manager => (manager.cleanup io).2 }

end SegmentSwitch.RecordingSink

/-- 録画の間の呼び出し。二つの関数に来る映像のパケットは、文脈とともに与える。 -/
inductive RecordingCall where
  | initializeEncoder (io : SegmentIo)
  | checkAndRotateSegmentIfNeeded (currentTime : Int)
  | encodeIndividualFrame (context : SegmentSwitch.UserContext) (keyframe : Bool) (io : SwitchIo)
  | onComposedFrame (context : SegmentSwitch.UserContext) (keyframe : Bool) (io : SwitchIo)
  | stop (io : SegmentIo)
  | destroy (io : SegmentIo)

namespace RecordingCall

def perform (s : SegmentSwitch.RecordingSink) : RecordingCall → SegmentSwitch.RecordingSink
  | initializeEncoder io => s.initializeEncoder io
  | checkAndRotateSegmentIfNeeded currentTime => s.checkAndRotateSegmentIfNeeded currentTime
  | encodeIndividualFrame context keyframe io =>
      (SegmentSwitch.RecordingSink.encodeIndividualFrame { s with context } keyframe io).2
  | onComposedFrame context keyframe io => (SegmentSwitch.RecordingSink.onComposedFrame { s with context } keyframe io).2
  | stop io => s.stop io
  | destroy io => s.destroy io

/-- 呼び出しの中で、今のセグメントを確定するときに起こること。 -/
def finalizes (s : SegmentSwitch.RecordingSink) : RecordingCall → Option SegmentIo
  | initializeEncoder io => if s.format = .ts then some io else none
  | checkAndRotateSegmentIfNeeded _ => none
  | encodeIndividualFrame context keyframe io | onComposedFrame context keyframe io =>
      if context.hasVideoCodec && keyframe && s.switches && context.formatContext.isSome then some io.finalize else none
  | stop io => if s.format = .ts then some io else none
  | destroy io => some io

end RecordingCall

abbrev recordingSystem : System RecordingCall where
  State := SegmentSwitch.RecordingSink
  step call s := call.perform s

/-- 確定するセグメントは、始めてから、目標に 0.4995 秒を加えた時間の経つ前に終わる。 -/
def EndsInTime (call : RecordingCall) (s : SegmentSwitch.RecordingSink) : Prop :=
  ∀ io ∈ call.finalizes s, ∀ manager ∈ s.tsSegmentManager, manager.isPending = true → io.renamed = true →
    io.finalizedAt - manager.currentSegment.startTime < manager.config.segmentDurationSeconds * 1000000000 + 499500000

/-- 最後に書いた再生リストは、目標を守る。 -/
def ObeysTarget (s : SegmentSwitch.RecordingSink) : Prop :=
  ∀ manager ∈ s.tsSegmentManager, ∀ p ∈ manager.playlist, p.ObeysTarget

def startRecording (config : TSSegmentManager.Config) (sessionId : String) (now : Int) : SegmentSwitch.RecordingSink :=
  { tsSegmentManager := some (TSSegmentManager.startNewSession { config } sessionId true now).2 }

/-! ## 丸め -/

theorem roundHalfEven_le_iff {q : Rat} {n : Int} (hodd : n % 2 = 1) : roundHalfEven q ≤ n ↔ q < n + 1 / 2 := by
  have hle : (q.floor : Rat) ≤ q := Rat.floor_le q
  have hlt : q < q.floor + 1 := by exact_mod_cast Rat.lt_floor_add_one q
  have hcast {a b : Int} (h : a ≤ b) : (a : Rat) ≤ b := by exact_mod_cast h
  unfold roundHalfEven
  split_ifs with hbelow habove heven
  · -- 小数部が半分に満たない
    constructor
    · intro h
      linarith [hcast h]
    · intro h
      by_contra hn
      have := hcast (show n + 1 ≤ q.floor by omega)
      push_cast at this
      linarith
  · constructor
    · intro h
      have := hcast h
      push_cast at this
      linarith
    · intro h
      by_contra hn
      linarith [hcast (show n ≤ q.floor by omega)]
  · -- ちょうど半分で、`n` は奇数なので、偶数の床とは異なる
    constructor
    · intro h
      have := hcast (show q.floor + 1 ≤ n by omega)
      push_cast at this
      linarith
    · intro h
      by_contra hn
      linarith [hcast (show n ≤ q.floor by omega)]
  · constructor
    · intro h
      have := hcast h
      push_cast at this
      linarith
    · intro h
      by_contra hn
      linarith [hcast (show n ≤ q.floor by omega)]

/-- 長さ `b - a` のセグメントは、目標に 0.4995 秒を加えた時間より短いときに限り、目標を守る。 -/
theorem nearestSecond_duration_le_iff (a b target : Int) :
    nearestSecond (roundHalfEven ((b - a : Rat) / 1000000000 * 1000)) ≤ target ↔
      b - a < target * 1000000000 + 499500000 := by
  have hsecond (x : Int) : nearestSecond x ≤ target ↔ x ≤ target * 1000 + 499 := by
    unfold nearestSecond
    omega
  have hcast : b - a < target * 1000000000 + 499500000 ↔ (b - a : Rat) < target * 1000000000 + 499500000 := by
    exact_mod_cast Iff.rfl
  rw [hsecond, roundHalfEven_le_iff (by omega), hcast]
  push_cast
  constructor <;> intro h <;> linarith

/-! ## 目標を守る再生リスト -/

namespace TSSegmentManager

variable {m : TSSegmentManager}

/-- 並んだセグメントも、最後に書いた再生リストも、目標を守る。 -/
structure InTime (m : TSSegmentManager) : Prop where
  segments : ∀ segment ∈ m.currentSession.segments,
    nearestSecond (roundHalfEven (segment.duration * 1000)) ≤ m.config.segmentDurationSeconds
  playlist : ∀ p ∈ m.playlist, p.ObeysTarget

/-- 書いた再生リストは、並んだセグメントのうち完了したものからなる。 -/
theorem InTime.generateHLSPlaylist (h : m.InTime) (opened : Bool) : (m.generateHLSPlaylist opened).InTime := by
  refine ⟨by simpa using h.segments, ?_⟩
  unfold TSSegmentManager.generateHLSPlaylist
  split
  · exact h.playlist
  · intro p hp entry hentry
    obtain rfl := Option.some.inj hp
    obtain ⟨segment, hsegment, rfl⟩ := List.mem_map.mp hentry
    exact h.segments segment (List.mem_filter.mp hsegment).1

theorem InTime.beginSegment (h : m.InTime) (io : SegmentIo) : (m.beginSegment io).InTime := ⟨h.segments, h.playlist⟩

/-- 今のセグメントを確定する時刻が、間に合っている。 -/
def CurrentInTime (m : TSSegmentManager) (io : SegmentIo) : Prop :=
  m.isPending = true → io.renamed = true →
    io.finalizedAt - m.currentSegment.startTime < m.config.segmentDurationSeconds * 1000000000 + 499500000

theorem InTime.finalizeCurrentSegment {io : SegmentIo} (h : m.InTime) (hend : m.CurrentInTime io) :
    (m.finalizeCurrentSegment io).2.InTime := by
  unfold TSSegmentManager.finalizeCurrentSegment
  split_ifs with hpending hrenamed
  · exact h
  · exact h
  · simp only [Bool.not_eq_eq_eq_not, Bool.not_true, Bool.not_eq_false] at hpending hrenamed
    have hpushed : (m.pushed io).InTime := by
      refine ⟨fun segment hsegment => ?_, h.playlist⟩
      rcases List.mem_append.mp hsegment with hold | hnew
      · exact h.segments segment hold
      · obtain rfl := List.mem_singleton.mp hnew
        exact (nearestSecond_duration_le_iff _ _ _).mpr (hend hpending hrenamed)
    simp only [completeCurrentSegment_eq]
    split
    · exact hpushed.generateHLSPlaylist io.opened
    · exact hpushed

/-- 一つの呼び出しの中で、確定に続くこと。 -/
inductive Afterwards (m : TSSegmentManager) : TSSegmentManager → Prop where
  | same : Afterwards m m
  | begun (io : SegmentIo) : Afterwards m (m.beginSegment io)
  | rewritten (opened : Bool) : Afterwards m (m.generateHLSPlaylist opened)

theorem InTime.afterwards {m' : TSSegmentManager} (h : m.InTime) (hafter : m.Afterwards m') : m'.InTime := by
  cases hafter with
  | same => exact h
  | begun io => exact h.beginSegment io
  | rewritten opened => exact h.generateHLSPlaylist opened

/-- 開けた再生リストを書き直しても、同じものになる。 -/
theorem playlist_rewritten (m : TSSegmentManager) (opened : Bool) :
    ((m.generateHLSPlaylist true).generateHLSPlaylist opened).playlist = (m.generateHLSPlaylist true).playlist := by
  cases opened with
  | false => rfl
  | true =>
      by_cases hpath : m.playlistPath = "" <;> simp [TSSegmentManager.generateHLSPlaylist, hpath]

theorem playlist_afterwards {m' : TSSegmentManager} (h : (m.generateHLSPlaylist true).Afterwards m') :
    m'.playlist = (m.generateHLSPlaylist true).playlist := by
  cases h with
  | same => rfl
  | begun io => rfl
  | rewritten opened => exact m.playlist_rewritten opened

/-- 再生リストを書けたならば、それが目標を守るのは、確定が間に合ったときに限る。 -/
theorem currentInTime_of_obeysTarget {m' : TSSegmentManager} {io : SegmentIo} (hgenerate : m.config.generatePlaylist = true)
    (hpath : m.playlistPath ≠ "") (hopened : io.opened = true) (hafter : (m.finalizeCurrentSegment io).2.Afterwards m')
    (h : ∀ p ∈ m'.playlist, p.ObeysTarget) : m.CurrentInTime io := by
  intro hpending hrenamed
  have heq : m.finalizeCurrentSegment io = (true, (m.pushed io).generateHLSPlaylist true) := by
    simp [TSSegmentManager.finalizeCurrentSegment, completeCurrentSegment_eq, hpending, hrenamed, hgenerate, hopened]
  rw [heq] at hafter
  have hplaylist : m'.playlist = some ⟨m.config.segmentDurationSeconds,
      ((m.pushed io).currentSession.segments.filter (·.isComplete)).map fun segment =>
        (roundHalfEven (segment.duration * 1000), segment.filename)⟩ := by
    rw [playlist_afterwards hafter]
    simp [TSSegmentManager.generateHLSPlaylist, pushed, hpath]
  -- 確定したセグメントは、最後に並ぶ
  have hlast := h _ hplaylist _ (List.mem_map_of_mem (List.mem_filter.mpr
    ⟨List.mem_append_right m.currentSession.segments (List.mem_singleton_self (m.pushed io).currentSegment), rfl⟩))
  exact (nearestSecond_duration_le_iff _ _ _).mp hlast

end TSSegmentManager

/-! ## 呼び出しが管理者に行うこと -/

namespace SegmentSwitch.RecordingSink

variable {s : RecordingSink} {manager : TSSegmentManager}

@[simp] theorem tsSegmentManager_openNewSegment (s : RecordingSink) (manager : TSSegmentManager) (io : SwitchIo) :
    (s.openNewSegment manager io).2.tsSegmentManager = s.tsSegmentManager := by
  simp only [openNewSegment]
  split_ifs <;> rfl

theorem afterwards_rotateToNewSegment (m : TSSegmentManager) (io : SegmentIo) :
    (m.finalizeCurrentSegment io).2.Afterwards (m.rotateToNewSegment io).2 := by
  simp only [TSSegmentManager.rotateToNewSegment, TSSegmentManager.ite_finalizeCurrentSegment]
  split
  · exact .same
  · exact .begun io

theorem afterwards_endCurrentSession (m : TSSegmentManager) (io : SegmentIo) :
    (m.finalizeCurrentSegment io).2.Afterwards (m.endCurrentSession io).2 := by
  simp only [TSSegmentManager.endCurrentSession, TSSegmentManager.ite_finalizeCurrentSegment]
  split
  · exact .rewritten io.reopened
  · exact .same

theorem afterwards_cleanup (m : TSSegmentManager) (io : SegmentIo) :
    (m.finalizeCurrentSegment io).2.Afterwards (m.cleanup io).2 := by
  rw [TSSegmentManager.cleanup, TSSegmentManager.ite_finalizeCurrentSegment]
  exact .same

/-- 切り替えは、セグメントを確定し、成功すれば次の番号のものを始める。 -/
theorem afterwards_switchToNewTSSegment {f : FormatContext} (hmanager : s.tsSegmentManager = some manager)
    (hformat : s.context.formatContext = some f) (io : SwitchIo) :
    ∃ manager', (s.switchToNewTSSegment io).2.tsSegmentManager = some manager' ∧
      (manager.finalizeCurrentSegment io.finalize).2.Afterwards manager' := by
  simp only [switchToNewTSSegment, hmanager, hformat]
  cases hfinalized : (manager.finalizeCurrentSegment io.finalize).1 with
  | false => exact ⟨_, rfl, .same⟩
  | true =>
      simp [TSSegmentManager.rotateToNewSegment_of_not_pending (TSSegmentManager.isPending_of_finalized hfinalized)]
      exact .begun io.rotate

theorem tsSegmentManager_handlePacket (s : RecordingSink) (keyframe : Bool) (io : SwitchIo) :
    (s.handlePacket keyframe io).2.tsSegmentManager =
      if s.context.hasVideoCodec && keyframe && s.switches then (s.switchToNewTSSegment io).2.tsSegmentManager
      else s.tsSegmentManager := by
  unfold handlePacket
  cases hcodec : s.context.hasVideoCodec with
  | false => simp
  | true =>
      simp only [Bool.not_true, Bool.false_eq_true, if_false, Bool.true_and]
      cases keyframe && s.switches with
      | false => rfl
      | true =>
          simp only [if_true]
          split <;> rfl

/-- パケットは、切り替えを呼ぶときに限り、確定をする。 -/
theorem handlePacket_afterwards (hmanager : s.tsSegmentManager = some manager) (keyframe : Bool) (io : SwitchIo) :
    ∃ manager', (s.handlePacket keyframe io).2.tsSegmentManager = some manager' ∧
      match if s.context.hasVideoCodec && keyframe && s.switches && s.context.formatContext.isSome then some io.finalize
        else none with
      | some io => (manager.finalizeCurrentSegment io).2.Afterwards manager'
      | none => manager' = manager := by
  rw [tsSegmentManager_handlePacket]
  cases s.context.hasVideoCodec && keyframe && s.switches with
  | false => exact ⟨manager, hmanager, rfl⟩
  | true =>
      cases hformat : s.context.formatContext with
      | none => exact ⟨manager, by simp [switchToNewTSSegment, hmanager, hformat], rfl⟩
      | some f => simpa using afterwards_switchToNewTSSegment hmanager hformat io

end SegmentSwitch.RecordingSink

/-- 呼び出しは、管理者を変えないか、今のセグメントの確定から始まる。 -/
theorem RecordingCall.perform_afterwards {s : SegmentSwitch.RecordingSink} {manager : TSSegmentManager}
    (hmanager : s.tsSegmentManager = some manager) (call : RecordingCall) :
    ∃ manager', (call.perform s).tsSegmentManager = some manager' ∧
      match call.finalizes s with
      | some io => (manager.finalizeCurrentSegment io).2.Afterwards manager'
      | none => manager' = manager := by
  cases call with
  | initializeEncoder io =>
      by_cases hts : s.format = .ts
      · simpa [perform, finalizes, SegmentSwitch.RecordingSink.initializeEncoder, hts, hmanager] using
          SegmentSwitch.RecordingSink.afterwards_rotateToNewSegment manager io
      · simp [perform, finalizes, SegmentSwitch.RecordingSink.initializeEncoder, hts, hmanager]
  | checkAndRotateSegmentIfNeeded currentTime =>
      refine ⟨manager, ?_, rfl⟩
      simp only [perform, SegmentSwitch.RecordingSink.checkAndRotateSegmentIfNeeded, hmanager]
      split_ifs <;> first | exact hmanager | rfl
  | encodeIndividualFrame context keyframe io | onComposedFrame context keyframe io =>
      exact SegmentSwitch.RecordingSink.handlePacket_afterwards (s := { s with context }) hmanager keyframe io
  | stop io =>
      by_cases hts : s.format = .ts
      · simpa [perform, finalizes, SegmentSwitch.RecordingSink.stop, hts, hmanager] using
          SegmentSwitch.RecordingSink.afterwards_endCurrentSession manager io
      · simp [perform, finalizes, SegmentSwitch.RecordingSink.stop, hts, hmanager]
  | destroy io =>
      simpa [perform, finalizes, SegmentSwitch.RecordingSink.destroy, hmanager] using
        SegmentSwitch.RecordingSink.afterwards_cleanup manager io

/-! ## 主な結果 -/

def InTime (s : SegmentSwitch.RecordingSink) : Prop := ∃ manager, s.tsSegmentManager = some manager ∧ manager.InTime

/-- 間に合う確定だけをする呼び出しは、目標を守る再生リストを書く。 -/
theorem InTime.perform {s : SegmentSwitch.RecordingSink} {call : RecordingCall} (h : InTime s) (hend : EndsInTime call s) :
    InTime (call.perform s) := by
  obtain ⟨manager, hmanager, hinTime⟩ := h
  obtain ⟨manager', hmanager', hafter⟩ := call.perform_afterwards hmanager
  refine ⟨manager', hmanager', ?_⟩
  cases hfinalizes : call.finalizes s with
  | none =>
      rw [hfinalizes] at hafter
      exact hafter ▸ hinTime
  | some io =>
      rw [hfinalizes] at hafter
      exact (hinTime.finalizeCurrentSegment (hend io hfinalizes manager hmanager)).afterwards hafter

/-- 再生リストを書く設定で、書く先がある。 -/
def WritesPlaylist (s : SegmentSwitch.RecordingSink) : Prop :=
  ∃ manager, s.tsSegmentManager = some manager ∧ manager.config.generatePlaylist = true ∧ manager.playlistPath ≠ ""

theorem TSSegmentManager.Afterwards.config {m m' : TSSegmentManager} (h : m.Afterwards m') :
    m'.config = m.config ∧ m'.playlistPath = m.playlistPath := by
  cases h with
  | same => exact ⟨rfl, rfl⟩
  | begun io => exact ⟨rfl, rfl⟩
  | rewritten opened => simp

theorem WritesPlaylist.perform {s : SegmentSwitch.RecordingSink} (h : WritesPlaylist s) (call : RecordingCall) :
    WritesPlaylist (call.perform s) := by
  obtain ⟨manager, hmanager, hwrites⟩ := h
  obtain ⟨manager', hmanager', hafter⟩ := call.perform_afterwards hmanager
  refine ⟨manager', hmanager', ?_⟩
  cases hfinalizes : call.finalizes s with
  | none =>
      rw [hfinalizes] at hafter
      exact hafter ▸ hwrites
  | some io =>
      rw [hfinalizes] at hafter
      rw [hafter.config.1, hafter.config.2, TSSegmentManager.config_finalizeCurrentSegment,
        TSSegmentManager.playlistPath_finalizeCurrentSegment]
      exact hwrites

/-- 確定するときに書く再生リストのファイルを、開くことができる。 -/
def Opens (call : RecordingCall) (s : SegmentSwitch.RecordingSink) : Prop := ∀ io ∈ call.finalizes s, io.opened = true

theorem endsInTime_of_obeysTarget {s : SegmentSwitch.RecordingSink} {call : RecordingCall} (h : WritesPlaylist s)
    (hopens : Opens call s) (hobeys : ObeysTarget (call.perform s)) : EndsInTime call s := by
  obtain ⟨manager, hmanager, hgenerate, hpath⟩ := h
  obtain ⟨manager', hmanager', hafter⟩ := call.perform_afterwards hmanager
  intro io hfinalizes m hm
  obtain rfl : manager = m := Option.some.inj (hmanager.symm.trans hm)
  rw [Option.mem_def.mp hfinalizes] at hafter
  exact TSSegmentManager.currentInTime_of_obeysTarget hgenerate hpath (hopens io hfinalizes) hafter
    (hobeys manager' hmanager')

/-- どのセグメントも、目標に 0.4995 秒を加えた時間が経つ前に終わる録画では、どの再生リストも目標を守る。確定のたびに再生リストを
書く録画では、逆も成り立つ。 -/
theorem targetDuration_iff (config : TSSegmentManager.Config) (sessionId : String) (now : Int)
    (calls : List RecordingCall) :
    (recordingSystem.AllMeet EndsInTime calls (startRecording config sessionId now) →
        recordingSystem.AllMeet (fun call s => ObeysTarget (call.perform s)) calls (startRecording config sessionId now)) ∧
      (config.generatePlaylist = true → recordingSystem.AllMeet Opens calls (startRecording config sessionId now) →
        recordingSystem.AllMeet (fun call s => ObeysTarget (call.perform s)) calls (startRecording config sessionId now) →
          recordingSystem.AllMeet EndsInTime calls (startRecording config sessionId now)) := by
  constructor
  · apply System.AllMeet.imp (I := InTime)
    · intro call s hinTime hend
      obtain ⟨manager, hmanager, h⟩ := hinTime.perform hend
      refine ⟨⟨manager, hmanager, h⟩, fun m hm => ?_⟩
      obtain rfl : manager = m := Option.some.inj (hmanager.symm.trans hm)
      exact h.playlist
    · exact ⟨_, rfl, by simp [TSSegmentManager.startNewSession], by simp [TSSegmentManager.startNewSession]⟩
  · intro hgenerate hopens hobeys
    apply (System.allMeet_and.mpr ⟨hopens, hobeys⟩).imp (I := WritesPlaylist)
    · exact fun call s hwrites hcall => ⟨hwrites.perform call, endsInTime_of_obeysTarget hwrites hcall.1 hcall.2⟩
    · exact ⟨_, rfl, hgenerate, by simp [TSSegmentManager.startNewSession]⟩

def lateKeyframe : RecordingCall :=
  .encodeIndividualFrame { formatContext := some { path := "segment_00001.ts.tmp", opened := true, headerWritten := true } }
    true { finalize := { finalizedAt := 11000000000 }, rotate := { rotatedAt := 11000000000 } }

/-- 目標が 10 秒でも、11 秒のセグメントができる。 -/
theorem not_targetDuration : ¬∀ (config : TSSegmentManager.Config) (sessionId : String) (now : Int) (calls : List RecordingCall),
    1 ≤ config.segmentDurationSeconds →
      recordingSystem.AllMeet (fun call s => ObeysTarget (call.perform s)) calls (startRecording config sessionId now) := by
  intro h
  have h := h {} "session" 0 [.initializeEncoder {}, .checkAndRotateSegmentIfNeeded 10000000000, lateKeyframe] (by decide)
  have hwrites : WritesPlaylist (startRecording {} "session" 0) := ⟨_, rfl, rfl, by decide⟩
  let waiting := recordingSystem.run [.initializeEncoder {}, .checkAndRotateSegmentIfNeeded 10000000000]
    (startRecording {} "session" 0)
  have hfinalizes : lateKeyframe.finalizes waiting = some { finalizedAt := 11000000000 } := rfl
  have hopens : Opens lateKeyframe waiting := by
    intro io hio
    obtain rfl := Option.some.inj (hfinalizes.symm.trans hio)
    rfl
  have hwaiting : WritesPlaylist waiting :=
    (hwrites.perform (.initializeEncoder {})).perform (.checkAndRotateSegmentIfNeeded 10000000000)
  have hends : EndsInTime lateKeyframe waiting := endsInTime_of_obeysTarget hwaiting hopens h.2.2.1
  exact absurd (hends _ hfinalizes _ rfl (by decide) rfl) (by decide)

end RtcEgress.Recording
