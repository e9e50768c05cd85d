import RtcEgress.Worker.Connection

/-!
# 前のタスクと部品の設定

録画と静止画の設定は、ワーカーに一つずつあって、開始のコマンドが上書きする。大きさと間隔は、メッセージが値を持つときにだけ
上書きする。配信の設定は、開始のたびに作り直す。部品の `initialize` に渡す設定が、それまでのコマンドによるかを調べる。
-/

namespace RtcEgress.Worker

open RtcEgress.Lib

namespace TaskPipe

/-- 録画の開始が `initialize` に渡す設定。呼ばないときは `none` である。 -/
def recordingInitialized (s : TaskPipe) (msg : UDSMessage) (o : Outcome) : Option RecordingConfig :=
  if msg.channel = "" then none
  else
    let s := { s with recordingConfig := updateRecordingConfig msg s.recordingConfig }
    let s := s.setDecodeMode (resolveDecodeMode msg).2
    match s.ensureConnected msg.channel msg.accessToken o with
    | (false, _) => none
    | (true, s) =>
        if s.tasks.any fun t => t.1 == msg.channel && t.2.2 == .record then none else some s.recordingConfig

/-- 静止画の開始が `initialize` に渡す設定。 -/
def snapshotInitialized (s : TaskPipe) (msg : UDSMessage) (o : Outcome) : Option SnapshotConfig :=
  if msg.channel = "" then none
  else match s.ensureConnected msg.channel msg.accessToken o with
    | (false, _) => none
    | (true, s) => if s.capturing then none else some (updateSnapshotConfig msg s.snapshotConfig)

end TaskPipe

/-- 録画と静止画の、開始と停止。 -/
def recordOrSnapshot : worker.Condition
  | .command msg _, _ => (msg.cmd = .record ∨ msg.cmd = .snapshot) ∧ (msg.action = .start ∨ msg.action = .stop)
  | _, _ => False

/-- 録画と静止画の開始と停止からなる、どの二つの列の後でも、`initialize` に渡す設定は同じである。 -/
def Independent {Config : Type} (snapshot : SnapshotConfig) (recording : RecordingConfig)
    (initialized : TaskPipe → Outcome → Option Config) : Prop :=
  ∀ s₁ s₂, worker.Reach recordOrSnapshot (Session.init snapshot recording) s₁ →
    worker.Reach recordOrSnapshot (Session.init snapshot recording) s₂ →
    ∀ o₁ o₂ c₁ c₂, initialized s₁.pipe o₁ = some c₁ → initialized s₂.pipe o₂ = some c₂ → c₁ = c₂

/-- どの開始のメッセージについても、設定はそれまでの列によらない。 -/
def AllIndependent : Prop :=
  ∀ snapshot recording msg, Independent snapshot recording (TaskPipe.recordingInitialized · msg) ∧
    Independent snapshot recording (TaskPipe.snapshotInitialized · msg)

/-! ## 渡す設定 -/

section Initialized

variable {s : TaskPipe} {msg : UDSMessage} {o : Outcome}

theorem recordingInitialized_eq {c : RecordingConfig} (h : s.recordingInitialized msg o = some c) :
    msg.channel ≠ "" ∧ c = TaskPipe.updateRecordingConfig msg s.recordingConfig := by
  unfold TaskPipe.recordingInitialized at h
  split at h
  · cases h
  · rename_i hchannel
    dsimp only at h
    generalize hp : TaskPipe.setDecodeMode _ _ = p at h
    have hupdated : p.recordingConfig = TaskPipe.updateRecordingConfig msg s.recordingConfig := by
      rw [← hp]
      rfl
    have hconfig := (p.ensureConnected_configs msg.channel msg.accessToken o).2
    split at h
    · cases h
    · rename_i s' hs'
      rw [hs'] at hconfig
      split at h
      · cases h
      · cases h
        exact ⟨hchannel, hconfig.trans hupdated⟩

theorem snapshotInitialized_eq {c : SnapshotConfig} (h : s.snapshotInitialized msg o = some c) :
    msg.channel ≠ "" ∧ c = TaskPipe.updateSnapshotConfig msg s.snapshotConfig := by
  unfold TaskPipe.snapshotInitialized at h
  split at h
  · cases h
  · rename_i hchannel
    split at h
    · cases h
    · rename_i s' hs'
      have hconfig := (TaskPipe.ensureConnected_configs s msg.channel msg.accessToken o).1
      rw [hs'] at hconfig
      split at h
      · cases h
      · cases h
        exact ⟨hchannel, by rw [← hconfig]⟩

theorem snapshotInitialized_of_idle (hchannel : msg.channel ≠ "") (hidle : s.capturing = false) :
    s.snapshotInitialized msg {} = some (TaskPipe.updateSnapshotConfig msg s.snapshotConfig) := by
  obtain ⟨_, _, hframe⟩ := s.ensureConnected_frame msg.channel msg.accessToken {}
  obtain ⟨s', hs', -, -, -⟩ := TaskPipe.ensureConnected_connect (s := s) (o := {}) msg.channel msg.accessToken rfl
  rw [hs'] at hframe
  dsimp only at hframe
  subst hframe
  simp [TaskPipe.snapshotInitialized, hchannel, hs', hidle]

theorem recordingInitialized_of_empty (hchannel : msg.channel ≠ "") (hempty : s.channelStates = ∅) :
    s.recordingInitialized msg {} = some (TaskPipe.updateRecordingConfig msg s.recordingConfig) := by
  unfold TaskPipe.recordingInitialized
  rw [if_neg hchannel]
  dsimp only
  generalize hp : TaskPipe.setDecodeMode _ _ = p
  have hupdated : p.recordingConfig = TaskPipe.updateRecordingConfig msg s.recordingConfig := by
    rw [← hp]
    rfl
  have hstates : p.channelStates = ∅ := by
    rw [← hp]
    exact hempty
  obtain ⟨s', hs', hsame, -, -⟩ := TaskPipe.ensureConnected_connect (s := p) (o := {}) msg.channel msg.accessToken rfl
  have hconfig := (p.ensureConnected_configs msg.channel msg.accessToken {}).2
  rw [hs'] at hconfig ⊢
  dsimp only at hconfig ⊢
  -- つないだばかりのチャンネルには、タスクがない。
  have hnone : (s'.tasks.any fun t => t.1 == msg.channel && t.2.2 == TaskCmd.record) = false := by
    rw [List.any_eq_false]
    rintro ⟨channel, taskId, type⟩ ht
    obtain ⟨state, hstate, htask⟩ := TaskPipe.mem_tasks.mp ht
    by_cases hc : channel = msg.channel
    · subst hc
      rw [hsame, Option.some.injEq] at hstate
      subst hstate
      simp [hstates] at htask
    · simp [hc]
  rw [hnone, hconfig, hupdated]
  rfl

end Initialized

/-! ## 成り立たない列 -/

/-- 640×360 の録画 `a` を始めて止める。 -/
def sizedRecording : List Op :=
  [.command { taskId := "a", cmd := .record, action := .start, channel := "c", width := 640, height := 360 } {},
    .command { taskId := "a", cmd := .record, action := .stop, channel := "c" } {}]

/-- 大きさを指定しない録画 `b`。 -/
def unsizedStart : UDSMessage := { taskId := "b", cmd := .record, action := .start, channel := "c" }

theorem not_allIndependent : ¬AllIndependent := by
  intro h
  have hmeet : worker.AllMeet recordOrSnapshot sizedRecording (Session.init sinkDefaults.1 sinkDefaults.2) :=
    ⟨⟨.inl rfl, .inl rfl⟩, ⟨.inl rfl, .inr rfl⟩, trivial⟩
  have hfirst : (((Session.init sinkDefaults.1 sinkDefaults.2).pipe.recordingInitialized unsizedStart {}).map
      RecordingConfig.videoWidth) = some 1280 := by decide
  have hlater : (((worker.run sizedRecording (Session.init sinkDefaults.1 sinkDefaults.2)).pipe.recordingInitialized
      unsizedStart {}).map RecordingConfig.videoWidth) = some 640 := by decide
  obtain ⟨c₁, hc₁, hw₁⟩ := Option.map_eq_some_iff.mp hfirst
  obtain ⟨c₂, hc₂, hw₂⟩ := Option.map_eq_some_iff.mp hlater
  have heq := (h _ _ unsizedStart).1 _ _ .refl (System.reach_run hmeet) _ _ _ _ hc₁ hc₂
  rw [heq, hw₂] at hw₁
  exact absurd hw₁ (by decide)

/-! ## 成り立つ条件 -/

/-- メッセージが、録画の大きさを持つ。 -/
def UDSMessage.Sized (msg : UDSMessage) : Prop := msg.width ≠ 0 ∧ msg.height ≠ 0

/-- メッセージが、静止画の大きさと間隔を持つ。 -/
def UDSMessage.Timed (msg : UDSMessage) : Prop := msg.Sized ∧ 0 < msg.intervalInMs

theorem updateRecordingConfig_of_sized {msg : UDSMessage} (h : msg.Sized) (c₁ c₂ : RecordingConfig) :
    TaskPipe.updateRecordingConfig msg c₁ = TaskPipe.updateRecordingConfig msg c₂ := by
  simp [TaskPipe.updateRecordingConfig, h.1, h.2]

theorem updateSnapshotConfig_of_timed {msg : UDSMessage} (h : msg.Timed) (c₁ c₂ : SnapshotConfig) :
    TaskPipe.updateSnapshotConfig msg c₁ = TaskPipe.updateSnapshotConfig msg c₂ := by
  simp [TaskPipe.updateSnapshotConfig, h.1.1, h.1.2, h.2]

/-- `x` と異なる正の数。 -/
def another (x : Int) : Int := if x = 1 then 2 else 1

theorem another_pos (x : Int) : 0 < another x := by
  unfold another
  split <;> decide

theorem another_ne_zero {x : Int} : another x ≠ 0 := Int.ne_of_gt (another_pos x)

theorem another_ne (x : Int) : another x ≠ x := by
  unfold another
  split <;> omega

/-- つながらなかった録画の開始も、設定を書き換える。 -/
def failedRecording (c : RecordingConfig) : UDSMessage where
  taskId := "a"
  cmd := .record
  action := .start
  channel := "c"
  width := another c.videoWidth
  height := another c.videoHeight

/-- 始められなかった静止画の開始も、設定を書き換える。 -/
def failedSnapshot (c : SnapshotConfig) : UDSMessage where
  taskId := "a"
  cmd := .snapshot
  action := .start
  channel := "c"
  width := another c.width
  height := another c.height
  intervalInMs := another c.intervalInMs

theorem independent_recording (snapshot : SnapshotConfig) (recording : RecordingConfig) (msg : UDSMessage) :
    Independent snapshot recording (TaskPipe.recordingInitialized · msg) ↔ msg.channel = "" ∨ msg.Sized := by
  constructor
  · intro h
    by_cases hchannel : msg.channel = ""
    · exact .inl hchannel
    · refine .inr ?_
      let failed : Op := .command (failedRecording recording) { connect := false }
      have hreach : worker.Reach recordOrSnapshot (Session.init snapshot recording)
          ((Session.init snapshot recording).next failed) := .single ⟨failed, ⟨.inl rfl, .inl rfl⟩, rfl⟩
      have hfirst := recordingInitialized_of_empty (s := (Session.init snapshot recording).pipe) hchannel rfl
      have hlater := recordingInitialized_of_empty (s := ((Session.init snapshot recording).next failed).pipe) hchannel rfl
      have heq : TaskPipe.updateRecordingConfig msg recording =
          TaskPipe.updateRecordingConfig msg (TaskPipe.updateRecordingConfig (failedRecording recording) recording) :=
        h _ _ .refl hreach _ _ _ _ hfirst hlater
      constructor
      · intro hw
        have hwidth := congrArg RecordingConfig.videoWidth heq
        simp [TaskPipe.updateRecordingConfig, hw, failedRecording, another_ne_zero] at hwidth
        exact another_ne _ hwidth.symm
      · intro hh
        have hheight := congrArg RecordingConfig.videoHeight heq
        simp [TaskPipe.updateRecordingConfig, hh, failedRecording, another_ne_zero] at hheight
        exact another_ne _ hheight.symm
  · rintro h s₁ s₂ - - o₁ o₂ c₁ c₂ h₁ h₂
    obtain ⟨hne, rfl⟩ := recordingInitialized_eq h₁
    obtain ⟨-, rfl⟩ := recordingInitialized_eq h₂
    exact updateRecordingConfig_of_sized (h.resolve_left hne) _ _

theorem independent_snapshot (snapshot : SnapshotConfig) (recording : RecordingConfig) (msg : UDSMessage) :
    Independent snapshot recording (TaskPipe.snapshotInitialized · msg) ↔ msg.channel = "" ∨ msg.Timed := by
  constructor
  · intro h
    by_cases hchannel : msg.channel = ""
    · exact .inl hchannel
    · refine .inr ?_
      let failed : Op := .command (failedSnapshot snapshot) { snapshot := false }
      have hreach : worker.Reach recordOrSnapshot (Session.init snapshot recording)
          ((Session.init snapshot recording).next failed) := .single ⟨failed, ⟨.inr rfl, .inl rfl⟩, rfl⟩
      have hfirst := snapshotInitialized_of_idle (s := (Session.init snapshot recording).pipe) hchannel rfl
      have hlater := snapshotInitialized_of_idle (s := ((Session.init snapshot recording).next failed).pipe) hchannel rfl
      have heq : TaskPipe.updateSnapshotConfig msg snapshot =
          TaskPipe.updateSnapshotConfig msg (TaskPipe.updateSnapshotConfig (failedSnapshot snapshot) snapshot) :=
        h _ _ .refl hreach _ _ _ _ hfirst hlater
      refine ⟨⟨?_, ?_⟩, ?_⟩
      · intro hw
        have hwidth := congrArg SnapshotConfig.width heq
        simp [TaskPipe.updateSnapshotConfig, hw, failedSnapshot, another_ne_zero] at hwidth
        exact another_ne _ hwidth.symm
      · intro hh
        have hheight := congrArg SnapshotConfig.height heq
        simp [TaskPipe.updateSnapshotConfig, hh, failedSnapshot, another_ne_zero] at hheight
        exact another_ne _ hheight.symm
      · by_contra hi
        have hinterval := congrArg SnapshotConfig.intervalInMs heq
        simp [TaskPipe.updateSnapshotConfig, hi, failedSnapshot, another_pos] at hinterval
        exact another_ne _ hinterval.symm
  · rintro h s₁ s₂ - - o₁ o₂ c₁ c₂ h₁ h₂
    obtain ⟨hne, rfl⟩ := snapshotInitialized_eq h₁
    obtain ⟨-, rfl⟩ := snapshotInitialized_eq h₂
    exact updateSnapshotConfig_of_timed (h.resolve_left hne) _ _

/-- 設定がそれまでの列によらないのは、開始のメッセージが大きさと間隔をすべて持つときに限る。 -/
theorem allIndependent_iff (snapshot : SnapshotConfig) (recording : RecordingConfig) (msg : UDSMessage) :
    (Independent snapshot recording (TaskPipe.recordingInitialized · msg) ↔ msg.channel = "" ∨ msg.Sized) ∧
      (Independent snapshot recording (TaskPipe.snapshotInitialized · msg) ↔ msg.channel = "" ∨ msg.Timed) :=
  ⟨independent_recording snapshot recording msg, independent_snapshot snapshot recording msg⟩

end RtcEgress.Worker
