import RtcEgress.Lib.Assoc
import RtcEgress.Worker.Connection

/-!
# 動いているタスクと部品

三つの部品と一つの接続を、チャンネルのすべてのタスクが共有する。部品を止める処理は、四つのコマンドと二つの通知に
分かれている。部品が動いていることと、その種類のタスクが表にあることが、いつも一致するかを調べる。
-/

namespace RtcEgress.Worker

open RtcEgress.Lib

/-- ワーカーと、録画と配信の部品が `config_.taskId` に持つタスク。 -/
structure SinkSession where
  pipe : TaskPipe
  recordingTask : String := ""
  streamingTask : String := ""

namespace SinkSession

def init (snapshot : SnapshotConfig) (recording : RecordingConfig) : SinkSession := { pipe := .init snapshot recording }

def publishing (s : TaskPipe) : Bool := s.hasActiveTasksOfType .rtmp || s.hasActiveTasksOfType .whip

/-- `initialize` に成功した部品は、メッセージのタスクを持つ。 -/
def next (op : Op) (s : SinkSession) : SinkSession :=
  let pipe := op.apply s.pipe
  match op with
  | .command msg _ =>
      { pipe
        recordingTask :=
          if msg.action = .start ∧ msg.cmd = .record ∧ !s.pipe.recording ∧ pipe.recording then msg.taskId
          else s.recordingTask
        streamingTask :=
          if msg.action = .start ∧ (msg.cmd = .rtmp ∨ msg.cmd = .whip) ∧ !publishing s.pipe ∧ pipe.streaming then msg.taskId
          else s.streamingTask }
  | _ => { s with pipe }

end SinkSession

def sinks : System Op := ⟨SinkSession, SinkSession.next⟩

/-- 接続と部品の開始は成功する。 -/
def Outcome.Succeeds (o : Outcome) : Prop :=
  o.connect = true ∧ o.snapshot = true ∧ o.recording = true ∧ o.streamingInitialize = true ∧ o.streamingStart = true

/-- 一つのチャンネルの開始と停止、および動いている部品の通知からなる。開始のとき、同じ種類の他のタスクはない。 -/
def onePerCmd (channel : String) : sinks.Condition
  | .command msg o, s => msg.channel = channel ∧ o.Succeeds ∧
      (msg.action = .stop ∨ msg.action = .start ∧ ∀ t ∈ s.pipe.tasks, t.2.2 = msg.cmd → t.2.1 = msg.taskId)
  | .recordingCompleted taskId _ _ _, s => s.pipe.recording = true ∧ taskId = s.recordingTask
  | .streamingCompleted taskId _ _ _, s => s.pipe.streaming = true ∧ taskId = s.streamingTask
  | .sdkError _ _, _ => False

/-- 部品は、その種類のタスクがあるときに限って動き、接続は、タスクがあるときに限って開いている。 -/
structure SinksMatch (s : TaskPipe) : Prop where
  recording : s.recording = s.hasActiveTasksOfType .record
  capturing : s.capturing = s.hasActiveTasksOfType .snapshot
  streaming : s.streaming = SinkSession.publishing s
  connection : s.rtcClient.connection.isSome = !s.tasks.isEmpty

def SinksFollowTasks (g : sinks.Condition) : Prop :=
  ∀ snapshot recording s, sinks.Reach g (SinkSession.init snapshot recording) s → SinksMatch s.pipe

/-! ## 成り立たない列 -/

/-- 静止画 `b` の間に、録画 `a` が最大の長さに達する。 -/
def completedBesideSnapshot : List Op :=
  [recordStart "a" "c", .command { taskId := "b", cmd := .snapshot, action := .start, channel := "c" } {},
    .recordingCompleted "a" "success" "Recording completed - max duration reached" {}]

instance : DecidablePred Outcome.Succeeds := fun _ => inferInstanceAs (Decidable (_ ∧ _))

/-- 止まっていない録画の部品は、次の録画を断る。 -/
example : (sinks.run (completedBesideSnapshot ++ [recordStart "d" "c"])
    (SinkSession.init sinkDefaults.1 sinkDefaults.2)).pipe.sent.head?.map (fun m => (m.taskId, m.status)) =
      some ("d", "failed") := by
  decide

/-! ## 一つのチャンネルの表 -/

/-- 種類 `cmd` のタスクがある。 -/
def Runs (tasks : String → Option TaskCmd) (cmd : TaskCmd) : Prop := ∃ i, tasks i = some cmd

def without (tasks : String → Option TaskCmd) (i : String) : String → Option TaskCmd := Function.update tasks i none

/-- 表にあるのは `channel` だけで、接続していて、タスクは `tasks` である。 -/
structure Holds (channel : String) (tasks : String → Option TaskCmd) (p : TaskPipe) : Prop where
  only : ∀ {c state}, p.channelStates.lookup c = some state →
    c = channel ∧ state.isConnected = true ∧ p.rtcClient.connection.isSome = true ∧ ∀ i, state.activeTasks.lookup i = tasks i
  absent : p.channelStates.lookup channel = none → ∀ i, tasks i = none

/-- 接続も部品も止まっている。 -/
structure Idle (p : TaskPipe) : Prop where
  connection : p.rtcClient.connection = none
  recording : p.recording = false
  capturing : p.capturing = false
  streaming : p.streaming = false

namespace Holds

variable {channel : String} {tasks : String → Option TaskCmd} {p : TaskPipe}

theorem frame {p' : TaskPipe} (h : Holds channel tasks p) (hstates : p'.channelStates = p.channelStates)
    (hconn : p'.rtcClient.connection = p.rtcClient.connection) : Holds channel tasks p' := by
  refine ⟨fun hl => ?_, fun hl => ?_⟩
  · rw [hstates] at hl
    rw [hconn]
    exact h.only hl
  · rw [hstates] at hl
    exact h.absent hl

theorem lookup_of_task (h : Holds channel tasks p) {i cmd} (hi : tasks i = some cmd) :
    ∃ state, p.channelStates.lookup channel = some state := by
  cases hl : p.channelStates.lookup channel with
  | none => rw [h.absent hl] at hi; cases hi
  | some state => exact ⟨state, rfl⟩

theorem mem_tasks (h : Holds channel tasks p) {c i cmd} : (c, i, cmd) ∈ p.tasks ↔ c = channel ∧ tasks i = some cmd := by
  rw [TaskPipe.mem_tasks]
  constructor
  · rintro ⟨state, hstate, htask⟩
    obtain ⟨hc, -, -, heq⟩ := h.only hstate
    exact ⟨hc, by rw [← heq, htask]⟩
  · rintro ⟨rfl, hi⟩
    obtain ⟨state, hstate⟩ := h.lookup_of_task hi
    exact ⟨state, hstate, by rw [(h.only hstate).2.2.2, hi]⟩

theorem hasActive_iff (h : Holds channel tasks p) {cmd} : p.hasActiveTasksOfType cmd = true ↔ Runs tasks cmd := by
  simp only [TaskPipe.hasActiveTasksOfType, List.any_eq_true, beq_iff_eq]
  constructor
  · rintro ⟨⟨c, i, cmd⟩, ht, rfl⟩
    exact ⟨i, (h.mem_tasks.mp ht).2⟩
  · rintro ⟨i, hi⟩
    exact ⟨(channel, i, cmd), h.mem_tasks.mpr ⟨rfl, hi⟩, rfl⟩

theorem publishing_iff (h : Holds channel tasks p) :
    SinkSession.publishing p = true ↔ Runs tasks .rtmp ∨ Runs tasks .whip := by
  simp [SinkSession.publishing, h.hasActive_iff]

theorem connect (h : Holds channel tasks p) {o : Outcome} (ho : o.connect = true) (token : String) :
    ∃ p', p.ensureConnected channel token o = (true, p') ∧ Holds channel tasks p' ∧
      (∃ state, p'.channelStates.lookup channel = some state) ∧
      ∃ rtcClient channelStates, p' = { p with rtcClient, channelStates } := by
  obtain ⟨p', hp', hsame, hother, hconn⟩ := TaskPipe.ensureConnected_connect (s := p) channel token ho
  have hframe := p.ensureConnected_frame channel token o
  rw [hp'] at hframe
  refine ⟨p', hp', ⟨fun {c state} hl => ?_, fun hl => ?_⟩, ⟨_, hsame⟩, hframe⟩
  · by_cases hc : c = channel
    · subst hc
      rw [hsame, Option.some.injEq] at hl
      subst hl
      refine ⟨rfl, rfl, ?_, fun i => ?_⟩
      · rcases hconn with hconn | ⟨rfl, state, hstate⟩
        · exact hconn
        · exact (h.only hstate).2.2.1
      · cases hold : p.channelStates.lookup c with
        | none => simp [h.absent hold]
        | some state => exact (h.only hold).2.2.2 i
    · rw [hother c hc] at hl
      exact absurd (h.only hl).1 hc
  · rw [hsame] at hl
    cases hl

theorem addTask (h : Holds channel tasks p) {state : ChannelState} (hl : p.channelStates.lookup channel = some state)
    (i : String) (cmd : TaskCmd) : Holds channel (Function.update tasks i (some cmd)) (p.addTask channel i cmd) := by
  obtain ⟨-, hc, hconn, heq⟩ := h.only hl
  refine ⟨fun {c state'} hl' => ?_, fun hl' => ?_⟩
  · by_cases hne : c = channel
    · subst hne
      simp only [TaskPipe.addTask, hl, Option.getD_some, AList.lookup_insert, Option.some.injEq] at hl'
      subst hl'
      refine ⟨rfl, hc, hconn, fun j => ?_⟩
      by_cases hj : j = i
      · subst hj
        simp
      · simp [AList.lookup_insert_ne hj, Function.update_of_ne hj, heq]
    · simp only [TaskPipe.addTask, AList.lookup_insert_ne hne] at hl'
      exact absurd (h.only hl').1 hne
  · simp [TaskPipe.addTask] at hl'

/-- タスクを一つ除いた表。 -/
theorem remove (h : Holds channel tasks p) {state : ChannelState} (hl : p.channelStates.lookup channel = some state)
    (i : String) : Holds channel (without tasks i)
      { p with channelStates := p.channelStates.insert channel { state with activeTasks := state.activeTasks.erase i } } := by
  obtain ⟨-, hc, hconn, heq⟩ := h.only hl
  refine ⟨fun {c state'} hl' => ?_, fun hl' => ?_⟩
  · by_cases hne : c = channel
    · subst hne
      simp only [AList.lookup_insert, Option.some.injEq] at hl'
      subst hl'
      refine ⟨rfl, hc, hconn, fun j => ?_⟩
      by_cases hj : j = i
      · subst hj
        simp [without]
      · simp [without, AList.lookup_erase_ne hj, Function.update_of_ne hj, heq]
    · simp only [AList.lookup_insert_ne hne] at hl'
      exact absurd (h.only hl').1 hne
  · simp at hl'

/-- 最後のタスクの後は、すべてを止めて表から除く。それまでは、表のほかを変えない。 -/
theorem release (h : Holds channel tasks p) {state : ChannelState} (hl : p.channelStates.lookup channel = some state)
    (i : String) : Holds channel (without tasks i) (p.releaseConnection channel i) ∧
      ((∀ j, without tasks i j = none) ∧ Idle (p.releaseConnection channel i) ∨
        (∃ j cmd, without tasks i j = some cmd) ∧
          ∃ channelStates, p.releaseConnection channel i = { p with channelStates }) := by
  have hremoved := h.remove hl i
  obtain ⟨-, hc, -, heq⟩ := hremoved.only (AList.lookup_insert _)
  unfold TaskPipe.releaseConnection
  rw [hl]
  dsimp only
  split
  · rename_i hempty
    have hnone : ∀ j, without tasks i j = none := by
      intro j
      rw [← heq j]
      exact isEmpty_entries_iff.mp hempty j
    unfold TaskPipe.cleanupConnection
    simp only [AList.lookup_insert]
    refine ⟨⟨fun {c state'} hl' => ?_, fun _ => hnone⟩, .inl ⟨hnone, ?_⟩⟩
    · obtain ⟨hne, hl'⟩ := lookup_of_lookup_erase hl'
      exact absurd (hremoved.only hl').1 hne
    · have hconnected : state.isConnected = true := hc
      refine ⟨?_, rfl, rfl, rfl⟩
      simp only [hconnected, reduceIte]
      rfl
  · rename_i hempty
    refine ⟨hremoved, .inr ⟨?_, _, rfl⟩⟩
    by_contra hnone
    refine hempty (isEmpty_entries_iff.mpr fun j => ?_)
    cases hj : (state.activeTasks.erase i).lookup j with
    | none => rfl
    | some cmd => exact absurd ⟨j, cmd, (heq j).symm.trans hj⟩ hnone

/-- 見つけたタスクは、表にある。 -/
theorem of_search (h : Holds channel tasks p) {pick q c i} (hs : p.search pick q = some (c, i)) :
    c = channel ∧ ∃ type, tasks i = some type ∧ q c i type = true := by
  obtain ⟨type, ht, hq⟩ := TaskPipe.mem_of_search hs
  obtain ⟨hc, hi⟩ := h.mem_tasks.mp ht
  exact ⟨hc, type, hi, hq⟩

end Holds

/-! ## 部品とタスクの一致 -/

/-- 同じ種類のタスクは一つ、配信は合わせて一つだけで、名前は空でない。 -/
structure Single (tasks : String → Option TaskCmd) : Prop where
  named : tasks "" = none
  unique : ∀ {i j cmd}, tasks i = some cmd → tasks j = some cmd → i = j
  stream : ¬(Runs tasks .rtmp ∧ Runs tasks .whip)

section Runs

variable {tasks : String → Option TaskCmd} {i : String} {cmd : TaskCmd}

theorem runs_insert (hi : ∀ c, tasks i = some c → c = cmd) {c : TaskCmd} :
    Runs (Function.update tasks i (some cmd)) c ↔ c = cmd ∨ Runs tasks c := by
  constructor
  · rintro ⟨j, hj⟩
    by_cases heq : j = i
    · subst heq
      rw [Function.update_self, Option.some.injEq] at hj
      exact .inl hj.symm
    · rw [Function.update_of_ne heq] at hj
      exact .inr ⟨j, hj⟩
  · rintro (rfl | ⟨j, hj⟩)
    · exact ⟨i, Function.update_self ..⟩
    · by_cases heq : j = i
      · subst heq
        rw [hi c hj]
        exact ⟨j, Function.update_self ..⟩
      · exact ⟨j, by rwa [Function.update_of_ne heq]⟩

theorem without_idem : without (without tasks i) i = without tasks i := Function.update_idem ..

theorem runs_of_without {c : TaskCmd} (h : Runs (without tasks i) c) : Runs tasks c := by
  obtain ⟨j, hj⟩ := h
  by_cases heq : j = i
  · simp [without, heq] at hj
  · exact ⟨j, by rwa [without, Function.update_of_ne heq] at hj⟩

theorem runs_without (hi : tasks i = some cmd) {c : TaskCmd} (hne : c ≠ cmd) : Runs (without tasks i) c ↔ Runs tasks c := by
  refine ⟨runs_of_without, fun ⟨j, hj⟩ => ⟨j, ?_⟩⟩
  have heq : j ≠ i := by
    rintro rfl
    rw [hi, Option.some.injEq] at hj
    exact hne hj.symm
  rwa [without, Function.update_of_ne heq]

theorem not_runs_without (h : Single tasks) (hi : tasks i = some cmd) : ¬Runs (without tasks i) cmd := by
  rintro ⟨j, hj⟩
  by_cases heq : j = i
  · simp [without, heq] at hj
  · rw [without, Function.update_of_ne heq] at hj
    exact heq (h.unique hj hi)

theorem Single.without (h : Single tasks) (i : String) : Single (without tasks i) := by
  have hof {j c} (hj : Worker.without tasks i j = some c) : tasks j = some c := by
    by_cases heq : j = i
    · simp [Worker.without, heq] at hj
    · rwa [Worker.without, Function.update_of_ne heq] at hj
  refine ⟨?_, fun hj hk => h.unique (hof hj) (hof hk), fun hs => h.stream ⟨runs_of_without hs.1, runs_of_without hs.2⟩⟩
  cases hn : Worker.without tasks i "" with
  | none => rfl
  | some c => exact absurd (hof hn) (by simp [h.named])

theorem Single.insert (h : Single tasks) (hname : i ≠ "") (hi : ∀ c, tasks i = some c → c = cmd)
    (hsame : ∀ j, tasks j = some cmd → j = i)
    (hstream : cmd = .rtmp ∨ cmd = .whip → ¬Runs tasks .rtmp ∧ ¬Runs tasks .whip) :
    Single (Function.update tasks i (some cmd)) := by
  have hof {j c} (hj : Function.update tasks i (some cmd) j = some c) : j = i ∧ c = cmd ∨ j ≠ i ∧ tasks j = some c := by
    by_cases heq : j = i
    · rw [heq, Function.update_self, Option.some.injEq] at hj
      exact .inl ⟨heq, hj.symm⟩
    · rw [Function.update_of_ne heq] at hj
      exact .inr ⟨heq, hj⟩
  refine ⟨by rw [Function.update_of_ne hname.symm, h.named], fun {j k c} hj hk => ?_, fun hs => ?_⟩
  · rcases hof hj with ⟨rfl, rfl⟩ | ⟨-, hj'⟩
    · rcases hof hk with ⟨rfl, -⟩ | ⟨-, hk'⟩
      · rfl
      · exact (hsame _ hk').symm
    · rcases hof hk with ⟨rfl, rfl⟩ | ⟨-, hk'⟩
      · exact hsame _ hj'
      · exact h.unique hj' hk'
  · rw [runs_insert hi, runs_insert hi] at hs
    obtain ⟨hr | hr, hw | hw⟩ := hs
    · rw [← hr] at hw
      cases hw
    · exact (hstream (.inl hr.symm)).2 hw
    · exact (hstream (.inr hw.symm)).1 hr
    · exact h.stream ⟨hr, hw⟩

end Runs

/-- 部品と接続が、タスクと一致する。 -/
structure Matches (tasks : String → Option TaskCmd) (p : TaskPipe) : Prop where
  recording : p.recording = true ↔ Runs tasks .record
  capturing : p.capturing = true ↔ Runs tasks .snapshot
  streaming : p.streaming = true ↔ Runs tasks .rtmp ∨ Runs tasks .whip

theorem Matches.frame {tasks : String → Option TaskCmd} {p p' : TaskPipe} (h : Matches tasks p)
    (hrecording : p'.recording = p.recording := by rfl) (hcapturing : p'.capturing = p.capturing := by rfl)
    (hstreaming : p'.streaming = p.streaming := by rfl) : Matches tasks p' :=
  ⟨hrecording ▸ h.recording, hcapturing ▸ h.capturing, hstreaming ▸ h.streaming⟩

theorem Matches.insert {tasks : String → Option TaskCmd} {p p' : TaskPipe} {i : String} {cmd : TaskCmd}
    (h : Matches tasks p) (hi : ∀ c, tasks i = some c → c = cmd) (hrecording : p'.recording = (p.recording || cmd == .record))
    (hcapturing : p'.capturing = (p.capturing || cmd == .snapshot))
    (hstreaming : p'.streaming = (p.streaming || (cmd == .rtmp || cmd == .whip))) :
    Matches (Function.update tasks i (some cmd)) p' := by
  constructor
  · rw [hrecording, Bool.or_eq_true, h.recording, beq_iff_eq, runs_insert hi]
    grind
  · rw [hcapturing, Bool.or_eq_true, h.capturing, beq_iff_eq, runs_insert hi]
    grind
  · rw [hstreaming, Bool.or_eq_true, h.streaming, Bool.or_eq_true, beq_iff_eq, beq_iff_eq, runs_insert hi, runs_insert hi]
    grind

theorem Matches.without {tasks : String → Option TaskCmd} {p p' : TaskPipe} {i : String} {cmd : TaskCmd}
    (h : Matches tasks p) (hs : Single tasks) (hi : tasks i = some cmd)
    (hrecording : p'.recording = (p.recording && cmd != .record))
    (hcapturing : p'.capturing = (p.capturing && cmd != .snapshot))
    (hstreaming : p'.streaming = (p.streaming && (cmd != .rtmp && cmd != .whip))) : Matches (without tasks i) p' := by
  have hiff (c : TaskCmd) : Runs (Worker.without tasks i) c ↔ Runs tasks c ∧ c ≠ cmd := by
    by_cases hc : c = cmd
    · subst hc
      simp [not_runs_without hs hi]
    · simp [runs_without hi hc, hc]
  have hstream := hs.stream
  have hrun : Runs tasks cmd := ⟨i, hi⟩
  constructor
  · rw [hrecording, Bool.and_eq_true, h.recording, bne_iff_ne, hiff, ne_comm]
  · rw [hcapturing, Bool.and_eq_true, h.capturing, bne_iff_ne, hiff, ne_comm]
  · rw [hstreaming, Bool.and_eq_true, h.streaming, Bool.and_eq_true, bne_iff_ne, bne_iff_ne, hiff, hiff]
    grind

/-- 処理の後の、チャンネルの表と部品。 -/
structure Settled (channel : String) (tasks : String → Option TaskCmd) (p : TaskPipe) : Prop where
  holds : Holds channel tasks p
  running : Matches tasks p
  idle : (∀ i, tasks i = none) → p.rtcClient.connection = none

namespace Settled

variable {channel : String} {tasks : String → Option TaskCmd} {p : TaskPipe} {msg : UDSMessage} {o : Outcome}

theorem connection (h : Settled channel tasks p) : p.rtcClient.connection.isSome = true ↔ ∃ i cmd, tasks i = some cmd := by
  constructor
  · intro hconn
    by_contra hnone
    rw [h.idle fun i => Option.eq_none_iff_forall_ne_some.mpr fun cmd hi => hnone ⟨i, cmd, hi⟩] at hconn
    cases hconn
  · rintro ⟨i, cmd, hi⟩
    obtain ⟨state, hl⟩ := h.holds.lookup_of_task hi
    exact (h.holds.only hl).2.2.1

theorem sinksMatch (h : Settled channel tasks p) : SinksMatch p where
  recording := by rw [Bool.eq_iff_iff, h.running.recording, h.holds.hasActive_iff]
  capturing := by rw [Bool.eq_iff_iff, h.running.capturing, h.holds.hasActive_iff]
  streaming := by rw [Bool.eq_iff_iff, h.running.streaming, h.holds.publishing_iff]
  connection := by
    rw [Bool.eq_iff_iff, h.connection, Bool.not_eq_true', ← Bool.not_eq_true, List.isEmpty_iff]
    constructor
    · rintro ⟨i, cmd, hi⟩ hnil
      exact absurd (h.holds.mem_tasks.mpr ⟨rfl, hi⟩) (by simp [hnil])
    · intro hne
      obtain ⟨⟨c, i, cmd⟩, ht⟩ := List.exists_mem_of_ne_nil _ hne
      exact ⟨i, cmd, (h.holds.mem_tasks.mp ht).2⟩

theorem frame {p' : TaskPipe} (h : Settled channel tasks p) (hstates : p'.channelStates = p.channelStates)
    (hconn : p'.rtcClient.connection = p.rtcClient.connection) (hm : Matches tasks p') : Settled channel tasks p' :=
  ⟨h.holds.frame hstates hconn, hm, fun hi => hconn.trans (h.idle hi)⟩

theorem completion (h : Settled channel tasks p) (m : UDSCompletionMessage) :
    Settled channel tasks (p.sendCompletionMessage m) := h.frame rfl rfl h.running.frame

/-- 始めたタスクを加えた後。 -/
theorem of_insert {p' : TaskPipe} {i : String} {cmd : TaskCmd} (hh : Holds channel (Function.update tasks i (some cmd)) p')
    (hm : Matches (Function.update tasks i (some cmd)) p') : Settled channel (Function.update tasks i (some cmd)) p' := by
  refine ⟨hh, hm, fun hnone => ?_⟩
  have := hnone i
  simp at this

/-- 接続を解放した後。最後のタスクでなければ、部品は前から一致していなければならない。 -/
theorem of_release (hh : Holds channel tasks p) {state : ChannelState} (hl : p.channelStates.lookup channel = some state)
    {i : String} (hm : (∃ j cmd, without tasks i j = some cmd) → Matches (without tasks i) p) :
    Settled channel (without tasks i) (p.releaseConnection channel i) := by
  obtain ⟨hholds, ⟨hnone, hidle⟩ | ⟨hsome, channelStates, heq⟩⟩ := hh.release hl i
  · have hruns (cmd) : ¬Runs (without tasks i) cmd := by
      rintro ⟨j, hj⟩
      rw [hnone j] at hj
      cases hj
    refine ⟨hholds, ⟨?_, ?_, ?_⟩, fun _ => hidle.connection⟩
    · simp [hidle.recording, hruns]
    · simp [hidle.capturing, hruns]
    · simp [hidle.streaming, hruns]
  · refine ⟨hholds, ?_, fun hnone => ?_⟩
    · rw [heq]
      exact (hm hsome).frame
    · obtain ⟨j, cmd, hj⟩ := hsome
      rw [hnone j] at hj
      cases hj

theorem startSnapshot (h : Settled channel tasks p) (hc : msg.channel = channel) (ho : o.Succeeds)
    (hi : ∀ c, tasks msg.taskId = some c → c = .snapshot) :
    Settled channel (Function.update tasks msg.taskId (some .snapshot)) (p.startSnapshot msg o) := by
  subst hc
  obtain ⟨p', hp', hh, ⟨state, hl⟩, rtcClient, channelStates, rfl⟩ := h.holds.connect ho.1 msg.accessToken
  unfold TaskPipe.startSnapshot
  rw [hp']
  dsimp only
  have hadd := (hh.addTask hl msg.taskId .snapshot)
  split
  · rename_i hcapturing
    refine of_insert (hadd.frame rfl rfl) (h.running.insert hi ?_ ?_ ?_)
    · simp [TaskPipe.addTask]
    · simpa [TaskPipe.addTask] using hcapturing
    · simp [TaskPipe.addTask]
  · rw [if_pos ho.2.1]
    refine of_insert (hadd.frame rfl rfl) (h.running.insert hi ?_ ?_ ?_)
    · simp [TaskPipe.addTask]
    · simp
    · simp [TaskPipe.addTask]

theorem startRecording (h : Settled channel tasks p) (hc : msg.channel = channel) (hchannel : channel ≠ "") (ho : o.Succeeds)
    (hi : ∀ c, tasks msg.taskId = some c → c = .record) :
    Settled channel (Function.update tasks msg.taskId (some .record)) (p.startRecording msg o) := by
  subst hc
  unfold TaskPipe.startRecording
  rw [if_neg hchannel]
  dsimp only
  generalize hp : TaskPipe.setDecodeMode _ _ = q
  have hq : Settled msg.channel tasks q := by
    rw [← hp]
    exact h.frame rfl rfl h.running.frame
  obtain ⟨p', hp', hh, ⟨state, hl⟩, rtcClient, channelStates, hframe⟩ := hq.holds.connect ho.1 msg.accessToken
  rw [hp']
  dsimp only
  have hadd := (hh.addTask hl msg.taskId .record)
  have hactive : (p'.tasks.any fun t => t.1 == msg.channel && t.2.2 == .record) = q.recording := by
    rw [Bool.eq_iff_iff, hq.running.recording, List.any_eq_true]
    constructor
    · rintro ⟨⟨c, i, cmd⟩, ht, hcmd⟩
      simp only [Bool.and_eq_true, beq_iff_eq] at hcmd
      obtain ⟨-, rfl⟩ := hcmd
      exact ⟨i, (hh.mem_tasks.mp ht).2⟩
    · rintro ⟨i, hri⟩
      exact ⟨(msg.channel, i, .record), hh.mem_tasks.mpr ⟨rfl, hri⟩, by simp⟩
  rw [hactive]
  subst hframe
  split
  · rename_i hrecording
    refine of_insert (hadd.frame rfl rfl) (hq.running.insert hi ?_ ?_ ?_)
    · simpa [TaskPipe.addTask] using hrecording
    · simp [TaskPipe.addTask]
    · simp [TaskPipe.addTask]
  · rename_i hrecording
    have hstart : (!(TaskPipe.addTask { q with rtcClient, channelStates } msg.channel msg.taskId .record).recording &&
        o.recording) = true := by simpa [TaskPipe.addTask, ho.2.2.1] using hrecording
    rw [if_pos hstart]
    refine of_insert (hadd.frame rfl rfl) (hq.running.insert hi ?_ ?_ ?_)
    · simp
    · simp [TaskPipe.addTask]
    · simp [TaskPipe.addTask]

/-- 配信中の開始は断る。 -/
theorem startStreaming_busy (h : Settled channel tasks p) (hbusy : Runs tasks .rtmp ∨ Runs tasks .whip) :
    Settled channel tasks (p.startStreaming msg o) ∧ (p.startStreaming msg o).streaming = p.streaming := by
  unfold TaskPipe.startStreaming
  rw [if_pos (.inr (.inr (by rwa [h.holds.hasActive_iff, h.holds.hasActive_iff])))]
  exact ⟨h.completion _, rfl⟩

theorem startStreaming (h : Settled channel tasks p) (hc : msg.channel = channel) (hchannel : channel ≠ "") (ho : o.Succeeds)
    (hname : msg.taskId ≠ "") (hcmd : msg.cmd = .rtmp ∨ msg.cmd = .whip) (hidle : ¬(Runs tasks .rtmp ∨ Runs tasks .whip))
    (hi : ∀ c, tasks msg.taskId = some c → c = msg.cmd) :
    Settled channel (Function.update tasks msg.taskId (some msg.cmd)) (p.startStreaming msg o) ∧
      (p.startStreaming msg o).streaming = true := by
  subst hc
  unfold TaskPipe.startStreaming
  have haccept : ¬(msg.channel = "" ∨ msg.taskId = "" ∨ p.hasActiveTasksOfType .rtmp = true ∨
      p.hasActiveTasksOfType .whip = true) := by
    rw [h.holds.hasActive_iff, h.holds.hasActive_iff]
    rintro (hempty | hempty | hbusy)
    · exact hchannel hempty
    · exact hname hempty
    · exact hidle hbusy
  rw [if_neg haccept]
  dsimp only
  rw [if_neg (by simp [ho.2.2.2.1])]
  have hstopped : p.streaming = false := by
    rw [← Bool.not_eq_true, h.running.streaming]
    exact hidle
  generalize hp : TaskPipe.setDecodeMode _ _ = q
  have hq : Settled msg.channel tasks q := by
    rw [← hp]
    exact h.frame rfl rfl (h.running.frame rfl rfl hstopped.symm)
  obtain ⟨p', hp', hh, ⟨state, hl⟩, rtcClient, channelStates, rfl⟩ := hq.holds.connect ho.1 msg.accessToken
  rw [hp']
  dsimp only
  rw [if_pos ho.2.2.2.2]
  have hadd := (hh.addTask hl msg.taskId msg.cmd)
  refine ⟨of_insert (hadd.frame rfl rfl) (hq.running.insert hi ?_ ?_ ?_), rfl⟩
  · rcases hcmd with hcmd | hcmd <;> simp [TaskPipe.addTask, hcmd]
  · rcases hcmd with hcmd | hcmd <;> simp [TaskPipe.addTask, hcmd]
  · rcases hcmd with hcmd | hcmd <;> simp [hcmd]

/-! ### 停止と通知 -/

/-- 停止の後は、名指したタスクが表にない。 -/
def Ended (channel : String) (tasks : String → Option TaskCmd) (p : TaskPipe) : Prop :=
  Settled channel tasks p ∨ ∃ i cmd, tasks i = some cmd ∧ Settled channel (without tasks i) p

/-- 見つかったタスクは、コマンドの種類であるか、ただ一つのタスクである。 -/
def Stoppable (tasks : String → Option TaskCmd) (msg : UDSMessage) : Prop :=
  (∀ c, tasks msg.taskId = some c → c = msg.cmd) ∨ ∀ j c, tasks j = some c → j = msg.taskId

theorem findToStop_own (h : Settled channel tasks p) (hs : Stoppable tasks msg) {c i}
    (hfound : p.findToStop msg o = some (c, i)) :
    c = channel ∧ ∃ cmd, tasks i = some cmd ∧ (cmd = msg.cmd ∨ ∀ j c, tasks j = some c → j = i) := by
  unfold TaskPipe.findToStop at hfound
  split at hfound
  · obtain ⟨hc, cmd, hi, hname⟩ := h.holds.of_search hfound
    obtain rfl : i = msg.taskId := by simpa using hname
    exact ⟨hc, cmd, hi, hs.imp (fun hown => hown _ hi) id⟩
  · obtain ⟨hc, cmd, hi, hq⟩ := h.holds.of_search hfound
    simp only [Bool.and_eq_true, beq_iff_eq] at hq
    exact ⟨hc, cmd, hi, .inl hq.2⟩

/-- ただ一つのタスクを除いた後に、タスクはない。 -/
theorem cmd_of_remaining {i : String} {cmd : TaskCmd} (hown : cmd = msg.cmd ∨ ∀ j c, tasks j = some c → j = i)
    (hrest : ∃ j c, without tasks i j = some c) : cmd = msg.cmd := by
  refine hown.resolve_right fun honly => ?_
  obtain ⟨j, c, hj⟩ := hrest
  by_cases heq : j = i
  · simp [without, heq] at hj
  · rw [without, Function.update_of_ne heq] at hj
    exact heq (honly j c hj)

theorem stopSnapshot (h : Settled channel tasks p) (hsingle : Single tasks) (hchannel : channel ≠ "")
    (hcmd : msg.cmd = .snapshot) (hs : Stoppable tasks msg) : Ended channel tasks (p.stopSnapshot msg o) := by
  unfold TaskPipe.stopSnapshot
  split
  · exact .inl h
  · rename_i c i hfound
    obtain ⟨rfl, cmd, hi, hown⟩ := h.findToStop_own hs hfound
    obtain ⟨state, hl⟩ := h.holds.lookup_of_task hi
    simp only [hl, Option.getD_some]
    have hname : i ≠ "" := by
      rintro rfl
      rw [hsingle.named] at hi
      cases hi
    rw [if_neg (by simp [hname, hchannel])]
    refine .inr ⟨i, cmd, hi, completion ?_ _⟩
    have hremoved := h.holds.remove hl i
    -- 静止画を除いた後に、静止画は残らない。
    have hlast (hrest : ∃ j c, without tasks i j = some c) : cmd = .snapshot ∧ ¬Runs (without tasks i) .snapshot := by
      have hsnapshot := (cmd_of_remaining hown hrest).trans hcmd
      exact ⟨hsnapshot, not_runs_without hsingle (hsnapshot ▸ hi)⟩
    split
    · rename_i hactive
      have hreleased := of_release hremoved (AList.lookup_insert _) (i := i) fun hrest => ?_
      · rwa [without_idem] at hreleased
      · rw [without_idem] at hrest
        exact absurd (hremoved.hasActive_iff.mp hactive) (hlast hrest).2
    · have hstopped : Holds c (without tasks i) { p with
          channelStates := p.channelStates.insert c { state with activeTasks := state.activeTasks.erase i }
          capturing := false } := hremoved.frame rfl rfl
      have hreleased := of_release hstopped (AList.lookup_insert _) (i := i) fun hrest => ?_
      · rwa [without_idem] at hreleased
      · rw [without_idem] at hrest ⊢
        obtain ⟨rfl, -⟩ := hlast hrest
        refine h.running.without hsingle hi ?_ ?_ ?_ <;> simp

theorem stopRecording (h : Settled channel tasks p) (hsingle : Single tasks) (hcmd : msg.cmd = .record)
    (hs : Stoppable tasks msg) : Ended channel tasks (p.stopRecording msg o) := by
  unfold TaskPipe.stopRecording
  split
  · exact .inl h
  · rename_i c i hfound
    obtain ⟨hfound, -⟩ := Option.filter_eq_some_iff.mp hfound
    obtain ⟨rfl, cmd, hi, hown⟩ := h.findToStop_own hs hfound
    obtain ⟨state, hl⟩ := h.holds.lookup_of_task hi
    refine .inr ⟨i, cmd, hi, completion ?_ _⟩
    split
    · rename_i hothers
      refine of_release h.holds hl fun hrest => ?_
      obtain rfl := cmd_of_remaining hown hrest
      rw [hcmd] at hi
      obtain ⟨⟨c', j, type⟩, ht, hother⟩ := List.any_eq_true.mp hothers
      simp only [Bool.and_eq_true, beq_iff_eq, bne_iff_ne] at hother
      obtain ⟨⟨-, hne⟩, rfl⟩ := hother
      exact absurd (hsingle.unique (h.holds.mem_tasks.mp ht).2 hi) hne
    · have hstopped : Holds c tasks { p with recording := false } := h.holds.frame rfl rfl
      refine of_release hstopped hl fun hrest => ?_
      obtain rfl := cmd_of_remaining hown hrest
      rw [hcmd] at hi
      refine h.running.without hsingle hi ?_ ?_ ?_ <;> simp

theorem stopStreaming (h : Settled channel tasks p) (hsingle : Single tasks) (hcmd : msg.cmd = .rtmp ∨ msg.cmd = .whip) :
    Ended channel tasks (p.stopStreaming msg o) := by
  unfold TaskPipe.stopStreaming
  dsimp only
  split
  · exact .inl h
  · rename_i c i hfound
    obtain ⟨hfound, -⟩ := Option.filter_eq_some_iff.mp hfound
    obtain ⟨rfl, cmd, hi, hq⟩ := h.holds.of_search hfound
    obtain ⟨state, hl⟩ := h.holds.lookup_of_task hi
    simp only [Bool.and_eq_true, beq_iff_eq] at hq
    obtain ⟨rfl, -⟩ := hq
    refine .inr ⟨i, _, hi, completion ?_ _⟩
    have hstopped : Holds c tasks { p with streaming := false } := h.holds.frame rfl rfl
    refine of_release hstopped hl fun _ => h.running.without hsingle hi ?_ ?_ ?_
    · rcases hcmd with hcmd | hcmd <;> simp [hcmd]
    · rcases hcmd with hcmd | hcmd <;> simp [hcmd]
    · rcases hcmd with hcmd | hcmd <;> simp [hcmd]

/-- 最大の長さに達したときの通知が止めるのは、ほかにタスクがないときだけである。 -/
theorem recordingCompleted (h : Settled channel tasks p) (hchannel : channel ≠ "") {taskId status message : String}
    (hi : tasks taskId = some .record) (honly : ∀ j c, tasks j = some c → j = taskId) :
    Ended channel tasks (p.recordingCompleted taskId status message o) := by
  refine .inr ⟨taskId, _, hi, ?_⟩
  unfold TaskPipe.recordingCompleted
  dsimp only
  refine completion ?_ _
  split
  · rename_i c i hfound
    obtain ⟨rfl, -⟩ := h.holds.of_search hfound
    obtain ⟨state, hl⟩ := h.holds.lookup_of_task hi
    rw [if_pos hchannel]
    refine of_release h.holds hl fun ⟨j, cmd, hj⟩ => ?_
    by_cases heq : j = taskId
    · simp [without, heq] at hj
    · rw [without, Function.update_of_ne heq] at hj
      exact absurd (honly j cmd hj) heq
  · rename_i hnone
    have := TaskPipe.search_eq_none hnone (h.holds.mem_tasks.mpr ⟨rfl, hi⟩)
    simp at this

theorem streamingCompleted (h : Settled channel tasks p) (hsingle : Single tasks) (hchannel : channel ≠ "")
    {taskId status message : String} {cmd : TaskCmd} (hi : tasks taskId = some cmd) (hcmd : cmd = .rtmp ∨ cmd = .whip) :
    Ended channel tasks (p.streamingCompleted taskId status message o) := by
  refine .inr ⟨taskId, _, hi, ?_⟩
  have hstopped : Holds channel tasks { p with streaming := false } := h.holds.frame rfl rfl
  unfold TaskPipe.streamingCompleted
  dsimp only
  split
  · rename_i c i hfound
    obtain ⟨rfl, -⟩ := hstopped.of_search hfound
    obtain ⟨state, hl⟩ := hstopped.lookup_of_task hi
    rw [if_pos hchannel]
    refine completion (of_release hstopped hl fun _ => h.running.without hsingle hi ?_ ?_ ?_) _
    · rcases hcmd with hcmd | hcmd <;> simp [hcmd]
    · rcases hcmd with hcmd | hcmd <;> simp [hcmd]
    · rcases hcmd with hcmd | hcmd <;> simp [hcmd]
  · rename_i hnone
    have := TaskPipe.search_eq_none hnone (hstopped.mem_tasks.mpr ⟨rfl, hi⟩)
    simp at this

end Settled

/-! ## 成り立つ条件 -/

/-- 開始は空でない新しい名前を使い、停止は同じ種類のタスクを名指すか、ほかにタスクがない。最大の長さの通知は、
ほかにタスクがないときに限る。 -/
def careful : sinks.Condition
  | .command msg _, s =>
      (msg.action = .start → msg.taskId ≠ "" ∧ ∀ t ∈ s.pipe.tasks, t.2.1 = msg.taskId → t.2.2 = msg.cmd) ∧
        (msg.action = .stop → (∀ t ∈ s.pipe.tasks, t.2.1 = msg.taskId → t.2.2 = msg.cmd) ∨
          ∀ t ∈ s.pipe.tasks, t.2.1 = msg.taskId)
  | .recordingCompleted taskId _ _ _, s => ∀ t ∈ s.pipe.tasks, t.2.1 = taskId
  | _, _ => True

/-- 動いている録画と配信の部品は、表にある自分のタスクを覚えている。 -/
structure Roles (tasks : String → Option TaskCmd) (recordingTask streamingTask : String) : Prop where
  recording : Runs tasks .record → tasks recordingTask = some .record
  streaming : Runs tasks .rtmp ∨ Runs tasks .whip →
    ∃ cmd, tasks streamingTask = some cmd ∧ (cmd = .rtmp ∨ cmd = .whip)

theorem Roles.without {tasks : String → Option TaskCmd} {r t : String} (h : Roles tasks r t) (hs : Single tasks)
    {i : String} {cmd : TaskCmd} (hi : tasks i = some cmd) : Roles (without tasks i) r t := by
  constructor
  · intro hrun
    have hr := h.recording (runs_of_without hrun)
    have hne : r ≠ i := by
      rintro rfl
      exact not_runs_without hs hr hrun
    rwa [Worker.without, Function.update_of_ne hne]
  · intro hrun
    obtain ⟨c, ht, hc⟩ := h.streaming (hrun.imp runs_of_without runs_of_without)
    have hne : t ≠ i := by
      rintro rfl
      have hnot := not_runs_without hs ht
      have hstream := hs.stream
      rcases hc with rfl | rfl
      · exact hstream ⟨⟨_, ht⟩, runs_of_without (hrun.resolve_left hnot)⟩
      · exact hstream ⟨runs_of_without (hrun.resolve_right hnot), ⟨_, ht⟩⟩
    exact ⟨c, by rwa [Worker.without, Function.update_of_ne hne], hc⟩

theorem Roles.insert {tasks : String → Option TaskCmd} {r t r' t' i : String} {cmd : TaskCmd} (h : Roles tasks r t)
    (hi : ∀ c, tasks i = some c → c = cmd)
    (hr : r' = r ∧ (cmd = .record → Runs tasks .record) ∨ r' = i ∧ cmd = .record)
    (ht : t' = t ∧ ¬(cmd = .rtmp ∨ cmd = .whip) ∨ t' = i ∧ (cmd = .rtmp ∨ cmd = .whip)) :
    Roles (Function.update tasks i (some cmd)) r' t' := by
  have hkept {j c} (hj : tasks j = some c) : Function.update tasks i (some cmd) j = some c := by
    by_cases heq : j = i
    · subst heq
      rw [Function.update_self, hi c hj]
    · rwa [Function.update_of_ne heq]
  constructor
  · intro hrun
    rcases hr with ⟨rfl, hbefore⟩ | ⟨rfl, rfl⟩
    · rw [runs_insert hi] at hrun
      exact hkept (h.recording (hrun.elim (fun hc => hbefore hc.symm) id))
    · exact Function.update_self ..
  · intro hrun
    rcases ht with ⟨rfl, hnot⟩ | ⟨rfl, hc⟩
    · rw [runs_insert hi, runs_insert hi] at hrun
      have hbefore : Runs tasks .rtmp ∨ Runs tasks .whip := by
        rcases hrun with (hc | hrun) | hc | hrun
        · exact absurd (.inl hc.symm) hnot
        · exact .inl hrun
        · exact absurd (.inr hc.symm) hnot
        · exact .inr hrun
      obtain ⟨c, hj, hc⟩ := h.streaming hbefore
      exact ⟨c, hkept hj, hc⟩
    · exact ⟨cmd, Function.update_self .., hc⟩

/-- 一つのチャンネルのワーカー。 -/
structure Consistent (channel : String) (tasks : String → Option TaskCmd) (s : SinkSession) : Prop where
  settled : Settled channel tasks s.pipe
  single : Single tasks
  roles : Roles tasks s.recordingTask s.streamingTask
  named : (∃ i cmd, tasks i = some cmd) → channel ≠ ""

theorem Consistent.of_ended {channel : String} {tasks : String → Option TaskCmd} {s s' : SinkSession}
    (h : Consistent channel tasks s) (he : Settled.Ended channel tasks s'.pipe)
    (hr : s'.recordingTask = s.recordingTask) (ht : s'.streamingTask = s.streamingTask) :
    ∃ tasks', Consistent channel tasks' s' := by
  rcases he with he | ⟨i, cmd, hi, he⟩
  · exact ⟨tasks, he, h.single, by rw [hr, ht]; exact h.roles, h.named⟩
  · refine ⟨without tasks i, he, h.single.without i, ?_, fun _ => h.named ⟨i, cmd, hi⟩⟩
    rw [hr, ht]
    exact h.roles.without h.single hi

section Next

variable {channel : String} {tasks : String → Option TaskCmd} {s : SinkSession} {msg : UDSMessage} {o : Outcome}

theorem Consistent.stop (h : Consistent channel tasks s) (hc : msg.channel = channel) (hstop : msg.action = .stop)
    (hs : Settled.Stoppable tasks msg) : ∃ tasks', Consistent channel tasks' (s.next (.command msg o)) := by
  refine h.of_ended ?_ (by simp [SinkSession.next, hstop]) (by simp [SinkSession.next, hstop])
  change Settled.Ended channel tasks (s.pipe.handleCommand msg o)
  unfold TaskPipe.handleCommand
  cases hcmd : msg.cmd with
  | snapshot =>
      dsimp only [TaskPipe.handleSnapshotCommand]
      split
      · exact .inl h.settled
      · rename_i hchannel
        rw [hstop]
        exact h.settled.stopSnapshot h.single (hc ▸ hchannel) hcmd hs
  | record =>
      dsimp only [TaskPipe.handleRecordingCommand]
      rw [hstop]
      exact h.settled.stopRecording h.single hcmd hs
  | rtmp | whip =>
      dsimp only [TaskPipe.handleStreamingCommand]
      rw [hstop]
      exact h.settled.stopStreaming h.single (by simp [hcmd])

/-- 名前のないチャンネルの開始は、何も始めない。 -/
theorem Consistent.start_unnamed (h : Consistent channel tasks s) (hc : msg.channel = channel) (hchannel : channel = "")
    (hstart : msg.action = .start) : ∃ tasks', Consistent channel tasks' (s.next (.command msg o)) := by
  have hnone (i cmd) : tasks i ≠ some cmd := fun hi => h.named ⟨i, cmd, hi⟩ hchannel
  have hsettled : Settled channel tasks (s.pipe.handleCommand msg o) := by
    unfold TaskPipe.handleCommand
    cases hcmd : msg.cmd with
    | snapshot =>
        dsimp only [TaskPipe.handleSnapshotCommand]
        rw [if_pos (hc.trans hchannel)]
        exact h.settled
    | record =>
        dsimp only [TaskPipe.handleRecordingCommand]
        rw [hstart]
        dsimp only [TaskPipe.startRecording]
        rw [if_pos (hc.trans hchannel)]
        exact h.settled
    | rtmp | whip =>
        dsimp only [TaskPipe.handleStreamingCommand]
        rw [hstart]
        dsimp only [TaskPipe.startStreaming]
        rw [if_pos (.inl (hc.trans hchannel))]
        exact h.settled.completion _
  refine ⟨tasks, hsettled, h.single, ⟨?_, ?_⟩, h.named⟩
  · rintro ⟨i, hi⟩
    exact absurd hi (hnone i _)
  · rintro (⟨i, hi⟩ | ⟨i, hi⟩) <;> exact absurd hi (hnone i _)

theorem Consistent.startStream (h : Consistent channel tasks s) (hc : msg.channel = channel) (hchannel : channel ≠ "")
    (ho : o.Succeeds) (hstart : msg.action = .start) (hname : msg.taskId ≠ "") (hcmd : msg.cmd = .rtmp ∨ msg.cmd = .whip)
    (hi : ∀ c, tasks msg.taskId = some c → c = msg.cmd) (hsame : ∀ j, tasks j = some msg.cmd → j = msg.taskId) :
    ∃ tasks', Consistent channel tasks' (s.next (.command msg o)) := by
  have hpipe : Op.apply s.pipe (.command msg o) = s.pipe.startStreaming msg o := by
    rcases hcmd with hcmd | hcmd <;>
      simp [Op.apply, TaskPipe.handleCommand, hcmd, TaskPipe.handleStreamingCommand, hstart]
  have hnext : (s.next (.command msg o)).pipe = s.pipe.startStreaming msg o := hpipe
  have hrecord : msg.cmd ≠ .record := by
    rcases hcmd with hcmd | hcmd <;> simp [hcmd]
  have hr : (s.next (.command msg o)).recordingTask = s.recordingTask := by simp [SinkSession.next, hrecord]
  by_cases hbusy : Runs tasks .rtmp ∨ Runs tasks .whip
  · have hsettled : Settled channel tasks (s.pipe.startStreaming msg o) := (h.settled.startStreaming_busy hbusy).1
    have ht : (s.next (.command msg o)).streamingTask = s.streamingTask := by
      simp [SinkSession.next, h.settled.holds.publishing_iff.mpr hbusy]
    exact ⟨tasks, hnext ▸ hsettled, h.single, by rw [hr, ht]; exact h.roles, h.named⟩
  · obtain ⟨hsettled, hstreaming⟩ := h.settled.startStreaming hc hchannel ho hname hcmd hbusy hi
    have hidle : SinkSession.publishing s.pipe = false := by
      rwa [← Bool.not_eq_true, h.settled.holds.publishing_iff]
    have ht : (s.next (.command msg o)).streamingTask = msg.taskId := by
      simp [SinkSession.next, hstart, hcmd, hidle, hpipe, hstreaming]
    refine ⟨_, hnext ▸ hsettled, h.single.insert hname hi hsame fun _ => not_or.mp hbusy, ?_, fun _ => hchannel⟩
    exact h.roles.insert hi (.inl ⟨hr, fun hcmd' => absurd hcmd' hrecord⟩) (.inr ⟨ht, hcmd⟩)

theorem Consistent.start (h : Consistent channel tasks s) (hc : msg.channel = channel) (hchannel : channel ≠ "")
    (ho : o.Succeeds) (hstart : msg.action = .start) (hname : msg.taskId ≠ "")
    (hi : ∀ c, tasks msg.taskId = some c → c = msg.cmd) (hsame : ∀ j, tasks j = some msg.cmd → j = msg.taskId) :
    ∃ tasks', Consistent channel tasks' (s.next (.command msg o)) := by
  have hrecording := h.settled.running.recording
  have hpublishing := h.settled.holds.publishing_iff
  cases hcmd : msg.cmd with
  | snapshot =>
      rw [hcmd] at hi hsame
      have hsettled := h.settled.startSnapshot (o := o) hc ho hi
      refine ⟨_, ?_, h.single.insert hname hi hsame (by simp), h.roles.insert hi (.inl ⟨?_, by simp⟩) (.inl ⟨?_, by simp⟩),
        fun _ => hchannel⟩
      · simpa [SinkSession.next, Op.apply, TaskPipe.handleCommand, hcmd, TaskPipe.handleSnapshotCommand, hstart, hc,
          hchannel] using hsettled
      · simp [SinkSession.next, hcmd]
      · simp [SinkSession.next, hcmd]
  | record =>
      rw [hcmd] at hi hsame
      have hsettled := h.settled.startRecording (o := o) hc hchannel ho hi
      have hpipe : (s.next (.command msg o)).pipe = s.pipe.startRecording msg o := by
        simp [SinkSession.next, Op.apply, TaskPipe.handleCommand, hcmd, TaskPipe.handleRecordingCommand, hstart]
      have hafter : (s.pipe.startRecording msg o).recording = true :=
        hsettled.running.recording.mpr ((runs_insert hi).mpr (.inl rfl))
      refine ⟨_, hpipe ▸ hsettled, h.single.insert hname hi hsame (by simp), h.roles.insert hi ?_ (.inl ⟨?_, by simp⟩),
        fun _ => hchannel⟩
      · by_cases hrun : Runs tasks .record
        · exact .inl ⟨by simp [SinkSession.next, hrecording.mpr hrun], fun _ => hrun⟩
        · have hbefore : s.pipe.recording = false := by rwa [← Bool.not_eq_true, hrecording]
          refine .inr ⟨?_, rfl⟩
          have happly : Op.apply s.pipe (.command msg o) = s.pipe.startRecording msg o := hpipe
          simp [SinkSession.next, hstart, hcmd, hbefore, happly, hafter]
      · simp [SinkSession.next, hcmd]
  | rtmp | whip => exact h.startStream hc hchannel ho hstart hname (by simp [hcmd]) hi hsame

end Next

theorem Consistent.next {channel : String} {tasks : String → Option TaskCmd} {op : Op} {s : SinkSession}
    (h : Consistent channel tasks s) (hg : onePerCmd channel op s) (hc : careful op s) :
    ∃ tasks', Consistent channel tasks' (s.next op) := by
  have hmem {i cmd} (hi : tasks i = some cmd) : (channel, i, cmd) ∈ s.pipe.tasks := h.settled.holds.mem_tasks.mpr ⟨rfl, hi⟩
  cases op with
  | command msg o =>
      obtain ⟨hchannel, ho, hstop | ⟨hstart, hsame⟩⟩ := hg
      · exact h.stop hchannel hstop ((hc.2 hstop).imp (fun hown c hi => hown _ (hmem hi) rfl)
          fun honly j c hj => honly _ (hmem hj))
      · obtain ⟨hname, hown⟩ := hc.1 hstart
        by_cases hempty : channel = ""
        · exact h.start_unnamed hchannel hempty hstart
        · exact h.start hchannel hempty ho hstart hname (fun c hi => hown _ (hmem hi) rfl) fun j hj => hsame _ (hmem hj) rfl
  | recordingCompleted taskId status message o =>
      obtain ⟨hrecording, rfl⟩ := hg
      have hi := h.roles.recording (h.settled.running.recording.mp hrecording)
      refine h.of_ended ?_ rfl rfl
      exact h.settled.recordingCompleted (h.named ⟨_, _, hi⟩) hi fun j c hj => hc _ (hmem hj)
  | streamingCompleted taskId status message o =>
      obtain ⟨hstreaming, rfl⟩ := hg
      obtain ⟨cmd, hi, hcmd⟩ := h.roles.streaming (h.settled.running.streaming.mp hstreaming)
      refine h.of_ended ?_ rfl rfl
      exact h.settled.streamingCompleted h.single (h.named ⟨_, _, hi⟩) hi hcmd
  | sdkError errorType errorMessage => exact hg.elim

theorem consistent_init (channel : String) (snapshot : SnapshotConfig) (recording : RecordingConfig) :
    Consistent channel (fun _ => none) (SinkSession.init snapshot recording) := by
  have hruns (cmd) : ¬Runs (fun _ => none) cmd := nofun
  refine ⟨⟨⟨?_, fun _ _ => rfl⟩, ⟨?_, ?_, ?_⟩, fun _ => rfl⟩, ⟨rfl, nofun, ?_⟩, ⟨?_, ?_⟩, nofun⟩
  · intro c state hl
    simp [SinkSession.init, TaskPipe.init] at hl
  · simp [SinkSession.init, TaskPipe.init, hruns]
  · simp [SinkSession.init, TaskPipe.init, hruns]
  · simp [SinkSession.init, TaskPipe.init, hruns]
  · simp [hruns]
  · simp [hruns]
  · simp [hruns]

/-- 静止画 `b` を止めた後に、録画 `a` が最大の長さに達し、静止画 `d` が始まる。 -/
def completedAlone : List Op :=
  [recordStart "a" "c", .command { taskId := "b", cmd := .snapshot, action := .start, channel := "c" } {},
    .command { taskId := "b", cmd := .snapshot, action := .stop, channel := "c" } {},
    .recordingCompleted "a" "success" "Recording completed - max duration reached" {},
    .command { taskId := "d", cmd := .snapshot, action := .start, channel := "c" } {}]

end RtcEgress.Worker
