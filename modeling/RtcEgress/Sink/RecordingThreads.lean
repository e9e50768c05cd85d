import Mathlib.Data.List.Nodup
import Mathlib.Tactic.SplitIfs
import RtcEgress.Lib.Gate
import RtcEgress.Sink.RecordingSink

/-!
# 録画のスレッドの不変条件

`stopInProgress_` の旗で守る `stop` の区間を一つの `Gate` と見て、録画の部品の不変条件を定める。セッションのスレッドは、
三つのハンドルのどれかが指す。区間にいるスレッドは、自分の段階までにスレッドを `join` し、片づけを行っている。
-/

namespace RtcEgress.Sink.RecordingSink

open RtcEgress.Lib
open Function (update)

/-- `stopInProgress_` を立てた後の段階。 -/
def Stop.past : Stop → Bool
  | .entering | .waiting => false
  | _ => true

/-- `w` より先に `join` するスレッド。 -/
def Worker.joinedBefore : Worker → List Track
  | .processing .audio => []
  | .processing .video => [.audio]
  | .recording => [.audio, .video]

theorem Worker.mem_all (w : Worker) : w ∈ Worker.all := by
  cases w with
  | recording => decide
  | processing track => cases track <;> decide

namespace Thread

variable {t : Thread} {stop : Stop}

@[simp] theorem worker_create (session : Nat) (w : Worker) : (create session w).worker = some (w, session) := by
  cases w <;> rfl

@[simp] theorem stop_create (session : Nat) (w : Worker) : (create session w).stop = none := by
  cases w <;> rfl

theorem create_ne_caller (session : Nat) (w : Worker) (phase : Caller) : create session w ≠ .caller phase := by
  cases w <;> nofun

/-- `stop` をしているスレッドは、外のスレッドか、録画のスレッドである。 -/
theorem stop_cases (h : t.stop = some stop) : t = .caller (.reaping stop) ∨
    (∃ issued, t = .caller (.stopping issued stop)) ∨ ∃ session, t = .recording session (.stopping stop) := by
  match t, h with
  | .caller (.reaping _), rfl => exact .inl rfl
  | .caller (.stopping issued _), rfl => exact .inr (.inl ⟨issued, rfl⟩)
  | .recording session (.stopping _), rfl => exact .inr (.inr ⟨session, rfl⟩)

theorem stop_afterStop (h : t.stop = some stop) (r : Option Stop) : (t.afterStop r).stop = r := by
  rcases stop_cases h with rfl | ⟨issued, rfl⟩ | ⟨session, rfl⟩ <;> cases r <;> rfl

theorem afterStop_self (h : t.stop = some stop) : t.afterStop (some stop) = t := by
  rcases stop_cases h with rfl | ⟨issued, rfl⟩ | ⟨session, rfl⟩ <;> rfl

theorem worker_afterStop (h : t.stop = some stop) (r : Option Stop) : (t.afterStop r).worker = t.worker := by
  rcases stop_cases h with rfl | ⟨issued, rfl⟩ | ⟨session, rfl⟩ <;> cases r <;> rfl

theorem afterStop_stopping {issued : Nat} {stop' : Stop} {r : Option Stop} (h : t.stop = some stop)
    (ht : t.afterStop r = .caller (.stopping issued stop')) : t = .caller (.stopping issued stop) := by
  rcases stop_cases h with rfl | ⟨issued, rfl⟩ | ⟨session, rfl⟩ <;> cases r <;> cases ht
  rfl

theorem afterStop_stopped {issued : Nat} {r : Option Stop} (h : t.stop = some stop)
    (ht : t.afterStop r = .caller (.stopped issued)) : r = none ∧ t = .caller (.stopping issued stop) := by
  rcases stop_cases h with rfl | ⟨issued, rfl⟩ | ⟨session, rfl⟩ <;> cases r <;> cases ht
  exact ⟨rfl, rfl⟩

/-- 終わったスレッドは、`stop` をしていない。 -/
theorem stop_of_hasEnded (h : t.hasEnded = true) : t.stop = none := by
  match t with
  | .recording _ .ended => rfl
  | .processing _ _ true => rfl

end Thread

namespace State

variable {s s' : State} {i j : ThreadId} {o : Option Thread} {n session : Nat} {w : Worker} {done : List Part}

def worker (s : State) (i : ThreadId) : Option (Worker × Nat) := (s.threads i).bind Thread.worker

/-- スレッド `i` の行っている `stop` の段階。 -/
def stopOf (s : State) (i : ThreadId) : Option Stop := (s.threads i).bind Thread.stop

/-! ## セッションの状態 -/

/-- セッションの片づけを、順に一度ずつ行った。 -/
def Completed (s : State) (session : Nat) : Prop := s.finals session = Part.all.filter (s.needed session)

/-- どのセッションも終わっている。 -/
structure Closed (s : State) : Prop where
  isRecording : s.isRecording = false
  processing : ∀ track, s.handle (.processing track) = none
  completed : ∀ session < s.started, s.Completed session
  future : ∀ session, s.started ≤ session → s.finals session = []

/-- 最後のセッションを録画していて、片づけ `done` を行った。 -/
structure Live (s : State) (done : List Part) : Prop where
  isRecording : s.isRecording = true
  started : 0 < s.started
  needed : s.needed (s.started - 1) = s.needs
  finals : s.finals (s.started - 1) = done.filter s.needs
  completed : ∀ session < s.started - 1, s.Completed session
  future : ∀ session, s.started ≤ session → s.finals session = []

/-- `stop` が片づけを始める前の状態。 -/
def Entered (s : State) : Bool → Prop
  | true => s.Live []
  | false => s.Closed

/-- 処理のスレッドは `join` され、録画のスレッドも、自分の他は `join` された。 -/
structure Joined (s : State) (i : ThreadId) : Prop where
  processing : ∀ track, s.handle (.processing track) = none
  recording : ∀ j, s.handle .recording = some j → j = i

/-- `stop` をしているスレッドがないときの状態。 -/
def Rest (s : State) : Prop := s.Closed ∨ s.Live [] ∧ (s.handle .recording).isSome = true

/-- スレッド `i` が `stop` の各段階にいるときの状態。 -/
def Holds (s : State) (i : ThreadId) : Stop → Prop
  | .entering | .waiting => True
  | .joining w wasRecording =>
      s.Entered wasRecording ∧ (s.handle .recording).isSome = true ∧
        ∀ track ∈ w.joinedBefore, s.handle (.processing track) = none
  | .finalising parts => (∃ done, done ++ parts = Part.all ∧ s.Live done) ∧ s.Joined i
  | .releasing => s.Closed ∧ s.Joined i

end State

/-- `stopInProgress_` で守る区間。 -/
def gate : Gate ThreadId Thread State where
  flag := State.stopInProgress
  inside t := t.stop.any Stop.past
  Rest := State.Rest
  Holds i t s := ∀ stop, t.stop = some stop → s.Holds i stop

namespace State

variable {s s' : State} {i j : ThreadId} {o : Option Thread} {n session : Nat} {w : Worker} {done : List Part}

/-! ## 不変条件 -/

/-- ハンドルと、セッションのスレッドの対応。セッションのスレッドは、どれも `n` 番目のセッションのものである。 -/
structure Placed (s : State) (n : Nat) : Prop where
  handle : ∀ w i, s.handle w = some i ↔ ∃ session, s.worker i = some (w, session)
  session : ∀ i w session, s.worker i = some (w, session) → session + 1 = n
  id : ∀ i, s.handle .recording = some i → s.recordingThreadId = some i

/-- `issued` 番目までのセッションは終わり、そのスレッドもない。 -/
structure Answered (s : State) (issued : Nat) : Prop where
  completed : ∀ session < issued, s.Completed session
  started : issued < s.started ∨ issued = s.started ∧ ∀ w, s.handle w = none

structure Inv (s : State) : Prop where
  placed : s.Placed s.started
  gated : gate.Inv s.threads s
  stopping : ∀ i issued stop, s.threads i = some (.caller (.stopping issued stop)) →
    issued ≤ s.started ∧ (s.recordingThreadId = some i → issued = s.started)
  stopped : ∀ i issued, s.threads i = some (.caller (.stopped issued)) → s.Answered issued

/-! ## スレッドの表 -/

theorem inside_iff {t : Thread} : gate.inside t = true ↔ ∃ stop, t.stop = some stop ∧ stop.past = true :=
  Option.any_eq_true ..

theorem inside_of_stop {t : Thread} (h : t.stop = none) : gate.inside t = false := by
  simp [gate, h]

theorem in_iff : gate.In s.threads i ↔ ∃ stop, s.stopOf i = some stop ∧ stop.past = true := by
  constructor
  · intro h
    obtain ⟨t, ht, hin⟩ := h
    obtain ⟨stop, hstop, hpast⟩ := inside_iff.mp hin
    exact ⟨stop, by rw [stopOf, ht]; exact hstop, hpast⟩
  · intro h
    obtain ⟨stop, hstop, hpast⟩ := h
    obtain ⟨t, ht, hstop⟩ := Option.bind_eq_some_iff.mp hstop
    exact ⟨t, ht, inside_iff.mpr ⟨stop, hstop, hpast⟩⟩

theorem not_in_of_outside {t : Thread} (h : s.threads i = some t) (hout : gate.inside t = false) :
    ¬gate.In s.threads i := by
  intro hin
  obtain ⟨t', ht', hin⟩ := hin
  rw [h] at ht'
  cases ht'
  rw [hout] at hin
  cases hin

theorem not_in_of_none (h : s.threads i = none) : ¬gate.In s.threads i := by
  intro hin
  obtain ⟨t, ht, _⟩ := hin
  rw [h] at ht
  cases ht

theorem worker_eq {t : Thread} (h : s.threads i = some t) : s.worker i = t.worker := by
  rw [worker, h]
  rfl

theorem worker_of_none (h : s.threads i = none) : s.worker i = none := by
  rw [worker, h]
  rfl

theorem ready_iff : s.ready i = true ↔ ∃ phase, s.threads i = some (.caller phase) ∧ phase.ready = true := by
  rw [ready]
  constructor
  · intro h
    split at h
    next phase hi => exact ⟨phase, hi, h⟩
    · cases h
  · intro h
    obtain ⟨phase, hi, hready⟩ := h
    rw [hi]
    exact hready

theorem stop_of_ready {phase : Caller} (h : phase.ready = true) : (Thread.caller phase).stop = none := by
  cases phase with
  | idle | initialized | started | resuming | stopped => rfl
  | reaping | stopping => cases h

/-! ## 変わらない項目 -/

/-- 二つの状態で、セッションの状態は等しい。 -/
structure Same (s s' : State) : Prop where
  isRecording : s'.isRecording = s.isRecording
  handle : s'.handle = s.handle
  recordingThreadId : s'.recordingThreadId = s.recordingThreadId
  started : s'.started = s.started
  needed : s'.needed = s.needed
  finals : s'.finals = s.finals

/-- 一歩の後も、終わったセッションは終わっていて、ないスレッドはない。 -/
structure Frame (s s' : State) : Prop where
  started : s'.started = s.started
  completed : ∀ session, s.Completed session → s'.Completed session
  handle : ∀ w, s.handle w = none → s'.handle w = none

theorem Same.put (t : Thread) : Same s (s.put i t) := ⟨rfl, rfl, rfl, rfl, rfl, rfl⟩

theorem Same.completed (h : Same s s') (hc : s.Completed session) : s'.Completed session := by
  rw [Completed, h.finals, h.needed]
  exact hc

theorem Same.frame (h : Same s s') : Frame s s' where
  started := h.started
  completed _ := h.completed
  handle w hw := by rw [h.handle, hw]

theorem Closed.congr (h : s.Closed) (hs : Same s s') : s'.Closed where
  isRecording := hs.isRecording.trans h.isRecording
  processing track := by rw [hs.handle, h.processing]
  completed session hlt := hs.completed (h.completed session (hs.started ▸ hlt))
  future session hle := by rw [hs.finals, h.future session (hs.started ▸ hle)]

theorem Live.congr (h : s.Live done) (hs : Same s s') (hneeds : s'.needs = s.needs) : s'.Live done where
  isRecording := hs.isRecording.trans h.isRecording
  started := hs.started ▸ h.started
  needed := by rw [hs.needed, hs.started, hneeds, h.needed]
  finals := by rw [hs.finals, hs.started, hneeds, h.finals]
  completed session hlt := hs.completed (h.completed session (hs.started ▸ hlt))
  future session hle := by rw [hs.finals, h.future session (hs.started ▸ hle)]

theorem Entered.congr {was : Bool} (h : s.Entered was) (hs : Same s s') (hneeds : s'.needs = s.needs) : s'.Entered was := by
  cases was with
  | true => exact Live.congr h hs hneeds
  | false => exact Closed.congr h hs

theorem Joined.congr (h : s.Joined i) (hs : Same s s') : s'.Joined i where
  processing := hs.handle ▸ h.processing
  recording := hs.handle ▸ h.recording

theorem Rest.congr (h : s.Rest) (hs : Same s s') (hneeds : s'.needs = s.needs) : s'.Rest := by
  cases h with
  | inl hclosed => exact .inl (hclosed.congr hs)
  | inr hlive => exact .inr ⟨hlive.1.congr hs hneeds, hs.handle ▸ hlive.2⟩

theorem Holds.congr {stop : Stop} (h : s.Holds i stop) (hs : Same s s') (hneeds : s'.needs = s.needs) :
    s'.Holds i stop := by
  cases stop with
  | entering | waiting => trivial
  | joining w was => exact ⟨h.1.congr hs hneeds, hs.handle ▸ h.2.1, hs.handle ▸ h.2.2⟩
  | finalising parts =>
      obtain ⟨⟨done, hparts, hlive⟩, hjoined⟩ := h
      exact ⟨⟨done, hparts, hlive.congr hs hneeds⟩, hjoined.congr hs⟩
  | releasing => exact ⟨h.1.congr hs, h.2.congr hs⟩

theorem Placed.congr (h : s.Placed n) (hs : Same s s') (hworker : ∀ i, s'.worker i = s.worker i) : s'.Placed n where
  handle w i := by rw [hs.handle, hworker, h.handle]
  session i w session hi := h.session i w session (hworker i ▸ hi)
  id i hi := by
    rw [hs.handle] at hi
    rw [hs.recordingThreadId, h.id i hi]

theorem Answered.frame {issued : Nat} (h : s.Answered issued) (hs : Frame s s') : s'.Answered issued where
  completed session hlt := hs.completed session (h.completed session hlt)
  started := by
    cases h.started with
    | inl hlt => exact .inl (hs.started ▸ hlt)
    | inr heq => exact .inr ⟨hs.started ▸ heq.1, fun w => hs.handle w (heq.2 w)⟩

/-! ## 区間の外の一歩 -/

/-- スレッドの表は変わらない。 -/
theorem Inv.quiet (h : s.Inv) (hs : Same s s') (hneeds : s'.needs = s.needs) (hflag : s'.stopInProgress = s.stopInProgress)
    (hthreads : s'.threads = s.threads) : s'.Inv where
  placed := by
    rw [hs.started]
    exact h.placed.congr hs fun i => by rw [worker, hthreads]; rfl
  gated := by
    rw [hthreads]
    exact h.gated.aside .refl hflag (·.congr hs hneeds) fun i t hholds stop hstop => (hholds stop hstop).congr hs hneeds
  stopping i issued stop hi := by
    rw [hs.started, hs.recordingThreadId]
    exact h.stopping i issued stop (hthreads ▸ hi)
  stopped i issued hi := (h.stopped i issued (hthreads ▸ hi)).frame hs.frame

/-- 表の中の、一つのスレッドだけが変わる。 -/
theorem Inv.update (h : s.Inv) (hs : Same s s') (hneeds : s'.needs = s.needs)
    (hflag : s'.stopInProgress = s.stopInProgress) (hthreads : s'.threads = Function.update s.threads i o)
    (hworker : o.bind Thread.worker = s.worker i) (hout : ¬gate.In s.threads i)
    (hout' : ∀ t, o = some t → gate.inside t = false)
    (hstopping : ∀ issued stop, o = some (.caller (.stopping issued stop)) →
      issued ≤ s.started ∧ (s.recordingThreadId = some i → issued = s.started))
    (hstopped : ∀ issued, o = some (.caller (.stopped issued)) → s.Answered issued) : s'.Inv := by
  constructor
  · rw [hs.started]
    refine h.placed.congr hs fun j => ?_
    rw [worker, hthreads]
    by_cases hj : j = i
    · rw [hj, Function.update_self, hworker]
    · rw [Function.update_of_ne hj]
      rfl
  · rw [hthreads]
    exact h.gated.aside (Gate.same_update hout hout') hflag (·.congr hs hneeds)
      fun j t hholds stop hstop => (hholds stop hstop).congr hs hneeds
  · intro j issued stop hj
    rw [hthreads] at hj
    rw [hs.started, hs.recordingThreadId]
    by_cases hne : j = i
    · rw [hne, Function.update_self] at hj
      exact hne ▸ hstopping issued stop hj
    · rw [Function.update_of_ne hne] at hj
      exact h.stopping j issued stop hj
  · intro j issued hj
    rw [hthreads] at hj
    by_cases hne : j = i
    · rw [hne, Function.update_self] at hj
      exact (hstopped issued hj).frame hs.frame
    · rw [Function.update_of_ne hne] at hj
      exact (h.stopped j issued hj).frame hs.frame

/-- `stop` の外のスレッドが進む。 -/
theorem Inv.put {t : Thread} (h : s.Inv) (hworker : t.worker = s.worker i) (hout : ¬gate.In s.threads i)
    (hout' : gate.inside t = false)
    (hstopping : ∀ issued stop, t = .caller (.stopping issued stop) →
      issued ≤ s.started ∧ (s.recordingThreadId = some i → issued = s.started))
    (hstopped : ∀ issued, t ≠ .caller (.stopped issued)) : (s.put i t).Inv := by
  refine h.update (.put _) rfl rfl rfl hworker hout (fun t' ht => Option.some.inj ht ▸ hout') ?_ ?_
  · intro issued stop ht
    exact hstopping issued stop (Option.some.inj ht)
  · intro issued ht
    exact absurd (Option.some.inj ht) (hstopped issued)

theorem Inv.rest (h : s.Inv) (hflag : s.stopInProgress = false) : s.Rest := h.gated.rest_of_flag hflag

theorem Rest.closed (h : s.Rest) (hrec : s.isRecording = false) : s.Closed := by
  cases h with
  | inl hclosed => exact hclosed
  | inr hlive =>
      have hrec' := hlive.1.isRecording
      rw [hrec] at hrec'
      cases hrec'

theorem Rest.entered (h : s.Rest) : s.Entered s.isRecording := by
  cases h with
  | inl hclosed =>
      rw [hclosed.isRecording]
      exact hclosed
  | inr hlive =>
      rw [hlive.1.isRecording]
      exact hlive.1

/-! ## `initialize` -/

theorem initializeSink_cases (config : Config) (setup : Setup) (s : State) :
    (s.initializeSink config setup).2 = s ∨ s.isRecording = false ∧ s.stopInProgress = false ∧
      Same s (s.initializeSink config setup).2 ∧ (s.initializeSink config setup).2.stopInProgress = s.stopInProgress ∧
      (s.initializeSink config setup).2.threads = s.threads := by
  rw [initializeSink]
  split
  · exact .inl rfl
  next hidle =>
    rw [Bool.or_eq_true, not_or, Bool.not_eq_true, Bool.not_eq_true] at hidle
    split
    · exact .inl rfl
    · refine .inr ⟨hidle.1, hidle.2, ?_⟩
      split
      · exact ⟨⟨rfl, rfl, rfl, rfl, rfl, rfl⟩, rfl, rfl⟩
      · dsimp only
        split_ifs <;> exact ⟨⟨rfl, rfl, rfl, rfl, rfl, rfl⟩, rfl, rfl⟩

/-- 録画も片づけもしていないならば、片づけるものは変わってよい。 -/
theorem Inv.reconfigure (h : s.Inv) (hrec : s.isRecording = false) (hflag : s.stopInProgress = false) (hs : Same s s')
    (hflag' : s'.stopInProgress = s.stopInProgress) (hthreads : s'.threads = s.threads) : s'.Inv where
  placed := by
    rw [hs.started]
    exact h.placed.congr hs fun i => by rw [worker, hthreads]; rfl
  gated := by
    rw [hthreads]
    refine .rest (hflag'.trans hflag) ?_ (.inl (((h.rest hflag).closed hrec).congr hs))
    intro i hin
    have htrue : s.stopInProgress = true := h.gated.flag_of_in hin
    rw [hflag] at htrue
    cases htrue
  stopping i issued stop hi := by
    rw [hs.started, hs.recordingThreadId]
    exact h.stopping i issued stop (hthreads ▸ hi)
  stopped i issued hi := (h.stopped i issued (hthreads ▸ hi)).frame hs.frame

theorem Inv.initializeSink (h : s.Inv) (config : Config) (setup : Setup) :
    (s.initializeSink config setup).2.Inv ∧ (s.initializeSink config setup).2.threads = s.threads := by
  rcases initializeSink_cases config setup s with heq | ⟨hrec, hflag, hs, hflag', hthreads⟩
  · rw [heq]
    exact ⟨h, rfl⟩
  · exact ⟨h.reconfigure hrec hflag hs hflag' hthreads, hthreads⟩

/-! ## セッションの開始 -/

theorem fresh_iff {env : Env} : s.fresh env = true ↔
    (Worker.all.map env.ids).Nodup ∧ ∀ w, s.threads (env.ids w) = none := by
  simp only [fresh, Bool.and_eq_true, decide_eq_true_eq, List.all_eq_true, Option.isNone_iff_eq_none]
  refine and_congr_right fun _ => ⟨fun h w => h w (Worker.mem_all w), fun h w _ => h w⟩

/-- スレッドを作る前と後の状態。 -/
structure Spawns (s s' : State) : Prop where
  isRecording : s'.isRecording = s.isRecording
  stopInProgress : s'.stopInProgress = s.stopInProgress
  config : s'.config = s.config
  needs : s'.needs = s.needs
  started : s'.started = s.started
  needed : s'.needed = s.needed
  finals : s'.finals = s.finals
  kept : ∀ i t, s.threads i = some t → s'.threads i = some t
  created : ∀ i t, s'.threads i = some t → s.threads i = some t ∨ ∃ w, t = .create s.started w

theorem Spawns.trans {s'' : State} (h : Spawns s s') (h' : Spawns s' s'') : Spawns s s'' where
  isRecording := h'.isRecording.trans h.isRecording
  stopInProgress := h'.stopInProgress.trans h.stopInProgress
  config := h'.config.trans h.config
  needs := h'.needs.trans h.needs
  started := h'.started.trans h.started
  needed := h'.needed.trans h.needed
  finals := h'.finals.trans h.finals
  kept i t hi := h'.kept i t (h.kept i t hi)
  created i t hi := by
    cases h'.created i t hi with
    | inl hi => exact h.created i t hi
    | inr hw => exact .inr (h.started ▸ hw)

theorem spawn_handle : (s.spawn w i).handle = update s.handle w (some i) := rfl

theorem spawn_threads : (s.spawn w i).threads = update s.threads i (some (.create s.started w)) := rfl

theorem Spawns.spawn (hi : s.threads i = none) : Spawns s (s.spawn w i) := by
  refine ⟨rfl, rfl, rfl, rfl, rfl, rfl, rfl, ?_, ?_⟩
  · intro j t hj
    have hne : j ≠ i := by
      rintro rfl
      rw [hi] at hj
      cases hj
    exact (Function.update_of_ne hne ..).trans hj
  · intro j t hj
    rw [spawn_threads] at hj
    by_cases hne : j = i
    · rw [hne, Function.update_self] at hj
      exact .inr ⟨w, (Option.some.inj hj).symm⟩
    · rw [Function.update_of_ne hne] at hj
      exact .inl hj

/-- 新しいスレッドを、空いているハンドルが指す。 -/
theorem Placed.spawn (h : s.Placed n) (hn : s.started + 1 = n) (hw : s.handle w = none) (hi : s.threads i = none)
    (hhandle : s'.handle = update s.handle w (some i))
    (hthreads : s'.threads = update s.threads i (some (.create s.started w)))
    (hid : ∀ j, s'.handle .recording = some j → s'.recordingThreadId = some j) : s'.Placed n := by
  have hself : s'.worker i = some (w, s.started) := by
    rw [worker, hthreads, Function.update_self]
    exact Thread.worker_create _ _
  have hother (j : ThreadId) (hj : j ≠ i) : s'.worker j = s.worker j := by
    rw [worker, hthreads, Function.update_of_ne hj]
    rfl
  refine ⟨?_, ?_, hid⟩
  · intro w' j
    rw [hhandle]
    by_cases hj : j = i
    · subst hj
      rw [hself]
      by_cases hw' : w' = w
      · subst hw'
        rw [Function.update_self]
        exact ⟨fun _ => ⟨_, rfl⟩, fun _ => rfl⟩
      · rw [Function.update_of_ne hw']
        constructor
        · intro hhandle
          obtain ⟨session, hworker⟩ := (h.handle w' j).mp hhandle
          rw [worker_of_none hi] at hworker
          cases hworker
        · intro hex
          obtain ⟨session, hworker⟩ := hex
          cases hworker
          exact absurd rfl hw'
    · rw [hother j hj]
      by_cases hw' : w' = w
      · subst hw'
        rw [Function.update_self]
        constructor
        · intro heq
          cases heq
          exact absurd rfl hj
        · intro hex
          rw [(h.handle w' j).mpr hex] at hw
          cases hw
      · rw [Function.update_of_ne hw']
        exact h.handle w' j
  · intro j w' session hj
    by_cases hne : j = i
    · rw [hne, hself] at hj
      cases hj
      exact hn
    · exact h.session j w' session (hother j hne ▸ hj)

/-- `ws` のスレッドまで作るか決めた状態。 -/
structure Opening (env : Env) (s : State) (ws : List Worker) (s' : State) : Prop where
  spawns : Spawns s s'
  placed : s'.Placed (s.started + 1)
  recording : s'.handle .recording = some (env.ids .recording)
  handle : ∀ w, w ∉ ws → s'.handle w = none
  threads : ∀ w, w ∉ ws → s'.threads (env.ids w) = none

theorem ids_ne {env : Env} {w' : Worker} (hnodup : (Worker.all.map env.ids).Nodup) (hne : w ≠ w') :
    env.ids w ≠ env.ids w' := fun heq =>
  hne (List.inj_on_of_nodup_map hnodup (Worker.mem_all w) (Worker.mem_all w') heq)

theorem Opening.recorded {env : Env} (hfresh : s.fresh env = true) (hnone : ∀ w, s.handle w = none) (hplaced : s.Placed n) :
    Opening env s [.recording]
      { s.spawn .recording (env.ids .recording) with recordingThreadId := some (env.ids .recording) } := by
  obtain ⟨hnodup, hfree⟩ := fresh_iff.mp hfresh
  have hspawns := Spawns.spawn (w := .recording) (hfree .recording)
  have hself : (s.spawn .recording (env.ids .recording)).handle .recording = some (env.ids .recording) := by
    rw [spawn_handle, Function.update_self]
  have hplaced' : s.Placed (s.started + 1) := by
    refine ⟨hplaced.handle, ?_, hplaced.id⟩
    intro i w session hi
    have hsome := (hplaced.handle w i).mpr ⟨session, hi⟩
    rw [hnone w] at hsome
    cases hsome
  refine ⟨⟨rfl, rfl, rfl, rfl, rfl, rfl, rfl, hspawns.kept, hspawns.created⟩, ?_, hself, ?_, ?_⟩
  · refine hplaced'.spawn rfl (hnone _) (hfree _) rfl rfl ?_
    intro j hj
    exact hself.symm.trans hj
  · intro w hw
    exact (Function.update_of_ne (List.ne_of_not_mem_cons hw) ..).trans (hnone w)
  · intro w hw
    exact (Function.update_of_ne (ids_ne hnodup (List.ne_of_not_mem_cons hw)) ..).trans (hfree w)

theorem Opening.processed {env : Env} {ws : List Worker} (h : Opening env s ws s') (track : Track)
    (hnodup : (Worker.all.map env.ids).Nodup) (hw : .processing track ∉ ws) (runs : Bool) :
    Opening env s (.processing track :: ws)
      (if runs then s'.spawn (.processing track) (env.ids (.processing track)) else s') := by
  cases runs with
  | false =>
      exact ⟨h.spawns, h.placed, h.recording, fun w hmem => h.handle w (List.not_mem_of_not_mem_cons hmem),
        fun w hmem => h.threads w (List.not_mem_of_not_mem_cons hmem)⟩
  | true =>
      refine ⟨h.spawns.trans (.spawn (h.threads _ hw)), ?_, ?_, ?_, ?_⟩
      · refine h.placed.spawn (by rw [h.spawns.started]) (h.handle _ hw) (h.threads _ hw) rfl rfl ?_
        intro j hj
        exact h.placed.id j hj
      · exact h.recording
      · intro w hmem
        exact (Function.update_of_ne (List.ne_of_not_mem_cons hmem) ..).trans
          (h.handle w (List.not_mem_of_not_mem_cons hmem))
      · intro w hmem
        exact (Function.update_of_ne (ids_ne hnodup (List.ne_of_not_mem_cons hmem)) ..).trans
          (h.threads w (List.not_mem_of_not_mem_cons hmem))

theorem spawnAll_opening {env : Env} (hfresh : s.fresh env = true) (hnone : ∀ w, s.handle w = none)
    (hplaced : s.Placed n) : ∃ ws, Opening env s ws (s.spawnAll env) := by
  obtain ⟨hnodup, _⟩ := fresh_iff.mp hfresh
  have hrecorded := Opening.recorded hfresh hnone hplaced
  have haudio := hrecorded.processed .audio hnodup (by decide) s.config.recordAudio
  exact ⟨_, haudio.processed .video hnodup (by decide) _⟩

/-- 作ったスレッドは外のスレッドではない。 -/
theorem Spawns.caller (h : Spawns s s') {phase : Caller} (hi : s'.threads i = some (.caller phase)) :
    s.threads i = some (.caller phase) := by
  cases h.created i _ hi with
  | inl hi => exact hi
  | inr hw =>
      obtain ⟨w, hw⟩ := hw
      exact absurd hw.symm (Thread.create_ne_caller _ _ _)

theorem Spawns.not_in (h : Spawns s s') (hout : ∀ i, ¬gate.In s.threads i) (i : ThreadId) : ¬gate.In s'.threads i := by
  intro hin
  obtain ⟨t, ht, hinside⟩ := hin
  cases h.created i t ht with
  | inl hi => exact hout i ⟨t, hi, hinside⟩
  | inr hw =>
      obtain ⟨w, rfl⟩ := hw
      rw [inside_of_stop (Thread.stop_create _ _)] at hinside
      cases hinside

/-- 新しいセッションを数える。 -/
def count (s : State) : State := { s with started := s.started + 1, needed := update s.needed s.started s.needs }

theorem count_needed (hlt : session < s.started) : s.count.needed session = s.needed session :=
  Function.update_of_ne (Nat.ne_of_lt hlt) ..

theorem count_completed (hlt : session < s.started) (h : s.Completed session) : s.count.Completed session := by
  rw [Completed, count_needed hlt]
  exact h

section opened
variable {env : Env} {ws : List Worker}
  (hopening : Opening env { s with stopRequested := false, isRecording := true } ws s')

include hopening

theorem Opening.completed (hlt : session < s.started) (h : s.Completed session) : s'.count.Completed session := by
  refine count_completed (hopening.spawns.started ▸ hlt) ?_
  rw [Completed, hopening.spawns.finals, hopening.spawns.needed]
  exact h

theorem Opening.live (h : s.Closed) : s'.count.Live [] where
  isRecording := hopening.spawns.isRecording
  started := Nat.succ_pos _
  needed := Function.update_self ..
  finals := by
    change s'.finals s'.started = []
    rw [hopening.spawns.finals, hopening.spawns.started]
    exact h.future _ (Nat.le_refl _)
  completed session hlt := by
    have hlt : session < s.started := hopening.spawns.started ▸ hlt
    exact hopening.completed hlt (h.completed session hlt)
  future session hle := by
    change s'.finals session = []
    rw [hopening.spawns.finals]
    have hle : s.started + 1 ≤ session := hopening.spawns.started ▸ hle
    exact h.future session (Nat.le_of_succ_le hle)

theorem Opening.inv (h : s.Inv) (hclosed : s.Closed) (hflag : s.stopInProgress = false) : s'.count.Inv where
  placed := by
    have hstarted : s'.count.started = s.started + 1 := congrArg (· + 1) hopening.spawns.started
    rw [hstarted]
    exact ⟨hopening.placed.handle, hopening.placed.session, hopening.placed.id⟩
  gated := by
    have hout : ∀ i, ¬gate.In s.threads i := by
      intro i hin
      have htrue : s.stopInProgress = true := h.gated.flag_of_in hin
      rw [hflag] at htrue
      cases htrue
    exact .rest (hopening.spawns.stopInProgress.trans hflag) (hopening.spawns.not_in hout)
      (.inr ⟨hopening.live hclosed, Option.isSome_iff_exists.mpr ⟨_, hopening.recording⟩⟩)
  stopping i issued stop hi := by
    have hle := (h.stopping i issued stop (hopening.spawns.caller hi)).1
    refine ⟨?_, ?_⟩
    · change issued ≤ s'.started + 1
      rw [hopening.spawns.started]
      exact Nat.le_succ_of_le hle
    · intro hid
      -- `recordingThreadId_` は、作ったばかりの録画のスレッドを指す。
      have hids : some (env.ids .recording) = some i := (hopening.placed.id _ hopening.recording).symm.trans hid
      cases hids
      obtain ⟨session, hworker⟩ := (hopening.placed.handle _ _).mp hopening.recording
      rw [worker_eq (s := s') hi] at hworker
      cases hworker
  stopped i issued hi := by
    have hanswered := h.stopped i issued (hopening.spawns.caller hi)
    have hle : issued ≤ s.started := by
      cases hanswered.started with
      | inl hlt => exact Nat.le_of_lt hlt
      | inr heq => exact Nat.le_of_eq heq.1
    refine ⟨fun session hlt => hopening.completed (Nat.lt_of_lt_of_le hlt hle) (hanswered.completed session hlt), .inl ?_⟩
    change issued < s'.started + 1
    rw [hopening.spawns.started]
    exact Nat.lt_succ_of_le hle

end opened

theorem Inv.openSession (h : s.Inv) (hrec : s.isRecording = false) (hflag : s.stopInProgress = false)
    (hnone : s.handle .recording = none) {env : Env} (hfresh : s.fresh env = true) :
    (∃ ok, (s.openSession env).1 = .started ok) ∧ (s.openSession env).2.Inv ∧
      ∀ i t, s.threads i = some t → (s.openSession env).2.threads i = some t := by
  rw [State.openSession]
  dsimp only
  have hclosed := (h.rest hflag).closed hrec
  have hnone (w : Worker) : s.handle w = none := by
    cases w with
    | recording => exact hnone
    | processing track => exact hclosed.processing track
  split
  · exact ⟨⟨false, rfl⟩, h.quiet ⟨hrec.symm, rfl, rfl, rfl, rfl, rfl⟩ rfl rfl rfl, fun _ _ hi => hi⟩
  · obtain ⟨ws, hopening⟩ := spawnAll_opening (s := { s with stopRequested := false, isRecording := true })
      hfresh hnone ⟨h.placed.handle, h.placed.session, h.placed.id⟩
    exact ⟨⟨true, rfl⟩, hopening.inv h hclosed hflag, hopening.spawns.kept⟩

end State

end RtcEgress.Sink.RecordingSink
