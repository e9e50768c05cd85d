import RtcEgress.Sink.RecordingThreads

/-!
# `stop` の一歩ごとの不変条件

`stop` をしているスレッドの一歩と、その他のスレッドの一歩が、録画の部品の不変条件を保つ。録画のスレッドの番号を引き継いだ
外のスレッドが `stop` に入るときは、他のスレッドが片づけの途中にないことを仮定する。
-/

namespace RtcEgress.Sink.RecordingSink

open RtcEgress.Lib
open Function (update)

namespace State

variable {s s' : State} {i j : ThreadId} {n session : Nat} {w : Worker} {done : List Part}

/-- `stop` の一歩は、外のスレッドも、セッションの数も変えない。 -/
structure StopStep (s s' : State) : Prop extends Frame s s' where
  recordingThreadId : s'.recordingThreadId = s.recordingThreadId
  placed : s'.Placed s.started
  threads : ∀ j t, s'.threads j = some t → s.threads j = some t

theorem Same.stopStep (hs : Same s s') (h : s.Placed s.started) (hthreads : s'.threads = s.threads) : StopStep s s' where
  toFrame := hs.frame
  recordingThreadId := hs.recordingThreadId
  placed := h.congr hs fun i => by rw [worker, hthreads]; rfl
  threads j t hj := hthreads ▸ hj

theorem put_self {t : Thread} (h : s.threads i = some t) : s.put i t = s := by
  rw [put, ← h, Function.update_eq_self]

section stop
variable {t : Thread} {stop stop' : Stop} {r : Option Stop}

theorem inside_eq (h : t.stop = some stop) : gate.inside t = stop.past := by
  simp [gate, h]

theorem inside_afterStop (h : t.stop = some stop) : gate.inside (t.afterStop r) = r.any Stop.past := by
  simp [gate, Thread.stop_afterStop h]

theorem holds_afterStop (h : t.stop = some stop) (hholds : s.Holds i stop') :
    gate.Holds i (t.afterStop (some stop')) (s.put j (t.afterStop (some stop'))) := by
  intro stop'' hstop
  rw [Thread.stop_afterStop h] at hstop
  cases hstop
  exact hholds.congr (.put _) rfl

theorem onlyEnters_put (hthreads : ∀ j t, s'.threads j = some t → s.threads j = some t) :
    gate.OnlyEnters i s.threads (s'.put i t).threads := by
  intro j hj hin
  obtain ⟨t, ht, hinside⟩ := Gate.onlyEnters_update j hj hin
  exact ⟨t, hthreads j t ht, hinside⟩

theorem put_threads : (s.put i t).threads i = some t := Function.update_self ..

theorem put_threads_of_ne (hne : j ≠ i) : (s.put i t).threads j = s.threads j := Function.update_of_ne hne ..

theorem Inv.gated_enter (h : s.Inv) (hstop : t.stop = some stop) (hfalse : s.stopInProgress = false)
    (hflag : s'.stopInProgress = true) (hpast' : stop'.past = true)
    (hthreads : ∀ j t, s'.threads j = some t → s.threads j = some t) (hholds : s.Rest → s'.Holds i stop') :
    gate.Inv (s'.put i (t.afterStop (some stop'))).threads (s'.put i (t.afterStop (some stop'))) :=
  h.gated.enter hfalse hflag put_threads ((inside_afterStop hstop).trans hpast') (onlyEnters_put hthreads)
    fun hrest => holds_afterStop hstop (hholds hrest)

theorem Inv.gated_move (h : s.Inv) (hi : s.threads i = some t) (hstop : t.stop = some stop) (hpast : stop.past = true)
    (hflag : s'.stopInProgress = s.stopInProgress) (hpast' : stop'.past = true)
    (hthreads : ∀ j t, s'.threads j = some t → s.threads j = some t) (hholds : s.Holds i stop → s'.Holds i stop') :
    gate.Inv (s'.put i (t.afterStop (some stop'))).threads (s'.put i (t.afterStop (some stop'))) := by
  have hin := (inside_eq hstop).trans hpast
  exact h.gated.move hi hin (hflag.trans (h.gated.flag_of_in ⟨t, hi, hin⟩)) put_threads
    ((inside_afterStop hstop).trans hpast') (onlyEnters_put hthreads)
    fun hheld => holds_afterStop hstop (hholds (hheld stop hstop))

theorem Inv.gated_leave (h : s.Inv) (hi : s.threads i = some t) (hstop : t.stop = some stop) (hpast : stop.past = true)
    (hflag : s'.stopInProgress = false) (hthreads : ∀ j t, s'.threads j = some t → s.threads j = some t)
    (hrest : s.Holds i stop → s'.Rest) :
    gate.Inv (s'.put i (t.afterStop none)).threads (s'.put i (t.afterStop none)) :=
  h.gated.leave hi ((inside_eq hstop).trans hpast) hflag (not_in_of_outside put_threads (inside_afterStop hstop))
    (onlyEnters_put hthreads) fun hheld => (hrest (hheld stop hstop)).congr (.put _) rfl

/-- `stop` をしているスレッド `i` の段階を進める。 -/
theorem Inv.advance (h : s.Inv) (hi : s.threads i = some t) (hstop : t.stop = some stop) (hstep : StopStep s s')
    (hi' : s'.threads i = some t)
    (hgated : gate.Inv (s'.put i (t.afterStop r)).threads (s'.put i (t.afterStop r)))
    (hanswered : ∀ issued, t = .caller (.stopping issued stop) → r = none → s'.Answered issued) :
    (s'.put i (t.afterStop r)).Inv := by
  refine ⟨?_, hgated, ?_, ?_⟩
  · have hworker (j : ThreadId) : (s'.put i (t.afterStop r)).worker j = s'.worker j := by
      by_cases hj : j = i
      · rw [hj, worker_eq put_threads, worker_eq hi', Thread.worker_afterStop hstop]
      · rw [worker, put_threads_of_ne hj]
        rfl
    exact hstep.started ▸ hstep.placed.congr (.put _) hworker
  · intro j issued stop'' hj
    have hj' : ∃ stop'', s.threads j = some (.caller (.stopping issued stop'')) := by
      by_cases hne : j = i
      · subst hne
        have hafter := Option.some.inj (put_threads.symm.trans hj)
        exact ⟨stop, hi.trans (congrArg some (Thread.afterStop_stopping hstop hafter))⟩
      · exact ⟨stop'', hstep.threads j _ ((put_threads_of_ne hne).symm.trans hj)⟩
    obtain ⟨stop'', hj'⟩ := hj'
    have hissued := h.stopping j issued stop'' hj'
    refine ⟨hstep.started ▸ hissued.1, fun hid => ?_⟩
    rw [hissued.2 (hstep.recordingThreadId ▸ hid)]
    exact hstep.started.symm
  · intro j issued hj
    by_cases hne : j = i
    · subst hne
      obtain ⟨hr, ht⟩ := Thread.afterStop_stopped hstop (Option.some.inj (put_threads.symm.trans hj))
      exact (hanswered issued ht hr).frame (Same.put _).frame
    · have hj' := hstep.threads j _ ((put_threads_of_ne hne).symm.trans hj)
      exact ((h.stopped j issued hj').frame hstep.toFrame).frame (Same.put _).frame

theorem Live.completed_all (h : s.Live Part.all) (hlt : session < s.started) : s.Completed session := by
  by_cases hlast : session = s.started - 1
  · rw [Completed, hlast, h.finals, h.needed]
  · exact h.completed session (by omega)

theorem Joined.handle_none (h : s.Joined i) (hplaced : s.Placed n) (hworker : s.worker i = none) (w : Worker) :
    s.handle w = none := by
  cases w with
  | processing track => exact h.processing track
  | recording =>
      cases hhandle : s.handle .recording with
      | none => rfl
      | some j =>
          obtain ⟨session, hj⟩ := (hplaced.handle _ _).mp hhandle
          rw [h.recording j hhandle, hworker] at hj
          cases hj

theorem Answered.of_quiet {issued : Nat} (hle : issued ≤ s.started)
    (hcompleted : ∀ session < s.started, s.Completed session) (hnone : ∀ w, s.handle w = none) : s.Answered issued where
  completed session hlt := hcompleted session (Nat.lt_of_lt_of_le hlt hle)
  started := by
    cases Nat.lt_or_eq_of_le hle with
    | inl hlt => exact .inl hlt
    | inr heq => exact .inr ⟨heq, hnone⟩

/-- 旗を確かめる前の `stop` の一歩。 -/
theorem Inv.outside (h : s.Inv) (hi : s.threads i = some t) (hstop : t.stop = some stop) (hpast : stop.past = false)
    (hpast' : r.any Stop.past = false)
    (hanswered : ∀ issued, t = .caller (.stopping issued stop) → r = none → s.Answered issued) :
    (s.put i (t.afterStop r)).Inv := by
  refine h.advance hi hstop (Same.stopStep ⟨rfl, rfl, rfl, rfl, rfl, rfl⟩ h.placed rfl) hi ?_ hanswered
  have hout := not_in_of_outside hi ((inside_eq hstop).trans hpast)
  refine h.gated.aside (Gate.same_update hout ?_) rfl (·.congr (.put _) rfl)
    fun j t' hholds stop'' hstop'' => (hholds stop'' hstop'').congr (.put _) rfl
  intro t' ht'
  cases ht'
  exact (inside_afterStop hstop).trans hpast'

theorem Inv.passGate (h : s.Inv) (hi : s.threads i = some t) (hstop : t.stop = some stop) (hpast : stop.past = false)
    (hflag : s.stopInProgress = false) : (s.passGate.2.put i (t.afterStop s.passGate.1)).Inv := by
  rw [State.passGate]
  split
  next hidle =>
    rw [Bool.and_eq_true, Bool.not_eq_true', Option.isNone_iff_eq_none] at hidle
    have hclosed := (h.rest hflag).closed hidle.1
    refine h.outside hi hstop hpast rfl ?_
    intro issued ht _
    refine .of_quiet (h.stopping i issued stop (hi.trans (congrArg some ht))).1 hclosed.completed ?_
    intro w
    cases w with
    | recording => exact hidle.2
    | processing track => exact hclosed.processing track
  next hactive =>
    have hs : Same s { s with stopInProgress := true, stopRequested := true } := ⟨rfl, rfl, rfl, rfl, rfl, rfl⟩
    refine h.advance hi hstop (hs.stopStep h.placed rfl) hi ?_ fun _ _ hr => nomatch hr
    refine h.gated_enter hstop hflag rfl rfl (fun _ _ => id) ?_
    intro hrest
    refine ⟨hrest.entered.congr hs rfl, ?_, nofun⟩
    cases hrest with
    | inl hclosed => simpa [hclosed.isRecording, Option.isSome_iff_ne_none] using hactive
    | inr hlive => exact hlive.2

/-! ### `join` -/

theorem Entered.join {was : Bool} (h : s.Entered was) : (s.join w j).Entered was := by
  cases was with
  | true => exact ⟨h.isRecording, h.started, h.needed, h.finals, h.completed, h.future⟩
  | false =>
      refine ⟨h.isRecording, ?_, h.completed, h.future⟩
      intro track
      by_cases hw : .processing track = w
      · exact hw ▸ Function.update_self ..
      · exact (Function.update_of_ne hw ..).trans (h.processing track)

/-- 待つスレッドがないか、待ったならば、次の段階に進む。 -/
theorem Holds.afterJoin {was : Bool} (h : s.Holds i (.joining w was)) (hentered : s'.Entered was)
    (hjoined : ∀ j, s'.handle w = some j → w = .recording ∧ j = i)
    (hother : ∀ w', w' ≠ w → s'.handle w' = s.handle w') : s'.Holds i (State.afterJoin was w) := by
  obtain ⟨_, hsome, hbefore⟩ := h
  have hself (track : Track) (hw : w = .processing track) : s'.handle (.processing track) = none := by
    cases hhandle : s'.handle (.processing track) with
    | none => rfl
    | some j => exact absurd (hw.symm.trans (hjoined j (hw ▸ hhandle)).1) nofun
  match w, hself, hjoined, hother, hbefore with
  | .processing .audio, hself, _, hother, _ =>
      refine ⟨hentered, hother .recording nofun ▸ hsome, ?_⟩
      intro track htrack
      rw [List.mem_singleton.mp htrack]
      exact hself .audio rfl
  | .processing .video, hself, _, hother, hbefore =>
      refine ⟨hentered, hother .recording nofun ▸ hsome, ?_⟩
      intro track _
      cases track with
      | audio => exact (hother (.processing .audio) nofun).trans (hbefore .audio (List.mem_singleton_self _))
      | video => exact hself .video rfl
  | .recording, _, hjoined, hother, hbefore =>
      have hjoined : s'.Joined i := by
        refine ⟨?_, fun j hj => (hjoined j hj).2⟩
        intro track
        refine (hother (.processing track) nofun).trans (hbefore track ?_)
        cases track <;> decide
      cases was with
      | true => exact ⟨⟨[], rfl, hentered⟩, hjoined⟩
      | false => exact ⟨hentered, hjoined⟩

theorem past_afterJoin (was : Bool) (w : Worker) : (State.afterJoin was w).past = true := by
  cases was <;> rcases w with _ | _ | _ <;> rfl

theorem join_threads {t' : Thread} (h : (s.join w j).threads i = some t') : i ≠ j ∧ s.threads i = some t' := by
  by_cases hne : i = j
  · rw [hne] at h
    exact absurd ((Function.update_self ..).symm.trans h) nofun
  · exact ⟨hne, (Function.update_of_ne hne ..).symm.trans h⟩

theorem Placed.join (h : s.Placed n) (hj : s.handle w = some j) : (s.join w j).Placed n := by
  obtain ⟨session, hworker⟩ := (h.handle w j).mp hj
  have hself : (s.join w j).worker j = none := worker_of_none (Function.update_self ..)
  have hother (i : ThreadId) (hi : i ≠ j) : (s.join w j).worker i = s.worker i :=
    congrArg (Option.bind · Thread.worker) (Function.update_of_ne hi ..)
  have hkept (w' : Worker) (i : ThreadId) (h' : (s.join w j).handle w' = some i) : w' ≠ w ∧ s.handle w' = some i := by
    by_cases hw : w' = w
    · rw [hw] at h'
      exact absurd ((Function.update_self ..).symm.trans h') nofun
    · exact ⟨hw, (Function.update_of_ne hw ..).symm.trans h'⟩
  refine ⟨?_, ?_, fun i hi => h.id i (hkept .recording i hi).2⟩
  · intro w' i
    constructor
    · intro hi
      obtain ⟨hw, hi⟩ := hkept w' i hi
      obtain ⟨session', hworker'⟩ := (h.handle w' i).mp hi
      have hne : i ≠ j := by
        rintro rfl
        rw [hworker] at hworker'
        cases hworker'
        exact hw rfl
      exact ⟨session', (hother i hne).trans hworker'⟩
    · intro hex
      obtain ⟨session', hworker'⟩ := hex
      have hne : i ≠ j := by
        rintro rfl
        rw [hself] at hworker'
        cases hworker'
      rw [hother i hne] at hworker'
      have hi := (h.handle w' i).mpr ⟨session', hworker'⟩
      have hw : w' ≠ w := by
        rintro rfl
        exact hne (Option.some.inj (hi.symm.trans hj))
      exact (Function.update_of_ne hw ..).trans hi
  · intro i w' session' hi
    have hne : i ≠ j := by
      rintro rfl
      rw [hself] at hi
      cases hi
    exact h.session i w' session' ((hother i hne).symm.trans hi)

theorem hasEnded_iff : s.hasEnded j = true ↔ ∃ t, s.threads j = some t ∧ t.hasEnded = true := Option.any_eq_true ..

theorem Inv.join {was : Bool} (h : s.Inv) (hi : s.threads i = some t) (hstop : t.stop = some (.joining w was))
    (hj : s.handle w = some j) (hended : s.hasEnded j = true) :
    ((s.join w j).put i (t.afterStop (some (afterJoin was w)))).Inv := by
  obtain ⟨t', ht', hended⟩ := hasEnded_iff.mp hended
  have hne : i ≠ j := by
    rintro rfl
    rw [hi] at ht'
    cases ht'
    rw [Thread.stop_of_hasEnded hended] at hstop
    cases hstop
  have hthreads (x : ThreadId) (t : Thread) (hx : (s.join w j).threads x = some t) : s.threads x = some t :=
    (join_threads hx).2
  have hstep : StopStep s (s.join w j) := by
    refine ⟨⟨rfl, fun _ => id, ?_⟩, rfl, h.placed.join hj, hthreads⟩
    intro w' hw'
    by_cases hw : w' = w
    · exact hw ▸ Function.update_self ..
    · exact (Function.update_of_ne hw ..).trans hw'
  refine h.advance hi hstop hstep ((Function.update_of_ne hne ..).trans hi) ?_ fun _ _ hr => nomatch hr
  refine h.gated_move hi hstop rfl rfl (past_afterJoin was w) hthreads ?_
  intro hholds
  refine hholds.afterJoin hholds.1.join ?_ fun w' hw' => Function.update_of_ne hw' ..
  intro x hx
  exact absurd ((Function.update_self ..).symm.trans hx) nofun

/-- 待つスレッドがないか、自分であるとき。 -/
theorem Inv.skipJoin {was : Bool} (h : s.Inv) (hi : s.threads i = some t) (hstop : t.stop = some (.joining w was))
    (hjoined : ∀ j, s.handle w = some j → w = .recording ∧ j = i) :
    (s.put i (t.afterStop (some (afterJoin was w)))).Inv := by
  refine h.advance hi hstop (Same.stopStep ⟨rfl, rfl, rfl, rfl, rfl, rfl⟩ h.placed rfl) hi ?_ fun _ _ hr => nomatch hr
  exact h.gated_move hi hstop rfl rfl (past_afterJoin was w) (fun _ _ => id)
    fun hholds => hholds.afterJoin hholds.1 hjoined fun _ _ => rfl

/-! ### 片づけ -/

section finalise
variable {part : Part} {parts : List Part}

theorem finalise_of_needs (h : s.needs part = true) : s.finalise part =
    { s with finals := update s.finals (s.started - 1) (s.finals (s.started - 1) ++ [part]) } := if_pos h

theorem finalise_of_not_needs (h : s.needs part = false) : s.finalise part = s := by
  rw [finalise, h]
  rfl

theorem Live.finalise (h : s.Live done) : (s.finalise part).Live (done ++ [part]) := by
  cases hneeds : s.needs part with
  | false =>
      rw [finalise_of_not_needs hneeds]
      refine { h with finals := ?_ }
      rw [h.finals, List.filter_append, List.filter_cons_of_neg (by simp [hneeds]), List.filter_nil, List.append_nil]
  | true =>
      rw [finalise_of_needs hneeds]
      have hold (session : Nat) (hne : session ≠ s.started - 1) :
          update s.finals (s.started - 1) (s.finals (s.started - 1) ++ [part]) session = s.finals session :=
        Function.update_of_ne hne ..
      refine ⟨h.isRecording, h.started, h.needed, ?_, ?_, ?_⟩
      · refine (Function.update_self ..).trans ?_
        change s.finals (s.started - 1) ++ [part] = (done ++ [part]).filter s.needs
        rw [h.finals, List.filter_append, List.filter_cons_of_pos hneeds, List.filter_nil]
      · intro session hlt
        exact (hold session (Nat.ne_of_lt hlt)).trans (h.completed session hlt)
      · intro session hle
        have hpos := h.started
        have hle : s.started ≤ session := hle
        exact (hold session (by omega)).trans (h.future session hle)

/-- 片づけが残っているセッションは、終わっていない。 -/
theorem Live.not_completed (h : s.Live done) (hparts : done ++ part :: parts = Part.all)
    (hneeds : ∃ p ∈ part :: parts, s.needs p) :
    ¬s.Completed (s.started - 1) := by
  intro hcompleted
  rw [Completed, h.finals, h.needed, ← hparts, List.filter_append] at hcompleted
  have hnil := List.self_eq_append_right.mp hcompleted
  obtain ⟨p, hp, hneeds⟩ := hneeds
  exact List.filter_eq_nil_iff.mp hnil p hp hneeds

theorem Live.finalise_completed (h : s.Live done) (hparts : done ++ part :: parts = Part.all)
    (hc : s.Completed session) : (s.finalise part).Completed session := by
  cases hneeds : s.needs part with
  | false => rwa [finalise_of_not_needs hneeds]
  | true =>
      have hne : session ≠ s.started - 1 := by
        rintro rfl
        exact h.not_completed hparts ⟨part, List.mem_cons_self, hneeds⟩ hc
      rw [finalise_of_needs hneeds]
      exact (Function.update_of_ne hne ..).trans hc

theorem finalise_same (part : Part) : (s.finalise part).threads = s.threads ∧ (s.finalise part).handle = s.handle ∧
    (s.finalise part).started = s.started ∧ (s.finalise part).recordingThreadId = s.recordingThreadId ∧
    (s.finalise part).stopInProgress = s.stopInProgress := by
  cases hneeds : s.needs part with
  | false =>
      rw [finalise_of_not_needs hneeds]
      exact ⟨rfl, rfl, rfl, rfl, rfl⟩
  | true =>
      rw [finalise_of_needs hneeds]
      exact ⟨rfl, rfl, rfl, rfl, rfl⟩

theorem Inv.finalise (h : s.Inv) (hi : s.threads i = some t) (hstop : t.stop = some (.finalising (part :: parts))) :
    ((s.finalise part).put i (t.afterStop (some (.finalising parts)))).Inv := by
  obtain ⟨hthreads, hhandle, hstarted, hid, hflag⟩ := finalise_same (s := s) part
  obtain ⟨⟨done, hparts, hlive⟩, hjoined⟩ := h.gated.holds hi ((inside_eq hstop).trans rfl) _ hstop
  have hkept (j : ThreadId) (t : Thread) (hj : (s.finalise part).threads j = some t) : s.threads j = some t := hthreads ▸ hj
  have hstep : StopStep s (s.finalise part) := by
    refine ⟨⟨hstarted, fun _ => hlive.finalise_completed hparts, fun w hw => hhandle ▸ hw⟩, hid, ?_, hkept⟩
    have hworker (j : ThreadId) : (s.finalise part).worker j = s.worker j := by
      rw [worker, hthreads]
      rfl
    refine ⟨fun w j => ?_, fun j w session hj => h.placed.session j w session (hworker j ▸ hj), fun j hj => ?_⟩
    · rw [hhandle, hworker]
      exact h.placed.handle w j
    · exact hid ▸ h.placed.id j (hhandle ▸ hj)
  refine h.advance hi hstop hstep (hthreads ▸ hi) ?_ fun _ _ hr => by cases hr
  refine h.gated_move hi hstop rfl hflag rfl hkept fun _ => ?_
  exact ⟨⟨done ++ [part], (List.append_assoc ..).trans hparts, hlive.finalise⟩,
    ⟨hhandle ▸ hjoined.processing, hhandle ▸ hjoined.recording⟩⟩

end finalise

theorem worker_of_stopping {issued : Nat} (hi : s.threads i = some t) (ht : t = .caller (.stopping issued stop)) :
    s.worker i = none := by
  rw [worker_eq hi, ht]
  rfl

/-- `wasRecording` のときの終わり。 -/
theorem Inv.close (h : s.Inv) (hi : s.threads i = some t) (hstop : t.stop = some (.finalising [])) :
    ({ s with isRecording := false, stopInProgress := false }.put i (t.afterStop none)).Inv := by
  obtain ⟨⟨done, hparts, hlive⟩, hjoined⟩ := h.gated.holds hi ((inside_eq hstop).trans rfl) _ hstop
  rw [List.append_nil] at hparts
  subst hparts
  have hcompleted (session : Nat) (hlt : session < s.started) : s.Completed session := hlive.completed_all hlt
  refine h.advance hi hstop ⟨⟨rfl, fun _ => id, fun _ => id⟩, rfl, ⟨h.placed.handle, h.placed.session, h.placed.id⟩,
    fun _ _ => id⟩ hi ?_ ?_
  · refine h.gated_leave hi hstop rfl rfl (fun _ _ => id) fun _ => .inl ?_
    exact ⟨rfl, hjoined.processing, hcompleted, hlive.future⟩
  · intro issued ht _
    refine .of_quiet (h.stopping i issued _ (hi.trans (congrArg some ht))).1 hcompleted ?_
    exact hjoined.handle_none h.placed (worker_of_stopping hi ht)

/-- `wasRecording` でないときの終わり。 -/
theorem Inv.release (h : s.Inv) (hi : s.threads i = some t) (hstop : t.stop = some .releasing) :
    ({ s with stopInProgress := false }.put i (t.afterStop none)).Inv := by
  obtain ⟨hclosed, hjoined⟩ := h.gated.holds hi ((inside_eq hstop).trans rfl) _ hstop
  have hs : Same s { s with stopInProgress := false } := ⟨rfl, rfl, rfl, rfl, rfl, rfl⟩
  refine h.advance hi hstop (hs.stopStep h.placed rfl) hi ?_ ?_
  · exact h.gated_leave hi hstop rfl rfl (fun _ _ => id) fun _ => .inl (hclosed.congr hs)
  · intro issued ht _
    refine .of_quiet (h.stopping i issued _ (hi.trans (congrArg some ht))).1 hclosed.completed ?_
    exact hjoined.handle_none h.placed (worker_of_stopping hi ht)

/-- 録画のスレッドの番号で先に戻る `stop`。 -/
theorem Inv.answered_early {issued : Nat} (h : s.Inv) (hflag : s.stopInProgress = true)
    (hi : s.threads i = some (.caller (.stopping issued stop))) (hid : s.recordingThreadId = some i)
    (hunused : ∀ j part parts, s.stopOf j ≠ some (.finalising (part :: parts))) : s.Answered issued := by
  obtain ⟨hle, _⟩ := h.stopping i issued stop hi
  -- `i` は外のスレッドなので、録画のスレッドはすでに `join` されている。
  have hnone : s.handle .recording = none := by
    cases hhandle : s.handle .recording with
    | none => rfl
    | some j =>
        have hids := h.placed.id j hhandle
        rw [hid] at hids
        cases hids
        obtain ⟨session, hworker⟩ := (h.placed.handle _ _).mp hhandle
        rw [worker_eq hi] at hworker
        cases hworker
  obtain ⟨j, t, hj, hin, hholds⟩ := h.gated.exists_of_flag hflag
  obtain ⟨stop', hstop, hpast⟩ := inside_iff.mp hin
  have hholds := hholds stop' hstop
  have hquiet (hprocessing : ∀ track, s.handle (.processing track) = none) (w : Worker) : s.handle w = none := by
    cases w with
    | recording => exact hnone
    | processing track => exact hprocessing track
  match stop', hpast, hholds, hstop with
  | .joining w was, _, hholds, _ =>
      have hsome := hholds.2.1
      rw [hnone] at hsome
      cases hsome
  | .finalising (part :: parts), _, _, hstop => exact absurd (by rw [stopOf, hj]; exact hstop) (hunused j part parts)
  | .finalising [], _, hholds, _ =>
      obtain ⟨⟨done, hparts, hlive⟩, hjoined⟩ := hholds
      rw [List.append_nil] at hparts
      subst hparts
      exact .of_quiet hle (fun session => hlive.completed_all) (hquiet hjoined.processing)
  | .releasing, _, hholds, _ => exact .of_quiet hle hholds.1.completed (hquiet hholds.2.processing)

/-- `stop` をしているスレッドの一歩。 -/
theorem Inv.stepStop (h : s.Inv) (hi : s.threads i = some t) (hstop : t.stop = some stop)
    (hunused : ∀ issued, t = .caller (.stopping issued .entering) → s.recordingThreadId = some i →
      ∀ j part parts, s.stopOf j ≠ some (.finalising (part :: parts))) :
    ((s.stepStop i stop).2.put i (t.afterStop (s.stepStop i stop).1)).Inv := by
  cases stop with
  | entering =>
      rw [State.stepStop]
      split
      next hflag =>
        split
        next hid =>
          refine h.outside hi hstop rfl rfl ?_
          intro issued ht _
          subst ht
          exact h.answered_early hflag hi hid (hunused issued rfl hid)
        · exact h.outside hi hstop rfl rfl fun _ _ hr => nomatch hr
      next hflag => exact h.passGate hi hstop rfl (Bool.eq_false_iff.mpr hflag)
  | waiting =>
      rw [State.stepStop]
      split
      · exact h.outside hi hstop rfl rfl fun _ _ hr => nomatch hr
      next hflag => exact h.passGate hi hstop rfl (Bool.eq_false_iff.mpr hflag)
  | joining w was =>
      rw [State.stepStop]
      split
      next hnone =>
        refine h.skipJoin hi hstop ?_
        intro j hj
        rw [hnone] at hj
        cases hj
      next j hj =>
        split
        next hself =>
          refine h.skipJoin hi hstop ?_
          intro j' hj'
          rw [hj] at hj'
          cases hj'
          exact hself
        split
        next hended => exact h.join hi hstop hj hended
        · rw [Thread.afterStop_self hstop, put_self hi]
          exact h
  | finalising parts =>
      cases parts with
      | nil => exact h.close hi hstop
      | cons part parts => exact h.finalise hi hstop
  | releasing => exact h.release hi hstop

/-! ## その他のスレッドの一歩 -/

/-- `stop` をしていないスレッドの一歩。 -/
theorem Inv.put_quiet {t' : Thread} (h : s.Inv) (hi : s.threads i = some t) (hstop : t.stop = none)
    (hworker : t'.worker = t.worker) (hstop' : t'.stop = none) (hstopped : ∀ issued, t' ≠ .caller (.stopped issued)) :
    (s.put i t').Inv := by
  refine h.put (hworker.trans (worker_eq hi).symm) (not_in_of_outside hi (inside_of_stop hstop)) (inside_of_stop hstop')
    ?_ hstopped
  intro issued stop ht
  rw [ht] at hstop'
  cases hstop'

theorem stepRecording_cases (s : State) (env : Env) {phase : Recording} (hstop : (Thread.recording session phase).stop = none) :
    (Thread.recording session (s.stepRecording env phase).1).stop = none ∧
      ((s.stepRecording env phase).2 = s ∨ (s.stepRecording env phase).2 = { s with stopRequested := true }) := by
  cases phase with
  | looping | waiting =>
      refine ⟨?_, .inl rfl⟩
      rw [stepRecording]
      dsimp only
      split <;> rfl
  | checking =>
      rw [stepRecording]
      split
      · split
        · exact ⟨rfl, .inl rfl⟩
        · refine ⟨?_, .inr rfl⟩
          dsimp only
          split <;> rfl
      · exact ⟨rfl, .inl rfl⟩
  | callback | ended => exact ⟨rfl, .inl rfl⟩
  | stopping stop => cases hstop

theorem Inv.stopRequested (h : s.Inv) (requested : Bool) : { s with stopRequested := requested }.Inv :=
  h.quiet ⟨rfl, rfl, rfl, rfl, rfl, rfl⟩ rfl rfl rfl

theorem Inv.stepRecording {env : Env} {phase : Recording} (h : s.Inv)
    (hi : s.threads i = some (.recording session phase)) (hstop : (Thread.recording session phase).stop = none) :
    ((s.stepRecording env phase).2.put i (.recording session (s.stepRecording env phase).1)).Inv := by
  obtain ⟨hstop', hs⟩ := stepRecording_cases s env hstop
  cases hs with
  | inl hs =>
      rw [hs]
      exact h.put_quiet hi hstop rfl hstop' nofun
  | inr hs =>
      rw [hs]
      exact (h.stopRequested true).put_quiet hi hstop rfl hstop' nofun

theorem Inv.resume {env : Env} (h : s.Inv) (hi : s.threads i = some (.caller .resuming)) (hfresh : s.fresh env = true) :
    ((s.resume env).2.put i (.caller (s.resume env).1)).Inv := by
  rw [State.resume]
  split
  · exact h.put_quiet hi rfl rfl rfl nofun
  next hidle =>
    rw [Bool.or_eq_true, Bool.or_eq_true, not_or, not_or, Bool.not_eq_true, Bool.not_eq_true, Bool.not_eq_true,
      Option.isSome_eq_false_iff, Option.isNone_iff_eq_none] at hidle
    obtain ⟨⟨ok, hok⟩, hinv, hkept⟩ := h.openSession hidle.1.1 hidle.1.2 hidle.2 hfresh
    rw [hok]
    exact hinv.put_quiet (hkept i _ hi) rfl rfl rfl nofun

/-- 外のスレッドが `start` を呼ぶ。 -/
theorem Inv.start {env : Env} {phase : Caller} (h : s.Inv) (hi : s.threads i = some (.caller phase))
    (hready : phase.ready = true) (hfresh : s.fresh env = true) :
    ((s.start i env).2.put i (.caller (s.start i env).1)).Inv := by
  have hstop := stop_of_ready hready
  rw [State.start]
  split
  · exact h.put_quiet hi hstop rfl rfl nofun
  next hidle =>
    rw [Bool.or_eq_true, not_or, Bool.not_eq_true, Bool.not_eq_true] at hidle
    split
    · split
      · exact h.put_quiet hi hstop rfl rfl nofun
      · exact h.put (worker_eq hi).symm (not_in_of_outside hi (inside_of_stop hstop)) rfl nofun nofun
    next hnone =>
      rw [Bool.not_eq_true, Option.isSome_eq_false_iff, Option.isNone_iff_eq_none] at hnone
      obtain ⟨⟨ok, hok⟩, hinv, hkept⟩ := h.openSession hidle.1 hidle.2 hnone hfresh
      rw [hok]
      exact hinv.put_quiet (hkept i _ hi) hstop rfl rfl nofun

theorem stepThread_of_stop {env : Env} (hstop : t.stop = some stop) :
    s.stepThread i env t = (t.afterStop (s.stepStop i stop).1, (s.stepStop i stop).2) := by
  unfold State.stepThread
  split
  next stop' hstop' =>
    rw [hstop] at hstop'
    cases hstop'
    rfl
  next hnone =>
    rw [hstop] at hnone
    cases hnone

/-- スレッド `i` の一歩。 -/
theorem Inv.stepThread {env : Env} (h : s.Inv) (hi : s.threads i = some t)
    (hunused : ∀ issued, t = .caller (.stopping issued .entering) → s.recordingThreadId = some i →
      ∀ j part parts, s.stopOf j ≠ some (.finalising (part :: parts))) :
    ((s.stepThread i env t).2.put i (s.stepThread i env t).1).Inv := by
  unfold State.stepThread
  split
  next stop hstop => exact h.stepStop hi hstop hunused
  next hstop =>
    have hself : (s.put i t).Inv := by rwa [put_self hi]
    split
    · split
      next hfresh => exact h.resume hi hfresh
      · exact hself
    · exact hself
    next session phase => exact h.stepRecording hi hstop
    next track session ended => exact h.put_quiet hi hstop rfl rfl nofun

end stop

end State

end RtcEgress.Sink.RecordingSink
