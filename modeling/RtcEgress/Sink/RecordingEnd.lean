import RtcEgress.Sink.RecordingStop

/-!
# 録画のセッションの終わり

始まったセッションは、`stop` がちょうど一度だけ片づけるはずである。`stop` は、進行中の `stop` があるとき、呼び出したスレッドが
録画のスレッドならば待たずに戻る。その番号は録画のスレッドを `join` した後も残るので、番号を引き継いだ外のスレッドも、
片づけの終わりを待たない。
-/

namespace RtcEgress.Sink.RecordingSink

open RtcEgress.Lib
open Function (update)

namespace State

/-- スレッド `i` が `join` しようとするスレッド。 -/
def joins (s : State) (i : ThreadId) : Stop → Option ThreadId
  | .joining w _ => if w = .recording ∧ s.handle w = some i then none else s.handle w
  | _ => none

/-- セッションの片づけは済んでいる。 -/
def Final (s : State) (session : Nat) : Prop := ∀ part, s.needed session part = true → part ∈ s.finals session

/-- セッションは、一度だけ片づけられ、互いに重ならない。 -/
structure Finalised (s : State) : Prop where
  once : ∀ session part, (s.finals session).count part ≤ 1
  /-- 外からの `stop` から戻ると、呼ぶ前に始まったセッションの片づけは済んでいる。 -/
  final : ∀ i issued, s.threads i = some (.caller (.stopped issued)) → ∀ session < issued, s.Final session
  /-- そのスレッドも残っていない。 -/
  joined : ∀ i issued, s.threads i = some (.caller (.stopped issued)) →
    ∀ j w session, s.worker j = some (w, session) → issued ≤ session
  /-- 自分を `join` するスレッドはない。 -/
  noSelfJoin : ∀ i stop, s.stopOf i = some stop → s.joins i stop ≠ some i
  /-- 旗を立てた `stop` は、高々一つである。 -/
  exclusive : ∀ i j stop stop', s.stopOf i = some stop → s.stopOf j = some stop' → stop.past = true → stop'.past = true → i = j
  /-- セッションのスレッドは、一つのセッションのものであり、種類ごとに一つである。 -/
  alone : ∀ i j w w' session session', s.worker i = some (w, session) → s.worker j = some (w', session') →
    session = session' ∧ (w = w' → i = j)
  /-- 次のセッションが始まる前に、片づけは済んでいる。 -/
  previous : ∀ session, session + 1 < s.started → s.Final session

end State

/-- 条件 `g` を満たす操作だけで到達できる状態では、セッションは一度だけ片づけられている。 -/
def FinalisedOnce (i : ThreadId) (g : sink.Condition) : Prop :=
  ∀ s : State, sink.Reach g (created i) s → s.Finalised

/-- 条件 `g` を満たさない一歩は、どれも性質を破る。 -/
def Exact (i : ThreadId) (g : sink.Condition) : Prop :=
  ∀ s : State, sink.Reach g (created i) s → ∀ op, (s.step op).Finalised ↔ g op s

/-! ## 成り立たない列 -/

/-- 番号 `0` のスレッドの `stop` が録画のスレッド `1` を `join` した後、新しいスレッドが番号 `1` を引き継いで `stop` を呼ぶ。 -/
def stopWithReusedId : List Op :=
  let env : Env := { ids := fun | .recording => 1 | .processing .audio => 2 | .processing .video => 3 }
  [.initializeSink 0 {} {}, .start 0 env, .stop 0, .run 0 env, .run 2 env, .run 0 env, .run 3 env, .run 0 env, .run 1 env,
    .run 0 env, .create 1, .stop 1, .run 1 env]

theorem not_finalisedOnce : ¬∀ i, FinalisedOnce i fun _ _ => True := by
  intro h
  have hmeet : sink.AllMeet (fun _ _ => True) stopWithReusedId (created 0) :=
    System.allMeet_of_forall (fun _ _ => trivial) _ _
  have hfinalised : State.Finalised (sink.run stopWithReusedId (created 0)) := h 0 _ (System.reach_run hmeet)
  exact absurd (hfinalised.final 1 1 rfl 0 Nat.one_pos .encoders rfl) List.not_mem_nil

/-! ## 成り立つ条件 -/

/-- 録画のスレッドの番号を引き継いだ外のスレッドが、片づけの途中に `stop` に入ることはない。 -/
def unreused : sink.Condition
  | .run i _, s => ∀ issued, s.threads i = some (.caller (.stopping issued .entering)) → s.recordingThreadId = some i →
      ∀ j part parts, s.stopOf j ≠ some (.finalising (part :: parts))
  | _, _ => True

namespace State

variable {s : State} {i j : ThreadId} {session : Nat} {w : Worker}

/-! ### 不変条件の保存 -/

theorem created_threads {t : Thread} (h : (created i).threads j = some t) : t = .caller .idle := by
  change update (fun _ => none) i (some (Thread.caller .idle)) j = some t at h
  by_cases hj : j = i
  · rw [hj, Function.update_self] at h
    exact (Option.some.inj h).symm
  · rw [Function.update_of_ne hj] at h
    cases h

theorem inv_created (i : ThreadId) : (created i).Inv where
  placed := by
    have hworker (j : ThreadId) : (created i).worker j = none := by
      cases hj : (created i).threads j with
      | none => exact worker_of_none hj
      | some t =>
          rw [worker_eq hj, created_threads hj]
          rfl
    refine ⟨fun w j => ⟨nofun, ?_⟩, ?_, nofun⟩
    · intro hex
      obtain ⟨session, hj⟩ := hex
      rw [hworker] at hj
      cases hj
    · intro j w session hj
      rw [hworker] at hj
      cases hj
  gated := by
    refine .rest rfl ?_ (.inl ⟨rfl, fun _ => rfl, fun _ hlt => absurd hlt (Nat.not_lt_zero _), fun _ _ => rfl⟩)
    intro j hin
    obtain ⟨t, ht, hinside⟩ := hin
    rw [created_threads ht] at hinside
    cases hinside
  stopping j issued stop hj := nomatch created_threads hj
  stopped j issued hj := nomatch created_threads hj

theorem Inv.step (h : s.Inv) {op : Op} (hg : unreused op s) : (s.step op).Inv := by
  cases op with
  | create i =>
      rw [State.step]
      split
      next hnone =>
        rw [Option.isNone_iff_eq_none] at hnone
        exact h.put (worker_of_none hnone).symm (not_in_of_none hnone) rfl nofun nofun
      · exact h
  | exit i =>
      rw [State.step]
      split
      next hready =>
        obtain ⟨phase, hi, hready⟩ := ready_iff.mp hready
        exact h.update ⟨rfl, rfl, rfl, rfl, rfl, rfl⟩ rfl rfl rfl (worker_eq hi).symm
          (not_in_of_outside hi (inside_of_stop (stop_of_ready hready))) nofun nofun nofun
      · exact h
  | setCompletionCallback registered => exact h.quiet ⟨rfl, rfl, rfl, rfl, rfl, rfl⟩ rfl rfl rfl
  | initializeSink i config setup =>
      rw [State.step]
      split
      next hready =>
        obtain ⟨phase, hi, hready⟩ := ready_iff.mp hready
        obtain ⟨hinv, hthreads⟩ := h.initializeSink config setup
        exact hinv.put_quiet (hthreads ▸ hi) (stop_of_ready hready) rfl rfl nofun
      · exact h
  | start i env =>
      rw [State.step]
      split
      next hready =>
        rw [Bool.and_eq_true] at hready
        obtain ⟨phase, hi, hphase⟩ := ready_iff.mp hready.1
        exact h.start hi hphase hready.2
      · exact h
  | stop i =>
      rw [State.step]
      split
      next phase hi =>
        split
        next hready =>
          refine h.put (worker_eq hi).symm (not_in_of_outside hi (inside_of_stop (stop_of_ready hready))) rfl ?_ nofun
          intro issued stop ht
          cases ht
          exact ⟨Nat.le_refl _, fun _ => rfl⟩
        · exact h
      next session hi => exact h.put (worker_eq hi).symm (not_in_of_outside hi rfl) rfl nofun nofun
      · exact h
  | run i env =>
      rw [State.step]
      split
      · exact h
      next t hi =>
        refine h.stepThread hi ?_
        intro issued ht
        exact hg issued (hi.trans (congrArg some ht))

/-! ### 不変条件からの帰結 -/

theorem Completed.final (h : s.Completed session) : s.Final session := by
  intro part hneeded
  rw [h]
  exact List.mem_filter.mpr ⟨by cases part <;> decide, hneeded⟩

/-- 最後のセッションを録画しているか、どのセッションも終わっている。 -/
theorem Inv.ledger (h : s.Inv) : s.Closed ∨ ∃ done, s.Live done ∧ done.Sublist Part.all := by
  have hentered (was : Bool) (h : s.Entered was) : s.Closed ∨ ∃ done, s.Live done ∧ done.Sublist Part.all := by
    cases was with
    | true => exact .inr ⟨[], h, List.nil_sublist _⟩
    | false => exact .inl h
  cases hflag : s.stopInProgress with
  | false => exact hentered _ (h.rest hflag).entered
  | true =>
      obtain ⟨i, t, _, hin, hholds⟩ := h.gated.exists_of_flag hflag
      obtain ⟨stop, hstop, hpast⟩ := inside_iff.mp hin
      match stop, hpast, hholds stop hstop with
      | .joining w was, _, hholds => exact hentered was hholds.1
      | .finalising parts, _, hholds =>
          obtain ⟨⟨done, hparts, hlive⟩, _⟩ := hholds
          exact .inr ⟨done, hlive, hparts ▸ List.sublist_append_left ..⟩
      | .releasing, _, hholds => exact .inl hholds.1

theorem Inv.completed (h : s.Inv) (hlt : session + 1 < s.started) : s.Completed session := by
  cases h.ledger with
  | inl hclosed => exact hclosed.completed session (by omega)
  | inr hlive =>
      obtain ⟨done, hlive, _⟩ := hlive
      exact hlive.completed session (by omega)

/-- 行った片づけは、順に並んだものの一部である。 -/
theorem Inv.finals_sublist (h : s.Inv) (session : Nat) : (s.finals session).Sublist Part.all := by
  have hcompleted (h : s.Completed session) : (s.finals session).Sublist Part.all := by
    rw [h]
    exact List.filter_sublist
  have hfuture (h : s.finals session = []) : (s.finals session).Sublist Part.all := h ▸ List.nil_sublist _
  cases h.ledger with
  | inl hclosed =>
      by_cases hlt : session < s.started
      · exact hcompleted (hclosed.completed session hlt)
      · exact hfuture (hclosed.future session (Nat.le_of_not_lt hlt))
  | inr hlive =>
      obtain ⟨done, hlive, hdone⟩ := hlive
      by_cases hlt : session < s.started - 1
      · exact hcompleted (hlive.completed session hlt)
      by_cases hlast : session = s.started - 1
      · rw [hlast, hlive.finals]
        exact List.filter_sublist.trans hdone
      · exact hfuture (hlive.future session (by omega))

theorem part_nodup : Part.all.Nodup := by decide

theorem Inv.noSelfJoin {stop : Stop} (h : s.Inv) (hstop : s.stopOf i = some stop) : s.joins i stop ≠ some i := by
  obtain ⟨t, hi, ht⟩ := Option.bind_eq_some_iff.mp hstop
  cases stop with
  | joining w was =>
      rw [joins]
      split
      · nofun
      next hother =>
        intro hhandle
        obtain ⟨session, hworker⟩ := (h.placed.handle w i).mp hhandle
        rw [worker_eq hi] at hworker
        rcases Thread.stop_cases ht with rfl | ⟨issued, rfl⟩ | ⟨session', rfl⟩
        · cases hworker
        · cases hworker
        · cases hworker
          exact hother ⟨rfl, hhandle⟩
  | entering | waiting | finalising | releasing => nofun

theorem Inv.finalised (h : s.Inv) : s.Finalised where
  once session part :=
    Nat.le_trans ((h.finals_sublist session).count_le part) (List.nodup_iff_count_le_one.mp part_nodup part)
  final i issued hi session hlt := ((h.stopped i issued hi).completed session hlt).final
  joined i issued hi j w session hj := by
    have hlast := h.placed.session j w session hj
    cases (h.stopped i issued hi).started with
    | inl hlt => omega
    | inr hquiet =>
        have hhandle := (h.placed.handle w j).mpr ⟨session, hj⟩
        rw [hquiet.2 w] at hhandle
        cases hhandle
  noSelfJoin i stop := h.noSelfJoin
  exclusive i j stop stop' hi hj hpast hpast' := h.gated.unique (in_iff.mpr ⟨stop, hi, hpast⟩) (in_iff.mpr ⟨stop', hj, hpast'⟩)
  alone i j w w' session session' hi hj := by
    have hsession := h.placed.session i w session hi
    have hsession' := h.placed.session j w' session' hj
    refine ⟨by omega, ?_⟩
    rintro rfl
    have hhandle := (h.placed.handle w i).mpr ⟨session, hi⟩
    rw [(h.placed.handle w j).mpr ⟨session', hj⟩] at hhandle
    exact (Option.some.inj hhandle).symm
  previous session hlt := (h.completed hlt).final

/-- 片づけの途中では、最後の段階を行っていない。 -/
theorem Live.not_final {done : List Part} {part : Part} {parts : List Part} (h : s.Live done)
    (hparts : done ++ part :: parts = Part.all) : ¬s.Final (s.started - 1) := by
  intro hfinal
  have hlast : (part :: parts).getLast? = some .queues := by
    rw [← List.getLast?_append_cons done, hparts]
    rfl
  have hqueues : Part.queues ∈ s.finals (s.started - 1) := hfinal .queues (by rw [h.needed]; rfl)
  rw [h.finals] at hqueues
  have hdisjoint := List.disjoint_of_nodup_append (hparts ▸ part_nodup)
  exact hdisjoint (List.mem_filter.mp hqueues).1 (List.mem_of_getLast? hlast)

/-- 条件を満たさない一歩の後では、外からの `stop` から戻ったのに、片づけは済んでいない。 -/
theorem Inv.unreused_of_finalised (h : s.Inv) {op : Op} (hfinalised : (s.step op).Finalised) : unreused op s := by
  cases op with
  | run i env =>
      intro issued hi hid j part parts hstop
      obtain ⟨t, hj, ht⟩ := Option.bind_eq_some_iff.mp hstop
      have hinside : gate.inside t = true := inside_iff.mpr ⟨_, ht, rfl⟩
      have hflag : s.stopInProgress = true := h.gated.flag_of_in ⟨t, hj, hinside⟩
      have hstep : s.step (.run i env) = s.put i (.caller (.stopped issued)) := by
        have hearly : s.stepStop i .entering = (none, s) := by
          rw [State.stepStop, if_pos hflag, if_pos hid]
        have hthread : (Thread.caller (.stopping issued .entering)).stop = some .entering := rfl
        simp only [State.step, hi, stepThread_of_stop hthread, hearly]
        rfl
      obtain ⟨⟨done, hparts, hlive⟩, _⟩ := h.gated.holds hj hinside _ ht
      have hissued := (h.stopping i issued _ hi).2 hid
      rw [hstep] at hfinalised
      have hfinal := hfinalised.final i issued put_threads (s.started - 1) (by have hpos := hlive.started; omega)
      exact hlive.not_final hparts hfinal
  | create | exit | setCompletionCallback | initializeSink | start | stop => trivial

end State

theorem finalisedOnce_of_unreused (i : ThreadId) : FinalisedOnce i unreused ∧ Exact i unreused := by
  have hinv (s : State) (hreach : sink.Reach unreused (created i) s) : s.Inv :=
    hreach.invariant (I := State.Inv) (State.inv_created i) fun op s h hg => h.step hg
  constructor
  · intro s hreach
    exact (hinv s hreach).finalised
  · intro s hreach op
    constructor
    · exact (hinv s hreach).unreused_of_finalised
    · intro hg
      exact ((hinv s hreach).step hg).finalised

/-- 外の二つのスレッド `0` と `4` が、続けて `stop` を呼ぶ。 -/
def stopTwice : List Op :=
  let env : Env := { ids := fun | .recording => 1 | .processing .audio => 2 | .processing .video => 3 }
  [.create 4, .initializeSink 0 {} {}, .start 0 env, .stop 0, .run 0 env, .stop 4, .run 4 env, .run 2 env, .run 0 env,
    .run 3 env, .run 0 env, .run 1 env] ++ List.replicate 7 (.run 0 env) ++ [.run 4 env]

theorem stopTwice_finalised : ∃ s : State, sink.Reach unreused (created 0) s ∧
    s.threads 0 = some (.caller (.stopped 1)) ∧ s.threads 4 = some (.caller (.stopped 1)) ∧
      s.Finalised ∧ ∀ op, (s.step op).Finalised ↔ unreused op s := by
  have hmeet : sink.AllMeet unreused stopTwice (created 0) := by
    refine ⟨trivial, trivial, trivial, trivial, ?_, trivial, ?_, ?_, ?_, ?_, ?_, ?_, ?_, ?_, ?_, ?_, ?_, ?_, ?_, ?_, trivial⟩
    -- 番号 `1` で動くのは、録画のスレッドだけである。
    case refine_7 => exact fun _ hi => by cases hi
    all_goals exact fun _ _ hid => by cases hid
  have hreach := System.reach_run hmeet
  obtain ⟨hfinalised, hexact⟩ := finalisedOnce_of_unreused 0
  exact ⟨_, hreach, rfl, rfl, hfinalised _ hreach, hexact _ hreach⟩

end RtcEgress.Sink.RecordingSink
