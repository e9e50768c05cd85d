import RtcEgress.Queue.AgeScan

/-!
# 終わった状態を書く操作の後始末

終わった状態は `UpdateTaskResult` と `checkAndTimeoutEnqueuedTask` の二つが書く。どちらの後でも、記録に完了の時刻があり、
重複排除のキーがそのタスクを指さないか、を調べる。
-/

namespace RtcEgress.Queue

open RtcEgress.Lib

/-- 終わった状態を書く操作。 -/
inductive TerminalWrite where
  | result (state : TaskState) (message : String) (terminal : state.isTerminal = true)
  | aged (queue : String)

namespace TerminalWrite

def body (id : String) : TerminalWrite → P Unit
  | .result state message _ => do let _ ← updateTaskResult id state message
  | .aged queue => checkAndTimeoutEnqueuedTask id queue

/-- `UpdateTaskResult` は記録があれば必ず書き、時間切れの点検は期限を過ぎたときだけ書く。 -/
def Wrote (id : String) (w w' : World) : TerminalWrite → Prop
  | .result .. => (w.task id).isSome
  | .aged _ => w'.task id ≠ w.task id

def isResult : TerminalWrite → Bool
  | .result .. => true
  | .aged _ => false

end TerminalWrite

/-- 記録に完了の時刻があり、その要求の重複排除のキーがこのタスクを指さない。 -/
def Completed (w : World) (id : String) : Prop :=
  ∃ t, w.task id = some t ∧ t.completedAt.isSome ∧ w.dedupe t.dedupeKey ≠ some id

section

variable {id queue : String} {w w' : World} {t : Task}

/-- 重複排除のキーに触れない命令。 -/
def Cmd.KeepsDedupe : Cmd → Prop
  | .publishTx _ _ | .delDedupe _ _ => False
  | _ => True

theorem follows_checkAndTimeout {h : Acts} :
    (checkAndTimeoutEnqueuedTask id queue).Follows (fun c _ => c.KeepsDedupe) (fun _ _ => True) h := by
  refine .perform trivial fun watched => ?_
  refine .perform trivial fun found => ?_
  cases found with
  | none => exact ⟨trivial, fun _ => trivial⟩
  | some task =>
      refine .ite (fun _ => trivial) fun _ => ?_
      refine .perform trivial fun now => ?_
      refine .ite (fun _ => trivial) fun _ => ?_
      refine .perform trivial fun position => ?_
      cases position with
      | none => trivial
      | some n => exact .perform trivial fun _ => trivial

/-- 点検は、重複排除のキーに触れない。 -/
theorem checkAndTimeout_dedupe (h : Alone machine (checkAndTimeoutEnqueuedTask id queue) w () w') :
    w'.dedupe = w.dedupe := by
  refine Alone.keeps (I := fun x : World => x.dedupe = w.dedupe) ?_ ?_ (follows_checkAndTimeout (h := [])) rfl h
  · intro o c s r s' hc hs hexec
    obtain ⟨-, rfl⟩ := exec_eq hexec
    funext x
    rw [effect_dedupe, ← hs]
    cases c <;> first | rfl | exact hc.elim
  · intro e s s' hs he
    obtain ⟨d, rfl⟩ | ⟨_, _, _, _, rfl⟩ := env_cases he <;> exact hs

/-- `UpdateTaskResult` は、完了の時刻を入れ、重複排除のキーを消す。 -/
theorem completed_of_result {state : TaskState} {message : String} (hterm : state.isTerminal = true)
    (ht : w.task id = some t) (h : Alone machine ((TerminalWrite.result state message hterm).body id) w () w') :
    Completed w' id := by
  obtain ⟨done, wx, h, hret⟩ := Alone.bind_inv _ h
  obtain ⟨-, rfl⟩ := Alone.ret_inv hret
  obtain ⟨_, found, w₁, h₁, hfound, h⟩ := call_alone h
  obtain rfl : some t = found := by simpa [Cmd.reply, h₁.task, ht] using hfound
  obtain ⟨_, now, w₂, h₂, -, h⟩ := call_alone h
  obtain ⟨_, _, w₃, h₃, -, h⟩ := call_alone h
  simp only [hterm, if_true] at h
  obtain ⟨_, _, w₄, h₄, -, h⟩ := call_alone h
  obtain ⟨-, rfl⟩ := Alone.ret_inv h
  refine ⟨t.withResult state message now, ?_, ?_, ?_⟩
  · rw [effect_task, h₄.task]
    simp [effect_task, Cmd.written]
  · simp [Task.withResult, hterm]
  · have hkey : (t.withResult state message now).dedupeKey = t.dedupeKey := rfl
    rw [effect_dedupe]
    simp [hkey]

/-- 時間切れの点検は、完了の時刻も重複排除のキーも、もとのままにする。 -/
theorem completed_iff_of_aged (ht : w.task id = some t)
    (h : Alone machine (checkAndTimeoutEnqueuedTask id queue) w () w') (hw : w'.task id ≠ w.task id) :
    Completed w' id ↔ t.completedAt.isSome ∧ w.dedupe t.dedupeKey ≠ some id := by
  have hdedupe := checkAndTimeout_dedupe h
  cases checkAndTimeout_alone h with
  | gone hnone => simp [hnone] at ht
  | kept _ _ hs => exact absurd (congrFun hs.task id) hw
  | @timedOut wx t' age ht' _ _ _ hs =>
      obtain rfl := Option.some.inj (ht.symm.trans ht')
      have hafter : w'.task id = some (t.timedOut age) := by
        rw [hs.task]
        simp [World.lrem, World.setList, World.setTask]
      have hkey : (t.timedOut age).dedupeKey = t.dedupeKey := rfl
      have hdone : (t.timedOut age).completedAt = t.completedAt := rfl
      simp [Completed, hafter, hkey, hdone, hdedupe]

/-- 終わった状態を書いた後に後始末が済んでいるのは、`UpdateTaskResult` が書いたときか、すでに済んでいたときである。 -/
theorem completed_iff {op : TerminalWrite} (ht : w.task id = some t) (h : Alone machine (op.body id) w () w')
    (hw : op.Wrote id w w') :
    Completed w' id ↔ op.isResult = true ∨ (t.completedAt.isSome ∧ w.dedupe t.dedupeKey ≠ some id) := by
  cases op with
  | result state message hterm =>
      have hdone := completed_of_result hterm ht h
      simp [hdone, TerminalWrite.isResult]
  | aged queue =>
      rw [completed_iff_of_aged ht h hw]
      simp [TerminalWrite.isResult]

end

/-- 公開から三十一秒たった録画。 -/
def publishAndWait : List (Move machine) :=
  begin (.publish "record" "start" "channel:1" "r1" none "") ++
    advance 0 1 ++ advanceWith 0 { text := "a" } ++ advance 0 2 ++ [.env (.tick (31 * second))]

/-- 停止を記録した後は、同じ要求を公開できる。 -/
theorem stopped_completed : ∃ p w', Run entries (.start .init) p ∧
    Alone machine ((TerminalWrite.result .stopped "" rfl).body "a") p.state () w' ∧ Completed w' "a" := by
  have hplay : (Pool.play publishAndWait (.start .init)).map (fun p => (p.state.task "a").isSome) = some true := by
    decide
  obtain ⟨p, hp, hsome⟩ := Option.map_eq_some_iff.mp hplay
  obtain ⟨t, ht⟩ := Option.isSome_iff_exists.mp hsome
  obtain ⟨_, w', h⟩ := Alone.exists_of_total (M := machine) exec_total
    ((TerminalWrite.result .stopped "" rfl).body "a") p.state
  have hdone := (completed_iff ht h (by simp [TerminalWrite.Wrote, ht])).mpr (.inl rfl)
  exact ⟨p, w', Pool.play_sound (Pool.allMeet_ofCalls (by decide)) hp, h, hdone⟩

/-- 時間切れになった録画には完了の時刻がなく、重複排除のキーがそれを指したままである。 -/
theorem not_completed : ¬∀ (p : Pool machine) (op : TerminalWrite) (id : String) (w' : World),
    Run entries (.start .init) p → Alone machine (op.body id) p.state () w' → op.Wrote id p.state w' →
    Completed w' id := by
  intro h
  have hplay : (Pool.play publishAndWait (.start .init)).bind (fun p =>
      ((checkAndTimeoutEnqueuedTask "a" "egress:record:channel:1").evaluate machine {} p.state).map fun (_, _, w') =>
        ((p.state.task "a").map Task.state, (w'.task "a").map fun t => (t.state, t.completedAt, w'.dedupe t.dedupeKey))) =
      some (some .enqueued, some (.timeout, none, some "a")) := by
    decide
  obtain ⟨p, hp, hmap⟩ := Option.bind_eq_some_iff.mp hplay
  obtain ⟨⟨_, _, w'⟩, hw', heq⟩ := Option.map_eq_some_iff.mp hmap
  obtain ⟨hbefore, hafter⟩ := Prod.mk.inj heq
  obtain ⟨t, ht, hfields⟩ := Option.map_eq_some_iff.mp hafter
  obtain ⟨hstate, hdone, -⟩ : t.state = .timeout ∧ t.completedAt = none ∧ w'.dedupe t.dedupeKey = some "a" := by
    simpa using hfields
  have hwrote : w'.task "a" ≠ p.state.task "a" := by
    intro hsame
    rw [← hsame, ht, Option.map_some, hstate] at hbefore
    cases hbefore
  obtain ⟨t', ht', hsome, -⟩ := h p (.aged "egress:record:channel:1") "a" w'
    (Pool.play_sound (Pool.allMeet_ofCalls (by decide)) hp) (Traced.of_evaluate hw').alone hwrote
  obtain rfl := Option.some.inj (ht.symm.trans ht')
  rw [hdone] at hsome
  cases hsome

end RtcEgress.Queue
