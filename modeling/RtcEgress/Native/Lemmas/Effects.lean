import RtcEgress.Native.Lemmas.Keeps

/-!
# ロックが空いているときの処理

どのロックも持たれていなければ、送信に成功するかぎり、どの処理も終わる。終わったときの状態を、処理ごとに述べる。
-/

namespace RtcEgress.Native

open RtcEgress.Lib

def Unlocked (m : WorkerManager) : Prop := m.held = fun _ => false

variable {identity : String → TaskIdentity} {m : WorkerManager}

/-- 処理は終わり、結果は `Q` を満たす。 -/
abbrev Finishes {α : Type} (a : M α) (Q : α → WorkerManager → Prop) (m : WorkerManager) : Prop := a.Ends (fun _ => False) Q m

theorem update_held (h : Unlocked m) (x : Mutex) :
    Function.update (Function.update m.held x true) x false = m.held := by
  rw [Function.update_idem, Function.update_eq_self_iff, h]

/-- ロックの中での書き換え。 -/
theorem finishes_locked (h : Unlocked m) {x : Mutex} {f : WorkerManager → WorkerManager}
    (hf : ∀ held, f { m with held } = { f m with held }) :
    Finishes (do lock x; Action.modify f; unlock x) (fun _ m' => m' = f m) m := by
  simp only [Action.ends_bind, ends_lock, Action.ends_modify, ends_unlock]
  constructor
  · intro hx
    simp [congrFun h x] at hx
  · intro _
    rw [hf, update_held h]
    exact (hf m.held).symm

theorem finishes_untrack (h : Unlocked m) (taskID : String) :
    Finishes (untrack taskID) (fun _ m' => m' = { m with activeTasks := m.activeTasks.erase taskID }) m :=
  finishes_locked h fun _ => rfl

theorem finishes_track (h : Unlocked m) (taskID : String) :
    Finishes (track taskID) (fun _ m' => m' = { m with activeTasks := m.activeTasks.insert taskID m.podID }) m :=
  finishes_locked h fun _ => rfl

theorem finishes_removeTaskFromChannel (h : Unlocked m) (channel cmd taskID : String) (o : Outcome) :
    Finishes (removeTaskFromChannel channel cmd taskID o)
      (fun _ m' => m' = m.withTables fun t => t.removeTask channel cmd taskID o.pickWorker) m :=
  finishes_locked h fun _ => rfl

theorem Finishes.mono {α : Type} {a : M α} {Q R : α → WorkerManager → Prop} (ha : Finishes a Q m)
    (h : ∀ x m', Q x m' → R x m') : Finishes a R m := Action.Ends.mono ha (fun _ h => h) h

/-- 処理をつなぐ。 -/
theorem Finishes.bind {α β : Type} {a : M α} {f : α → M β} {Q : α → WorkerManager → Prop} {R : β → WorkerManager → Prop}
    (ha : Finishes a Q m) (hf : ∀ x m', Q x m' → Finishes (f x) R m') : Finishes (a >>= f) R m := by
  rw [Finishes, Action.ends_bind]
  exact Action.Ends.mono ha (fun _ h => h) hf

theorem finishes_cleanupStoppedTask (h : Unlocked m) (channel cmd taskID : String) (o : Outcome) :
    Finishes (cleanupStoppedTask channel cmd taskID o) (fun _ m' => m' =
      { m with
        tables := m.tables.removeTask channel cmd taskID o.pickWorker
        activeTasks := m.activeTasks.erase taskID }) m := by
  apply (finishes_removeTaskFromChannel h channel cmd taskID o).bind
  rintro _ _ rfl
  exact finishes_untrack (m := m.withTables _) h taskID

/-! ## 完了 -/

/-- 完了したタスクを、見つかれば表から除く。 -/
def WorkerManager.withoutCompleted (m : WorkerManager) (workerID : Nat) (taskID : String) (o : Outcome) : WorkerManager :=
  match (m.locate workerID taskID o).filter fun x => x.1 ≠ "" ∧ x.2 ≠ "" with
  | some (channel, cmd) => m.withTables fun t => t.removeTask channel cmd taskID o.pickWorker
  | none => m

theorem setState_held (held : Mutex → Bool) (workerID generation : Nat) (state : WorkerState) :
    { m with held }.setState workerID generation state = { m.setState workerID generation state with held } := by
  have hworker : { m with held }.worker workerID = m.worker workerID := rfl
  unfold WorkerManager.setState
  rw [hworker]
  split
  · split <;> rfl
  · rfl

theorem held_setState (workerID generation : Nat) (state : WorkerState) :
    (m.setState workerID generation state).held = m.held := by
  unfold WorkerManager.setState
  split
  · split <;> rfl
  · rfl

/-- ロックの中で状態を書いてから放す。 -/
theorem unlock_setState (h : Unlocked m) (workerID generation : Nat) (state : WorkerState) :
    let locked := { m with held := Function.update m.held .manager true }.setState workerID generation state
    { locked with held := Function.update locked.held .manager false } = m.setState workerID generation state := by
  dsimp only
  rw [setState_held]
  dsimp only
  rw [update_held h, ← held_setState workerID generation state]

theorem finishes_releaseCompleted (h : Unlocked m) (workerID generation : Nat) (taskID : String) (o : Outcome) :
    Finishes (releaseCompleted workerID generation taskID o) (fun _ m' => ∃ released : WorkerManager,
      released = { m with activeTasks := m.activeTasks.erase taskID }.withoutCompleted workerID taskID o ∧
      m' = released.setState workerID generation (released.stateAfter workerID)) m := by
  have hstate (released : WorkerManager) (hr : Unlocked released) :
      Finishes (do
        lock .manager
        Action.modify fun m => m.setState workerID generation (m.stateAfter workerID)
        unlock .manager) (fun _ m' => m' = released.setState workerID generation (released.stateAfter workerID)) released :=
    finishes_locked hr fun held => setState_held held workerID generation _
  apply (finishes_untrack h taskID).bind
  rintro _ m₁ rfl
  simp only [Action.ends_bind, ends_lock, Action.ends_get, ends_unlock, Finishes]
  constructor
  · intro hx
    simp [congrFun h Mutex.manager] at hx
  · intro _
    rw [update_held h]
    have hlocate : { m with
        activeTasks := m.activeTasks.erase taskID
        held := Function.update m.held .manager true }.locate workerID taskID o =
        { m with activeTasks := m.activeTasks.erase taskID }.locate workerID taskID o := rfl
    rw [hlocate]
    unfold WorkerManager.withoutCompleted
    generalize Option.filter _ _ = found
    rcases found with _ | ⟨channel, cmd⟩
    · apply (hstate _ _).mono
      · rintro _ _ rfl
        exact ⟨_, rfl, rfl⟩
      · exact h
    · apply Finishes.bind (finishes_removeTaskFromChannel
        (m := { m with activeTasks := m.activeTasks.erase taskID }) h channel cmd taskID o)
      rintro _ _ rfl
      apply (hstate _ _).mono
      · rintro _ _ rfl
        exact ⟨_, rfl, rfl⟩
      · exact h

/-! ## 失敗 -/

/-- 失敗の後始末が、割り当ての表に届く。 -/
def WorkerManager.FailReaches (m : WorkerManager) (taskID : String) (workerID : Int) : Prop :=
  m.activeTasks.lookup ("failing:" ++ taskID) = none ∧
    0 ≤ workerID ∧ workerID < m.workers.length ∧ (m.worker workerID.toNat).isSome

instance {taskID : String} {workerID : Int} : Decidable (m.FailReaches taskID workerID) :=
  inferInstanceAs (Decidable (_ ∧ _ ∧ _ ∧ _))

/-- 処理は、ワーカーとロックを変えず、割り当ての表を `t` にする。 -/
def Leaves (m : WorkerManager) (t : Tables) (m' : WorkerManager) : Prop :=
  m'.held = m.held ∧ m'.workers = m.workers ∧ m'.tables = t

variable (identity) in
theorem finishes_failTask (h : Unlocked m) (taskID : String) (workerID : Int) (o : Outcome) :
    Finishes (failTask identity taskID workerID o) (fun _ => Leaves m (if m.FailReaches taskID workerID then
      m.tables.removeTask (identity taskID).channel (identity taskID).cmd taskID o.pickWorker else m.tables)) m := by
  have huntrack {m₁ : WorkerManager} (h₁ : Unlocked m₁) {t : Tables} (hl : Leaves m t m₁) :
      Finishes (do untrack taskID; untrack ("failing:" ++ taskID)) (fun _ => Leaves m t) m₁ := by
    apply (finishes_untrack h₁ taskID).bind
    rintro _ _ rfl
    apply (finishes_untrack _ _).mono
    · rintro _ _ rfl
      exact hl
    · exact h₁
  simp only [failTask, Action.ends_bind, ends_lock, Action.ends_get, Action.ends_ite, ends_unlock, Action.ends_modify,
    Finishes]
  constructor
  · intro hx
    simp [congrFun h Mutex.tasks] at hx
  · intro _
    rw [update_held h]
    constructor
    · intro hfailing
      have hskip : ¬m.FailReaches taskID workerID := by
        rintro ⟨hnone, -⟩
        simp [hnone] at hfailing
      exact ⟨rfl, rfl, (if_neg hskip).symm⟩
    · intro hfailing
      have hnone : m.activeTasks.lookup ("failing:" ++ taskID) = none := by simpa using hfailing
      constructor
      · intro hpresent
        rw [if_pos ⟨hnone, hpresent⟩]
        apply (finishes_removeTaskFromChannel (m := { m with
          activeTasks := m.activeTasks.insert ("failing:" ++ taskID) "failing" }) h _ _ taskID o).mono
        rintro _ _ rfl
        exact Action.ends_bind.mp (huntrack (by exact h) ⟨rfl, rfl, rfl⟩)
      · intro habsent
        rw [if_neg fun hreach => habsent hreach.2]
        exact Action.ends_bind.mp (huntrack (by exact h) ⟨rfl, rfl, rfl⟩)

/-! ## 停止 -/

/-- 停止を送るワーカー。 -/
def WorkerManager.stopTarget (m : WorkerManager) (identity : String → TaskIdentity) (task : StopTask)
    (original : Option OriginalTask) (o : Outcome) : Option Nat :=
  if task.originalTaskID = "" ∨ !o.build then none
  else match original with
  | none => none
  | some orig =>
      if Queue.trimSpace orig.podID = "" ∨ orig.workerID < 0 ∨ o.isWeb then none
      else m.targetWorker task (identity task.originalTaskID).channel o

theorem finishes_stopAttempts (h : Unlocked m) {workerID : Nat} (hsend : m.canSend workerID = true) (task : StopTask)
    (o : Outcome) {n : Nat} (hn : ∃ k < n, o.sends k = true) :
    Finishes (stopAttempts workerID task o n)
      (fun _ => Leaves m (m.tables.removeTask task.channel task.cmd task.originalTaskID o.pickWorker)) m := by
  induction n with
  | zero =>
      obtain ⟨k, hk, -⟩ := hn
      exact absurd hk (Nat.not_lt_zero k)
  | succ n ih =>
      simp only [stopAttempts, Action.ends_bind, Action.ends_get, Action.ends_ite, Finishes]
      constructor
      · intro _
        apply (finishes_cleanupStoppedTask h task.channel task.cmd task.originalTaskID o).mono
        rintro _ _ rfl
        exact ⟨rfl, rfl, rfl⟩
      · intro hfail
        apply ih
        obtain ⟨k, hk, hok⟩ := hn
        rcases Nat.lt_succ_iff_lt_or_eq.mp hk with hk | rfl
        · exact ⟨k, hk, hok⟩
        · simp [hsend, hok] at hfail

theorem finishes_stopNativeTask (h : Unlocked m) (task : StopTask) (o : Outcome) {target : Option Nat}
    (htarget : m.targetWorker task (identity task.originalTaskID).channel o = target)
    (hsend : ∀ workerID, target = some workerID → o.build = true →
      m.canSend workerID = true ∧ ∃ k < 3, o.sends k = true) :
    Finishes (stopNativeTask identity task o) (fun _ => Leaves m (if target.isSome ∧ o.build = true then
      m.tables.removeTask task.channel task.cmd task.originalTaskID o.pickWorker else m.tables)) m := by
  simp only [stopNativeTask, Action.ends_bind, ends_lock, Action.ends_get, ends_unlock, Finishes]
  constructor
  · intro hx
    simp [congrFun h Mutex.manager] at hx
  · intro _
    rw [update_held h]
    have hheld : { m with held := Function.update m.held .manager true }.targetWorker task
        (identity task.originalTaskID).channel o = target := htarget
    rw [hheld]
    rcases target with _ | workerID
    · apply (finishes_untrack h task.originalTaskID).mono
      rintro _ _ rfl
      exact ⟨rfl, rfl, by simp⟩
    · simp only [stopOriginalTaskWithRetries, Action.ends_bind, Action.ends_ite, Action.ends_pure]
      constructor
      · intro hbuild
        have hbuild : ¬o.build = true := by simpa using hbuild
        exact ⟨rfl, rfl, by simp [hbuild]⟩
      · intro hbuild
        have hbuild : o.build = true := by simpa using hbuild
        obtain ⟨hcan, hex⟩ := hsend workerID rfl hbuild
        simpa [hbuild] using finishes_stopAttempts h hcan task o hex

theorem finishes_stopTask (h : Unlocked m) (task : StopTask) (original : Option OriginalTask) (o : Outcome)
    (hsend : ∀ workerID, m.stopTarget identity task original o = some workerID →
      m.canSend workerID = true ∧ ∃ k < 3, o.sends k = true) :
    Finishes (stopTask identity task original o) (fun _ => Leaves m (
      if (m.stopTarget identity task original o).isSome then
        m.tables.removeTask task.channel task.cmd task.originalTaskID o.pickWorker
      else m.tables)) m := by
  have huntrack {m₁ : WorkerManager} (h₁ : Unlocked m₁) {t : Tables} (hl : Leaves m t m₁) :
      Finishes (untrack task.id) (fun _ => Leaves m t) m₁ := by
    apply (finishes_untrack h₁ task.id).mono
    rintro _ _ rfl
    exact hl
  have hnone (htarget : m.stopTarget identity task original o = none) : Leaves m (
      if (m.stopTarget identity task original o).isSome then
        m.tables.removeTask task.channel task.cmd task.originalTaskID o.pickWorker
      else m.tables) m := ⟨rfl, rfl, by simp [htarget]⟩
  by_cases hid : task.originalTaskID = ""
  · have htarget : m.stopTarget identity task original o = none := by simp [WorkerManager.stopTarget, hid]
    simpa [stopTask, hid] using hnone htarget
  · cases original with
    | none =>
        have htarget : m.stopTarget identity task none o = none := by simp [WorkerManager.stopTarget]
        simpa [stopTask, hid] using huntrack h (hnone htarget)
    | some orig =>
        by_cases hweb : Queue.trimSpace orig.podID = "" ∨ orig.workerID < 0 ∨ o.isWeb
        · have htarget : m.stopTarget identity task (some orig) o = none := by simp [WorkerManager.stopTarget, hweb]
          simpa [stopTask, hid, hweb] using huntrack h (hnone htarget)
        · have htarget : m.stopTarget identity task (some orig) o =
              if o.build = true then m.targetWorker task (identity task.originalTaskID).channel o else none := by
            cases hbuild : o.build <;> simp [WorkerManager.stopTarget, hid, hweb, hbuild]
          have hnative := finishes_stopNativeTask h task o rfl fun workerID hw hbuild =>
            hsend workerID (by rw [htarget, if_pos hbuild, hw])
          have hsome : ((m.targetWorker task (identity task.originalTaskID).channel o).isSome ∧ o.build = true) ↔
              (m.stopTarget identity task (some orig) o).isSome := by
            rw [htarget]
            split
            · rename_i hbuild
              simp [hbuild]
            · rename_i hbuild
              simp [hbuild]
          simp only [hsome] at hnative
          have hstop : Finishes (do stopNativeTask identity task o; untrack task.id) (fun _ => Leaves m (
              if (m.stopTarget identity task (some orig) o).isSome then
                m.tables.removeTask task.channel task.cmd task.originalTaskID o.pickWorker
              else m.tables)) m := by
            apply hnative.bind
            intro _ m₁ hl
            exact huntrack (hl.1.trans h) hl
          simpa [stopTask, hid, hweb] using hstop

/-! ## 開始 -/

/-- 開始が選ぶワーカー。チャンネルに割り当てた使えるものか、空いたものである。 -/
def WorkerManager.workerFor (m : WorkerManager) (channel : String) : Option Nat :=
  (m.usableWorker channel).or m.findFreeWorker

/-- 割り当てて、送信に成功したあとの状態。 -/
def WorkerManager.started (m : WorkerManager) (i : TaskIdentity) (taskID : String) (workerID : Nat) : WorkerManager :=
  let assigned := m.withTables fun t => t.assign i.channel workerID i.cmd taskID
  assigned.setState workerID (((m.worker workerID).map Worker.generation).getD 0) .running

/-- 割り当てたワーカーが使えるとき、割り当ては消えない。 -/
theorem finishes_findWorkerForChannel {channel : String}
    (husable : ∀ workerID, m.tables.channelWorkers.lookup channel = some workerID →
      m.usableWorker channel = some workerID) :
    Finishes (findWorkerForChannel channel) (fun found m' => found = m.workerFor channel ∧ m' = m) m := by
  simp only [findWorkerForChannel, Action.ends_bind, Action.ends_get, Finishes]
  split
  · rename_i workerID hworker
    exact ⟨by simp [WorkerManager.workerFor, hworker], rfl⟩
  · rename_i hnone
    split
    · rename_i workerID hmapped
      rw [husable workerID hmapped] at hnone
      cases hnone
    · exact ⟨by simp [WorkerManager.workerFor, hnone], rfl⟩

theorem finishes_startNativeRecorderTask (h : Unlocked m) (taskID : String) (o : Outcome)
    (husable : ∀ workerID, m.tables.channelWorkers.lookup (identity taskID).channel = some workerID →
      m.usableWorker (identity taskID).channel = some workerID)
    (hsend : o.build = true → m.tables.existing (identity taskID).channel (identity taskID).cmd = [] →
      ∀ workerID, m.workerFor (identity taskID).channel = some workerID →
        m.canSend workerID = true ∧ o.sends 0 = true) :
    Finishes (startNativeRecorderTask identity taskID o) (fun err m' =>
      (err ≠ none ∧ m' = m) ∨
      (err = none ∧ o.build = true ∧ m.tables.existing (identity taskID).channel (identity taskID).cmd = [] ∧
        ∃ workerID, m.workerFor (identity taskID).channel = some workerID ∧
          m' = m.started (identity taskID) taskID workerID)) m := by
  simp only [startNativeRecorderTask, Action.ends_bind, ends_lock, Action.ends_get, Action.ends_ite, ends_unlock, Finishes]
  constructor
  · intro _
    exact .inl ⟨by simp, rfl⟩
  · intro hbuild
    have hbuild : o.build = true := by simpa using hbuild
    constructor
    · intro hx
      simp [congrFun h Mutex.manager] at hx
    · intro _
      constructor
      · intro _
        rw [update_held h]
        exact .inl ⟨by simp, rfl⟩
      · intro hempty
        have hempty := not_not.mp hempty
        have hfind := finishes_findWorkerForChannel (m := { m with held := Function.update m.held .manager true }) husable
        apply hfind.mono
        rintro found _ ⟨rfl, rfl⟩
        have hfor : { m with held := Function.update m.held .manager true }.workerFor (identity taskID).channel =
            m.workerFor (identity taskID).channel := rfl
        rw [hfor]
        cases hworker : m.workerFor (identity taskID).channel with
        | none =>
            simp only [Action.ends_bind, ends_unlock, Action.ends_pure, update_held h]
            exact .inl ⟨by simp, trivial⟩
        | some workerID =>
            obtain ⟨hcan, hok⟩ := hsend hbuild hempty workerID hworker
            simp only [Action.ends_bind, Action.ends_modify, Action.ends_get, Action.ends_ite]
            constructor
            · intro hfail
              have hsent : (m.canSend workerID && o.sends 0) = true := by simp [hcan, hok]
              change (!(m.canSend workerID && o.sends 0)) = true at hfail
              simp [hsent] at hfail
            · intro _
              refine .inr ⟨rfl, hbuild, hempty, workerID, rfl, ?_⟩
              exact unlock_setState (m := m.withTables fun t =>
                t.assign (identity taskID).channel workerID (identity taskID).cmd taskID) h workerID
                (((m.worker workerID).map Worker.generation).getD 0) .running

/-! ## 起動 -/

/-- 起動し直されるのは、プロセスのないワーカーか、終わったワーカーである。 -/
def WorkerManager.NeedsStart (m : WorkerManager) (workerID : Nat) : Prop :=
  workerID < m.workers.length ∧ ∀ w, m.worker workerID = some w → (w.hasProcess && w.alive) = false

def WorkerManager.withStarted (m : WorkerManager) (workerID : Nat) (ok : Bool) : WorkerManager :=
  { m.setWorker workerID ⟨m.nextGeneration, if ok then .idle else .notAvailable, ok, ok, ok⟩ with
    nextGeneration := m.nextGeneration + 1 }

theorem finishes_startWorker (h : Unlocked m) (workerID : Nat) (ok : Bool) :
    Finishes (startWorker workerID ok) (fun _ m' => m' = m.withStarted workerID ok) m :=
  finishes_locked h fun _ => rfl

theorem finishes_monitorWorker (h : Unlocked m) (workerID : Nat) (ok : Bool) :
    Finishes (monitorWorker workerID ok)
      (fun _ m' => m' = m ∨ m.NeedsStart workerID ∧ m' = m.withStarted workerID ok) m := by
  have hstart (hneeds : m.NeedsStart workerID) : Finishes (startWorker workerID ok)
      (fun _ m' => m' = m ∨ m.NeedsStart workerID ∧ m' = m.withStarted workerID ok) m := by
    apply (finishes_startWorker h workerID ok).mono
    rintro _ _ rfl
    exact .inr ⟨hneeds, rfl⟩
  simp only [monitorWorker, Action.ends_bind, Action.ends_get, Action.ends_ite, Finishes]
  constructor
  · intro hlt
    split
    · rename_i hnone
      exact hstart ⟨hlt, by simp [hnone]⟩
    · rename_i w hw
      rw [Action.ends_ite]
      constructor
      · exact fun _ => .inl rfl
      · intro hdead
        apply hstart
        refine ⟨hlt, ?_⟩
        intro w' hw'
        rw [hw] at hw'
        rw [← Option.some.inj hw']
        simpa using hdead
  · exact fun _ => .inl rfl

end RtcEgress.Native
