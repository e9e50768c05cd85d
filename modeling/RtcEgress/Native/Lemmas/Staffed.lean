import RtcEgress.Native.Lemmas.Effects
import RtcEgress.Native.Lemmas.Ledger

/-!
# ワーカーの状態と割り当ての表

割り当てのあるワーカーは動いていて、空いたワーカーには割り当てがない。ワーカーが終わらないかぎり、どの処理も
これを保つ。
-/

namespace RtcEgress.Native

open RtcEgress.Lib

structure Staffed (identity : String → TaskIdentity) (m : WorkerManager) : Prop where
  unlocked : Unlocked m
  ledger : Ledger identity m.tables
  staffed : ∀ channel workerID, m.tables.channelWorkers.lookup channel = some workerID →
    ∃ w, m.worker workerID = some w ∧ w.state = .running
  equipped : ∀ workerID w, m.worker workerID = some w →
    w.state = .notAvailable ∧ w.hasProcess = false ∧ w.hasConn = false ∧ w.alive = false ∨
      w.state ≠ .notAvailable ∧ w.hasProcess = true ∧ w.hasConn = true ∧ w.alive = true
  vacant : ∀ workerID w, m.worker workerID = some w → w.state = .idle →
    ∀ channel, m.tables.channelWorkers.lookup channel ≠ some workerID

section Workers

variable {m : WorkerManager} {workerID : Nat} {w : Worker}

theorem lt_of_worker (hw : m.worker workerID = some w) : workerID < m.workers.length := by
  by_contra hge
  simp [WorkerManager.worker, List.getElem?_eq_none (Nat.not_lt.mp hge)] at hw

theorem worker_setWorker (hlt : workerID < m.workers.length) (i : Nat) :
    (m.setWorker workerID w).worker i = if i = workerID then some w else m.worker i := by
  simp only [WorkerManager.worker, WorkerManager.setWorker]
  rcases eq_or_ne i workerID with rfl | hi
  · simp [hlt]
  · simp [hi, List.getElem?_set_ne hi.symm]

/-- 今のワーカーの状態を書く。 -/
theorem worker_setState (hw : m.worker workerID = some w) (state : WorkerState) (i : Nat) :
    (m.setState workerID w.generation state).worker i =
      if i = workerID then some { w with state } else m.worker i := by
  unfold WorkerManager.setState
  rw [hw]
  simp only [if_true]
  exact worker_setWorker (lt_of_worker hw) i

theorem canSend_of_worker (hw : m.worker workerID = some w) : m.canSend workerID = w.hasConn := by
  simp [WorkerManager.canSend, hw]

end Workers

namespace Staffed

variable {identity : String → TaskIdentity} {m m' : WorkerManager} {workerID : Nat}

theorem init {podID : String} {numWorkers : Nat} : Staffed identity (.init podID numWorkers) := by
  have hnone (i : Nat) : (WorkerManager.init podID numWorkers).worker i = none := by
    simp [WorkerManager.worker, WorkerManager.init, List.getElem?_replicate]
    split <;> rfl
  constructor
  · rfl
  · exact Ledger.empty
  · simp [WorkerManager.init, Tables.empty]
  · simp [hnone]
  · simp [hnone]

theorem canSend (h : Staffed identity m) {w : Worker} (hw : m.worker workerID = some w)
    (hstate : w.state ≠ .notAvailable) : m.canSend workerID = true := by
  rw [canSend_of_worker hw]
  rcases h.equipped workerID w hw with ⟨hna, -⟩ | ⟨-, -, hconn, -⟩
  · exact absurd hna hstate
  · exact hconn

theorem usableWorker (h : Staffed identity m) {channel : String}
    (hc : m.tables.channelWorkers.lookup channel = some workerID) : m.usableWorker channel = some workerID := by
  obtain ⟨w, hw, hstate⟩ := h.staffed channel workerID hc
  simp [WorkerManager.usableWorker, hc, hw, hstate]

/-- 開始の選ぶワーカーは、チャンネルのワーカーか、割り当てのない空いたワーカーである。 -/
theorem workerFor (h : Staffed identity m) {channel : String} (hfor : m.workerFor channel = some workerID) :
    ∃ w, m.worker workerID = some w ∧ w.state ≠ .notAvailable ∧
      (m.tables.channelWorkers.lookup channel = some workerID ∨
        m.tables.channelWorkers.lookup channel = none ∧ ∀ c, m.tables.channelWorkers.lookup c ≠ some workerID) := by
  cases hc : m.tables.channelWorkers.lookup channel with
  | some i =>
      simp only [WorkerManager.workerFor, h.usableWorker hc, Option.some_or, Option.some.injEq] at hfor
      obtain ⟨w, hw, hstate⟩ := h.staffed channel i hc
      rw [hfor] at hw
      exact ⟨w, hw, by simp [hstate], .inl (by rw [hfor])⟩
  | none =>
      have hnone : m.usableWorker channel = none := by simp [WorkerManager.usableWorker, hc]
      rw [WorkerManager.workerFor, hnone, Option.none_or, WorkerManager.findFreeWorker,
        List.findIdx?_eq_some_iff_getElem] at hfor
      obtain ⟨hlt, hidle, -⟩ := hfor
      cases hget : m.workers[workerID] with
      | none => simp [hget] at hidle
      | some w =>
          have hw : m.worker workerID = some w := by
            simp [WorkerManager.worker, List.getElem?_eq_getElem hlt, hget]
          have hidle : w.state = .idle := by simpa [hget] using hidle
          exact ⟨w, hw, by simp [hidle], .inr ⟨rfl, h.vacant workerID w hw hidle⟩⟩

/-- ワーカーの状態を変えず、割り当てを減らすだけの処理。 -/
theorem leaves (h : Staffed identity m) {t : Tables} (hl : Leaves m t m') (ht : Ledger identity t)
    (hsub : ∀ channel i, t.channelWorkers.lookup channel = some i → m.tables.channelWorkers.lookup channel = some i) :
    Staffed identity m' := by
  obtain ⟨hheld, hworkers, rfl⟩ := hl
  have hworker (i : Nat) : m'.worker i = m.worker i := by simp [WorkerManager.worker, hworkers]
  constructor
  · exact hheld.trans h.unlocked
  · exact ht
  · intro channel i hc
    rw [hworker]
    exact h.staffed channel i (hsub channel i hc)
  · intro i w hw
    rw [hworker] at hw
    exact h.equipped i w hw
  · intro i w hw hidle channel hc
    rw [hworker] at hw
    exact h.vacant i w hw hidle channel (hsub channel i hc)

/-- 割り当てを書き換えたワーカーの状態を、割り当てのとおりに書く。 -/
theorem setState (h : Staffed identity m) {t : Tables} (hl : Leaves m t m') (ht : Ledger identity t) {w : Worker}
    (hw : m.worker workerID = some w) (hstate : w.state ≠ .notAvailable)
    (hsub : ∀ channel i, i ≠ workerID → t.channelWorkers.lookup channel = some i →
      m.tables.channelWorkers.lookup channel = some i) {state : WorkerState}
    (hfit : state = .running ∨ state = .idle ∧ ∀ c, t.channelWorkers.lookup c ≠ some workerID) :
    Staffed identity (m'.setState workerID w.generation state) := by
  obtain ⟨hheld, hworkers, rfl⟩ := hl
  have hworker (i : Nat) : m'.worker i = m.worker i := by simp [WorkerManager.worker, hworkers]
  have hw' : m'.worker workerID = some w := by rw [hworker, hw]
  have htables : (m'.setState workerID w.generation state).tables = m'.tables := setState_tables
  constructor
  · exact (held_setState workerID w.generation state).trans (hheld.trans h.unlocked)
  · rw [htables]
    exact ht
  · intro channel i hc
    rw [htables] at hc
    rw [worker_setState hw']
    split
    · rename_i hi
      rw [hi] at hc
      rcases hfit with hrunning | ⟨-, hnone⟩
      · exact ⟨_, rfl, hrunning⟩
      · exact absurd hc (hnone channel)
    · rename_i hi
      rw [hworker]
      exact h.staffed channel i (hsub channel i hi hc)
  · intro i x hx
    rw [worker_setState hw', hworker] at hx
    split at hx
    · rw [← Option.some.inj hx]
      rcases h.equipped workerID w hw with ⟨hna, -⟩ | ⟨-, hrest⟩
      · exact absurd hna hstate
      · rcases hfit with rfl | ⟨rfl, -⟩
        · exact .inr ⟨by simp, hrest⟩
        · exact .inr ⟨by simp, hrest⟩
    · exact h.equipped i x hx
  · intro i x hx hidle channel hc
    rw [htables] at hc
    rw [worker_setState hw', hworker] at hx
    split at hx
    · rename_i hi
      rw [hi] at hc
      rw [← Option.some.inj hx] at hidle
      rcases hfit with rfl | ⟨-, hnone⟩
      · simp at hidle
      · exact hnone channel hc
    · rename_i hi
      exact h.vacant i x hx hidle channel (hsub channel i hi hc)

/-! ## 開始 -/

theorem started (h : Staffed identity m) {taskID : String}
    (hplain : (identity taskID).channel ≠ "" ∧ (identity taskID).cmd ≠ "")
    (hempty : m.tables.existing (identity taskID).channel (identity taskID).cmd = [])
    (hfor : m.workerFor (identity taskID).channel = some workerID) :
    Staffed identity (m.started (identity taskID) taskID workerID) := by
  obtain ⟨w, hw, hstate, hassign⟩ := h.workerFor hfor
  have hledger : Ledger identity (m.tables.assign (identity taskID).channel workerID (identity taskID).cmd taskID) := by
    apply h.ledger.assign rfl hempty _ hplain
    rcases hassign with hc | ⟨hnone, hfree⟩
    · exact .inl hc
    · refine .inr ⟨hnone, ?_⟩
      rw [Option.eq_none_iff_forall_ne_some]
      intro c hc
      exact hfree c ((h.ledger.inverse c workerID).mpr hc)
  have hgeneration : ((m.worker workerID).map Worker.generation).getD 0 = w.generation := by simp [hw]
  have hl : Leaves m (m.tables.assign (identity taskID).channel workerID (identity taskID).cmd taskID)
      (m.withTables fun t => t.assign (identity taskID).channel workerID (identity taskID).cmd taskID) := ⟨rfl, rfl, rfl⟩
  rw [WorkerManager.started, hgeneration]
  apply h.setState hl hledger hw hstate _ (.inl rfl)
  intro c i hi hc
  simp only [Tables.assign, lookup_insert_ite] at hc
  split at hc
  · exact absurd (Option.some.inj hc).symm hi
  · exact hc

/-! ## 起動 -/

theorem withStarted (h : Staffed identity m) {ok : Bool} (hneeds : m.NeedsStart workerID) :
    Staffed identity (m.withStarted workerID ok) := by
  have hworker (i : Nat) : (m.withStarted workerID ok).worker i = if i = workerID then
      some ⟨m.nextGeneration, if ok then .idle else .notAvailable, ok, ok, ok⟩ else m.worker i :=
    worker_setWorker hneeds.1 i
  -- 起動し直すワーカーには割り当てがない。
  have hfree (channel : String) : m.tables.channelWorkers.lookup channel ≠ some workerID := by
    intro hc
    obtain ⟨w, hw, hstate⟩ := h.staffed channel workerID hc
    have hdown := hneeds.2 w hw
    rcases h.equipped workerID w hw with ⟨hna, -⟩ | ⟨-, hprocess, -, halive⟩
    · rw [hstate] at hna
      cases hna
    · simp [hprocess, halive] at hdown
  constructor
  · exact h.unlocked
  · exact h.ledger
  · intro channel i hc
    rw [hworker]
    split
    · rename_i hi
      rw [hi] at hc
      exact absurd hc (hfree channel)
    · exact h.staffed channel i hc
  · intro i w hw
    rw [hworker] at hw
    split at hw
    · rw [← Option.some.inj hw]
      cases ok <;> simp
    · exact h.equipped i w hw
  · intro i w hw hidle channel
    rw [hworker] at hw
    split at hw
    · rename_i hi
      rw [hi]
      exact hfree channel
    · exact h.vacant i w hw hidle channel

end Staffed

end RtcEgress.Native
