import RtcEgress.Native.Lemmas.Release
import RtcEgress.Native.Slots

/-!
# 枠が漏れない条件

割り当てを失ったワーカーには、状態を書き直す完了がまだ残っている。`failTask` は状態を書かず、記録のワーカーがなければ
表にも触れない。そこで、回復できない失敗で割り当てを失うワーカーに、ほかの完了が残ることを求める。
-/

namespace RtcEgress.Native

open RtcEgress.Lib

namespace Slots

/-- ワーカーの完了が届いているか、これから必ず届く。 -/
def Due (identity : String → TaskIdentity) (s : Slots) (workerID : Nat) : Prop :=
  s.outbox workerID ≠ [] ∨ ∃ before taskID after,
    s.inbox workerID = before ++ .stop taskID (identity taskID).cmd :: after ∧
      (taskID ∈ s.accepted workerID ∨ .start taskID ∈ before)

/-- タスクは、これから読まれるか、動いているか、完了が届いている。 -/
def Backed (s : Slots) (workerID : Nat) (taskID : String) : Prop :=
  taskID ∈ s.accepted workerID ∨ .start taskID ∈ s.inbox workerID ∨ ∃ c ∈ s.outbox workerID, c.taskID = taskID

/-- ワーカーにはタスクも通知もない。 -/
def Silent (s : Slots) (workerID : Nat) : Prop :=
  s.inbox workerID = [] ∧ s.accepted workerID = [] ∧ s.outbox workerID = []

end Slots

/-! ## 条件 -/

section Condition

variable (identity : String → TaskIdentity)

/-- 失敗の後始末で、割り当てを失うワーカーにも、表に残るタスクにも、完了が残る。 -/
structure FailSettles (m : WorkerManager) (s : Slots) (taskID : String) (recorded : Int) : Prop where
  due : ∀ workerID w, m.worker workerID = some w → w.state = .running →
    (∀ channel cmd x, m.tables.channelWorkers.lookup channel = some workerID → m.tables.Has channel cmd x →
      x = taskID ∧ m.FailReaches taskID recorded) → s.Due identity workerID
  backed : ¬m.FailReaches taskID recorded → ∀ channel cmd workerID, m.tables.Has channel cmd taskID →
    m.tables.channelWorkers.lookup channel = some workerID → s.Backed workerID taskID

/-- 送信は成功し、開始には必ず答えがある。回復できない失敗は `FailSettles` を満たす。 -/
def SlotOp.Orderly (op : SlotOp) (s : Slots) : Prop :=
  match op with
  | .startNativeRecorderTask taskID o =>
      (o.checked (identity taskID)).build = true →
        s.manager.tables.existing (identity taskID).channel (identity taskID).cmd = [] →
        (s.manager.workerFor (identity taskID).channel).isSome → o.sends 0 = true
  | .stopTask task original o =>
      (s.manager.stopTarget identity task original o).isSome → ∃ k < 3, o.sends k = true
  | .receive workerID r => ∀ taskID rest, s.inbox workerID = .start taskID :: rest → r.drops = false
  | .handleTaskCompletion workerID index record o =>
      ∀ c recorded, (s.outbox workerID)[index]? = some c → c.success = false → c.isUnrecoverable = true →
        record = some recorded → FailSettles identity s.manager
          ((s.settle workerID index).push (s.manager.failReceiver c record o) (.stop c.taskID (identity c.taskID).cmd))
          c.taskID recorded
  | _ => True

end Condition

/-! ## 通知 -/

namespace Slots

variable {identity : String → TaskIdentity} {s s' : Slots} {workerID i : Nat} {taskID : String} {receiver : Option Nat}
  {message : Message} {m : WorkerManager}

theorem push_inbox :
    (s.push receiver message).inbox i = if receiver = some i then s.inbox i ++ [message] else s.inbox i := by
  cases receiver with
  | none => rfl
  | some j =>
      simp only [push, Option.some.injEq]
      rcases eq_or_ne i j with rfl | hi
      · simp
      · simp [hi, hi.symm]

@[simp] theorem push_accepted : (s.push receiver message).accepted = s.accepted := by
  cases receiver <;> rfl

@[simp] theorem push_outbox : (s.push receiver message).outbox = s.outbox := by
  cases receiver <;> rfl

@[simp] theorem push_manager : (s.push receiver message).manager = s.manager := by
  cases receiver <;> rfl

theorem Due.congr (h : s.Due identity i) (hin : s'.inbox i = s.inbox i) (hacc : s'.accepted i = s.accepted i)
    (hout : s'.outbox i = s.outbox i) : s'.Due identity i := by
  unfold Due
  rw [hin, hacc, hout]
  exact h

theorem Backed.congr (h : s.Backed i taskID) (hin : s'.inbox i = s.inbox i) (hacc : s'.accepted i = s.accepted i)
    (hout : s'.outbox i = s.outbox i) : s'.Backed i taskID := by
  unfold Backed
  rw [hin, hacc, hout]
  exact h

/-- 通知を送っても、待つ完了はなくならない。 -/
theorem Due.push (h : s.Due identity i) : ({ s with manager := m }.push receiver message).Due identity i := by
  rcases h with hout | ⟨before, x, after, hin, hx⟩
  · exact .inl (by simpa using hout)
  · rw [Due, push_inbox, push_accepted]
    split
    · exact .inr ⟨before, x, after ++ [message], by simp [hin], hx⟩
    · exact .inr ⟨before, x, after, hin, hx⟩

theorem Backed.push (h : s.Backed i taskID) : ({ s with manager := m }.push receiver message).Backed i taskID := by
  rw [Backed, push_inbox, push_accepted, push_outbox]
  rcases h with hacc | hin | hout
  · exact .inl hacc
  · refine .inr (.inl ?_)
    split
    · exact List.mem_append_left _ hin
    · exact hin
  · exact .inr (.inr hout)

theorem Due.withManager (h : (s.push receiver message).Due identity i) :
    ({ s with manager := m }.push receiver message).Due identity i := by
  cases receiver with
  | none => exact h
  | some j => exact h

theorem Backed.withManager (h : (s.push receiver message).Backed i taskID) :
    ({ s with manager := m }.push receiver message).Backed i taskID := by
  cases receiver with
  | none => exact h
  | some j => exact h

/-- 停止を送ったタスクの完了は、必ず届く。 -/
theorem Backed.due (h : s.Backed i taskID) :
    ({ s with manager := m }.push (some i) (.stop taskID (identity taskID).cmd)).Due identity i := by
  rw [Due, push_inbox, if_pos rfl, push_accepted, push_outbox]
  rcases h with hacc | hin | ⟨c, hc, -⟩
  · exact .inr ⟨s.inbox i, taskID, [], rfl, .inl hacc⟩
  · exact .inr ⟨s.inbox i, taskID, [], rfl, .inr hin⟩
  · exact .inl (List.ne_nil_of_mem hc)

theorem complete_due {c : UDSCompletionMessage} : (s.complete workerID c).Due identity workerID :=
  .inl (by simp [complete])

/-! ## 読み取り -/

variable (identity s) in
/-- ほかのワーカーの通知は変わらない。 -/
theorem receive_ne (r : Reaction) (hi : i ≠ workerID) :
    (s.receive identity workerID r).inbox i = s.inbox i ∧ (s.receive identity workerID r).accepted i = s.accepted i ∧
      (s.receive identity workerID r).outbox i = s.outbox i := by
  unfold receive
  split
  · exact ⟨rfl, rfl, rfl⟩
  · dsimp only
    split
    · split
      · simp [hi]
      · split <;> simp [hi, complete]
    · split <;> simp [hi, finish, complete]

@[simp] theorem receive_manager {r : Reaction} : (s.receive identity workerID r).manager = s.manager := by
  unfold receive
  split
  · rfl
  · dsimp only
    split
    · split
      · rfl
      · split <;> rfl
    · split <;> rfl

theorem receive_accept {r : Reaction} {rest : List Message} (hin : s.inbox workerID = .start taskID :: rest)
    (hdrops : r.drops = false) (haccepts : r.accepts = true) :
    s.receive identity workerID r =
      { s with
        inbox := Function.update s.inbox workerID rest
        accepted := Function.update s.accepted workerID ((s.accepted workerID).insert taskID) } := by
  simp [receive, hin, hdrops, haccepts]

theorem receive_refuse {r : Reaction} {rest : List Message} (hin : s.inbox workerID = .start taskID :: rest)
    (hdrops : r.drops = false) (haccepts : r.accepts = false) :
    s.receive identity workerID r =
      { s with inbox := Function.update s.inbox workerID rest }.complete workerID ⟨taskID, false, r.isUnrecoverable⟩ := by
  simp [receive, hin, hdrops, haccepts]

theorem Due.receive {r : Reaction} (hanswers : ∀ x rest, s.inbox workerID = .start x :: rest → r.drops = false)
    (h : s.Due identity i) : (s.receive identity workerID r).Due identity i := by
  rcases eq_or_ne i workerID with rfl | hi
  · cases hin : s.inbox i with
    | nil => simpa [Slots.receive, hin] using h
    | cons message rest =>
        cases message with
        | start x =>
            have hdrops := hanswers x rest hin
            cases haccepts : r.accepts with
            | false =>
                rw [receive_refuse hin hdrops haccepts]
                exact complete_due
            | true =>
                rw [receive_accept hin hdrops haccepts]
                rcases h with hout | ⟨before, y, after, hsplit, hy⟩
                · exact .inl hout
                · rw [hin] at hsplit
                  cases before with
                  | nil => simp at hsplit
                  | cons head before =>
                      simp only [List.cons_append, List.cons.injEq] at hsplit
                      obtain ⟨rfl, hrest⟩ := hsplit
                      refine .inr ⟨before, y, after, by simp [hrest], ?_⟩
                      rcases hy with hacc | hstart
                      · exact .inl (by simp [hacc])
                      · rcases List.mem_cons.mp hstart with heq | hstart
                        · exact .inl (by simp [Message.start.inj heq])
                        · exact .inr hstart
        | stop x cmd =>
            simp only [Slots.receive, hin]
            split
            · exact complete_due
            · rename_i hignored
              rcases h with hout | ⟨before, y, after, hsplit, hy⟩
              · exact .inl hout
              · rw [hin] at hsplit
                cases before with
                | nil =>
                    simp only [List.nil_append, List.cons.injEq, Message.stop.injEq] at hsplit
                    obtain ⟨⟨rfl, rfl⟩, -⟩ := hsplit
                    exact absurd ⟨hy.resolve_right (by simp), .inl rfl⟩ hignored
                | cons head before =>
                    simp only [List.cons_append, List.cons.injEq] at hsplit
                    obtain ⟨rfl, hrest⟩ := hsplit
                    refine .inr ⟨before, y, after, by simp [hrest], ?_⟩
                    simpa using hy
  · obtain ⟨hin, hacc, hout⟩ := receive_ne identity s r hi
    exact h.congr hin hacc hout

theorem finish_backed {c : UDSCompletionMessage} (h : s.Backed i taskID) : (s.finish workerID c).Backed i taskID := by
  rcases eq_or_ne i workerID with rfl | hi
  · rcases h with hacc | hin | ⟨c', hc', hx⟩
    · rcases eq_or_ne taskID c.taskID with rfl | hne
      · exact .inr (.inr ⟨c, by simp [finish, complete], rfl⟩)
      · exact .inl (by simpa [finish, complete] using (List.mem_erase_of_ne hne).mpr hacc)
    · exact .inr (.inl hin)
    · exact .inr (.inr ⟨c', by simp [finish, complete, hc'], hx⟩)
  · exact h.congr rfl (by simp [finish, complete, hi]) (by simp [finish, complete, hi])

theorem Backed.receive {r : Reaction} (hanswers : ∀ x rest, s.inbox workerID = .start x :: rest → r.drops = false)
    (h : s.Backed i taskID) : (s.receive identity workerID r).Backed i taskID := by
  rcases eq_or_ne i workerID with rfl | hi
  · cases hin : s.inbox i with
    | nil => simpa [Slots.receive, hin] using h
    | cons message rest =>
        have hleft : taskID ∈ s.accepted i ∨ message = .start taskID ∨ .start taskID ∈ rest ∨
            ∃ c ∈ s.outbox i, c.taskID = taskID := by
          rcases h with hacc | hstart | hout
          · exact .inl hacc
          · rw [hin, List.mem_cons] at hstart
            tauto
          · exact .inr (.inr (.inr hout))
        have hrest (hne : message ≠ .start taskID) :
            { s with inbox := Function.update s.inbox i rest }.Backed i taskID := by
          simp only [Backed, Function.update_self]
          tauto
        cases message with
        | start x =>
            have hdrops := hanswers x rest hin
            cases haccepts : r.accepts with
            | false =>
                simp only [receive_refuse hin hdrops haccepts, Backed, complete, Function.update_self]
                rcases hleft with hacc | heq | hstart | ⟨c, hc, hx⟩
                · exact .inl hacc
                · exact .inr (.inr ⟨_, List.mem_append_right _ (List.mem_singleton.mpr rfl), Message.start.inj heq⟩)
                · exact .inr (.inl hstart)
                · exact .inr (.inr ⟨c, List.mem_append_left _ hc, hx⟩)
            | true =>
                simp only [receive_accept hin hdrops haccepts, Backed, Function.update_self]
                rcases hleft with hacc | heq | hstart | hout
                · exact .inl (by simp [hacc])
                · exact .inl (by simp [Message.start.inj heq])
                · exact .inr (.inl hstart)
                · exact .inr (.inr hout)
        | stop x cmd =>
            simp only [Slots.receive, hin]
            split
            · exact finish_backed (hrest (by simp))
            · exact hrest (by simp)
  · obtain ⟨hin, hacc, hout⟩ := receive_ne identity s r hi
    exact h.congr hin hacc hout

theorem Silent.receive {r : Reaction} (h : s.Silent i) : (s.receive identity workerID r).Silent i := by
  rcases eq_or_ne i workerID with rfl | hi
  · simpa [Slots.receive, h.1] using h
  · obtain ⟨hin, hacc, hout⟩ := receive_ne identity s r hi
    exact ⟨hin.trans h.1, hacc.trans h.2.1, hout.trans h.2.2⟩

theorem Silent.push (h : s.Silent i) (hne : receiver ≠ some i) : ({ s with manager := m }.push receiver message).Silent i := by
  rw [Silent, push_inbox, if_neg hne, push_accepted, push_outbox]
  exact h

/-! ## 取り出し -/

theorem settle_outbox {index : Nat} :
    (s.settle workerID index).outbox i = if i = workerID then (s.outbox i).eraseIdx index else s.outbox i := by
  rcases eq_or_ne i workerID with rfl | hi
  · simp [settle]
  · simp [settle, hi]

theorem Silent.settle {index : Nat} (h : s.Silent i) : (s.settle workerID index).Silent i := by
  refine ⟨h.1, h.2.1, ?_⟩
  rw [settle_outbox, h.2.2]
  simp

/-- 取り出した完了は、ほかのワーカーにもほかのタスクにも関わらない。 -/
theorem Backed.settle {index : Nat} {c : UDSCompletionMessage} (hc : (s.outbox workerID)[index]? = some c)
    (hne : i ≠ workerID ∨ taskID ≠ c.taskID) (h : s.Backed i taskID) : (s.settle workerID index).Backed i taskID := by
  rcases h with hacc | hin | ⟨c', hc', hx⟩
  · exact .inl hacc
  · exact .inr (.inl hin)
  · refine .inr (.inr ⟨c', ?_, hx⟩)
    rw [settle_outbox]
    split
    · rename_i hi
      rw [hi] at hc'
      obtain ⟨k, hk⟩ := List.mem_iff_getElem?.mp hc'
      rw [hi, List.mem_eraseIdx_iff_getElem?]
      refine ⟨k, ?_, hk⟩
      rintro rfl
      rw [hc, Option.some.injEq] at hk
      rcases hne with hne | hne
      · exact hne hi
      · exact hne (by rw [← hx, hk])
    · exact hc'

theorem Due.settle_ne {index : Nat} (h : s.Due identity i) (hi : i ≠ workerID) : (s.settle workerID index).Due identity i :=
  h.congr rfl rfl (by simp [settle_outbox, hi])

end Slots

/-! ## 不変条件 -/

/-- 割り当てのない動いているワーカーには完了が届き、割り当てのあるタスクはまだ終わっていない。 -/
structure Wired (identity : String → TaskIdentity) (s : Slots) : Prop where
  staffed : Staffed identity s.manager
  due : ∀ workerID w, s.manager.worker workerID = some w → w.state = .running →
    (∀ channel, s.manager.tables.channelWorkers.lookup channel ≠ some workerID) → s.Due identity workerID
  backed : ∀ channel cmd taskID workerID, s.manager.tables.Has channel cmd taskID →
    s.manager.tables.channelWorkers.lookup channel = some workerID → s.Backed workerID taskID
  manned : ∀ workerID, ¬s.Silent workerID → ∃ w, s.manager.worker workerID = some w ∧ w.state ≠ .notAvailable

namespace Wired

variable {identity : String → TaskIdentity} {s : Slots}

theorem init {podID : String} {numWorkers : Nat} : Wired identity (.init podID numWorkers) where
  staffed := .init
  due := by
    intro i w hw
    simp [Slots.init, WorkerManager.init, WorkerManager.worker, List.getElem?_replicate] at hw
    split at hw <;> cases hw
  backed := by
    intro channel cmd taskID i hhas
    simp [Slots.init, WorkerManager.init, Tables.empty, Tables.Has] at hhas
  manned := fun i h => absurd ⟨rfl, rfl, rfl⟩ h

/-- 通知が流れていなければ、枠は漏れていない。 -/
theorem noLeak (h : Wired identity s) (hquiet : s.Quiet) : s.NoLeak where
  free := by
    intro i w hw halive hfree
    have hnone (channel : String) : s.manager.tables.channelWorkers.lookup channel ≠ some i := by
      intro hc
      obtain ⟨cmd, taskID, hhas⟩ := h.staffed.ledger.has_of_owner hc
      exact hfree ⟨channel, cmd, taskID, (h.staffed.ledger.inverse channel i).mp hc, hhas⟩
    cases hstate : w.state with
    | idle => rfl
    | running =>
        rcases h.due i w hw hstate hnone with hout | ⟨before, taskID, after, hin, -⟩
        · exact absurd (hquiet i).2 hout
        · simp [(hquiet i).1] at hin
    | notAvailable =>
        rcases h.staffed.equipped i w hw with ⟨-, -, -, hdead⟩ | ⟨hne, -⟩
        · simp [halive] at hdead
        · exact absurd hstate hne
  running := by
    intro channel cmd taskID hhas
    obtain ⟨i, hi⟩ := h.staffed.ledger.owner_of_has hhas
    refine ⟨i, hi, ?_⟩
    rcases h.backed channel cmd taskID i hhas hi with hacc | hin | ⟨c, hc, -⟩
    · exact hacc
    · simp [(hquiet i).1] at hin
    · simp [(hquiet i).2] at hc

/-! ## ワーカー -/

theorem receive (h : Wired identity s) {workerID : Nat} {r : Reaction}
    (hanswers : ∀ x rest, s.inbox workerID = .start x :: rest → r.drops = false) :
    Wired identity (s.receive identity workerID r) := by
  constructor
  · rw [Slots.receive_manager]
    exact h.staffed
  · intro i w hw hstate hfree
    rw [Slots.receive_manager] at hw hfree
    exact (h.due i w hw hstate hfree).receive hanswers
  · intro channel cmd taskID i hhas hi
    rw [Slots.receive_manager] at hhas hi
    exact (h.backed channel cmd taskID i hhas hi).receive hanswers
  · intro i hbusy
    rw [Slots.receive_manager]
    exact h.manned i fun hsilent => hbusy hsilent.receive

theorem finish (h : Wired identity s) {workerID : Nat} {c : UDSCompletionMessage} (hc : c.taskID ∈ s.accepted workerID) :
    Wired identity (s.finish workerID c) := by
  constructor
  · exact h.staffed
  · intro i w hw hstate hfree
    rcases eq_or_ne i workerID with rfl | hi
    · exact Slots.complete_due
    · exact (h.due i w hw hstate hfree).congr rfl (by simp [Slots.finish, Slots.complete, hi])
        (by simp [Slots.finish, Slots.complete, hi])
  · intro channel cmd taskID i hhas hi
    exact Slots.finish_backed (h.backed channel cmd taskID i hhas hi)
  · intro i hbusy
    apply h.manned i
    intro hsilent
    rcases eq_or_ne i workerID with rfl | hi
    · simp [hsilent.2.1] at hc
    · exact hbusy ⟨hsilent.1, by simpa [Slots.finish, Slots.complete, hi] using hsilent.2.1,
        by simpa [Slots.finish, Slots.complete, hi] using hsilent.2.2⟩

/-! ## 起動 -/

theorem monitorWorker (h : Wired identity s) {workerID : Nat} {ok : Bool} :
    Wired identity { s with manager := (Native.monitorWorker workerID ok).after s.manager } := by
  rcases (finishes_monitorWorker h.staffed.unlocked workerID ok).after with heq | ⟨hneeds, heq⟩
  · rw [heq]
    exact h
  · rw [heq]
    have hworker (i : Nat) : (s.manager.withStarted workerID ok).worker i = if i = workerID then
        some ⟨s.manager.nextGeneration, if ok then .idle else .notAvailable, ok, ok, ok⟩ else s.manager.worker i :=
      worker_setWorker hneeds.1 i
    constructor
    · exact h.staffed.withStarted hneeds
    · intro i w hw hstate hfree
      rw [hworker] at hw
      split at hw
      · rw [← Option.some.inj hw] at hstate
        cases ok <;> simp at hstate
      · exact h.due i w hw hstate hfree
    · exact h.backed
    · intro i hbusy
      obtain ⟨w, hw, hstate⟩ := h.manned i hbusy
      rw [hworker]
      split
      · rename_i hi
        rw [hi] at hw
        have hdown := hneeds.2 w hw
        rcases h.staffed.equipped workerID w hw with ⟨hna, -⟩ | ⟨-, hprocess, -, halive⟩
        · exact absurd hna hstate
        · simp [hprocess, halive] at hdown
      · exact ⟨w, hw, hstate⟩

theorem track (h : Wired identity s) {taskID : String} :
    Wired identity { s with manager := (Native.track taskID).after s.manager } := by
  have heq := (finishes_track h.staffed.unlocked taskID).after
  rw [heq]
  exact ⟨⟨h.staffed.unlocked, h.staffed.ledger, h.staffed.staffed, h.staffed.equipped, h.staffed.vacant⟩, h.due, h.backed,
    h.manned⟩

/-! ## 開始 -/

theorem tables_started {m : WorkerManager} {i : TaskIdentity} {taskID : String} {workerID : Nat} :
    (m.started i taskID workerID).tables = m.tables.assign i.channel workerID i.cmd taskID := setState_tables

theorem worker_started {m : WorkerManager} {i : TaskIdentity} {taskID : String} {workerID : Nat} {w : Worker}
    (hw : m.worker workerID = some w) (j : Nat) :
    (m.started i taskID workerID).worker j =
      if j = workerID then some { w with state := .running } else m.worker j := by
  have hgeneration : ((m.worker workerID).map Worker.generation).getD 0 = w.generation := by simp [hw]
  rw [WorkerManager.started, hgeneration]
  exact worker_setState (m := m.withTables _) hw .running j

/-- チャンネルの割り当ては、ほかの割り当てを変えない。 -/
theorem channelWorkers_assign {t : Tables} {channel cmd taskID c : String} {workerID i : Nat}
    (hassign : t.channelWorkers.lookup channel = some workerID ∨ t.channelWorkers.lookup channel = none)
    (hc : t.channelWorkers.lookup c = some i) : (t.assign channel workerID cmd taskID).channelWorkers.lookup c = some i := by
  simp only [Tables.assign, lookup_insert_ite]
  split
  · rename_i heq
    rw [heq] at hc
    rcases hassign with hmapped | hnone
    · rw [← hmapped, hc]
    · rw [hnone] at hc
      cases hc
  · exact hc

/-- 割り当てたワーカーに開始が届く。 -/
theorem started (h : Wired identity s) {taskID : String} {workerID : Nat}
    (hplain : (identity taskID).channel ≠ "" ∧ (identity taskID).cmd ≠ "")
    (hempty : s.manager.tables.existing (identity taskID).channel (identity taskID).cmd = [])
    (hfor : s.manager.workerFor (identity taskID).channel = some workerID) :
    Wired identity ({ s with manager := s.manager.started (identity taskID) taskID workerID }.push (some workerID)
      (.start taskID)) := by
  obtain ⟨w, hw, hstate, hassign⟩ := h.staffed.workerFor hfor
  have howner {c : String} {i : Nat} (hc : s.manager.tables.channelWorkers.lookup c = some i) :=
    @channelWorkers_assign s.manager.tables _ (identity taskID).cmd taskID c _ i (hassign.imp_right And.left) hc
  constructor
  · rw [Slots.push_manager]
    exact h.staffed.started hplain hempty hfor
  · intro i x hx hrunning hfree
    rw [Slots.push_manager, tables_started] at hfree
    rw [Slots.push_manager, worker_started hw] at hx
    split at hx
    · rename_i hi
      rw [hi] at hfree
      exact absurd (by simp [Tables.assign]) (hfree (identity taskID).channel)
    · rename_i hi
      exact (h.due i x hx hrunning fun c hc => hfree c (howner hc)).push
  · intro c k x i hhas hi
    rw [Slots.push_manager, tables_started] at hhas hi
    rw [has_assign hempty] at hhas
    rcases hhas with hhas | ⟨rfl, rfl, rfl⟩
    · obtain ⟨j, hj⟩ := h.staffed.ledger.owner_of_has hhas
      have hsame : j = i := Option.some.inj ((howner hj).symm.trans hi)
      rw [hsame] at hj
      exact (h.backed c k x i hhas hj).push
    · simp only [Tables.assign, lookup_insert_ite, if_true, Option.some.injEq] at hi
      rw [hi]
      exact .inr (.inl (by simp [Slots.push_inbox]))
  · intro i hbusy
    rw [Slots.push_manager, worker_started hw]
    split
    · exact ⟨_, rfl, by simp⟩
    · rename_i hi
      apply h.manned i
      intro hsilent
      exact hbusy (hsilent.push (by simpa using Ne.symm hi))

theorem startNativeRecorderTask (h : Wired identity s) {taskID : String} {o : Outcome}
    (ho : (SlotOp.startNativeRecorderTask taskID o).Orderly identity s) :
    Wired identity ((SlotOp.startNativeRecorderTask taskID o).apply identity s) := by
  have hfin := finishes_startNativeRecorderTask h.staffed.unlocked taskID (o.checked (identity taskID))
    (fun workerID hc => h.staffed.usableWorker hc) (by
      intro hbuild hempty workerID hfor
      obtain ⟨w, hw, hstate, -⟩ := h.staffed.workerFor hfor
      exact ⟨h.staffed.canSend hw hstate, ho hbuild hempty (by simp [hfor])⟩)
  unfold Finishes Action.Ends at hfin
  simp only [SlotOp.apply]
  rcases hrun : (Native.startNativeRecorderTask identity taskID (o.checked (identity taskID))).run s.manager with ⟨_ | err, m'⟩
  · rw [hrun] at hfin
    exact hfin.elim
  · rw [hrun] at hfin
    rcases hfin with ⟨herr, rfl⟩ | ⟨rfl, hbuild, hempty, workerID, hfor, rfl⟩
    · cases err with
      | none => exact absurd rfl herr
      | some text => exact h
    · have hplain : (identity taskID).channel ≠ "" ∧ (identity taskID).cmd ≠ "" := by
        simp only [Outcome.checked, Bool.and_eq_true, bne_iff_ne] at hbuild
        exact ⟨hbuild.1.2, hbuild.2⟩
      have howner : (s.manager.started (identity taskID) taskID workerID).tables.channelWorkers.lookup
          (identity taskID).channel = some workerID := by
        rw [tables_started]
        simp [Tables.assign]
      simp only [howner]
      exact h.started hplain hempty hfor

/-! ## 停止 -/

/-- ワーカーの状態を変えない処理。 -/
theorem leaves (h : Wired identity s) {m' : WorkerManager} {t : Tables} {s' : Slots} (hl : Leaves s.manager t m')
    (hs' : s'.manager = m') (ht : Ledger identity t)
    (hsub : ∀ c i, t.channelWorkers.lookup c = some i → s.manager.tables.channelWorkers.lookup c = some i)
    (hdue : ∀ i w, s.manager.worker i = some w → w.state = .running → (∀ c, t.channelWorkers.lookup c ≠ some i) →
      s'.Due identity i)
    (hbacked : ∀ c k x i, t.Has c k x → t.channelWorkers.lookup c = some i → s'.Backed i x)
    (hmanned : ∀ i, ¬s'.Silent i → ∃ w, s.manager.worker i = some w ∧ w.state ≠ .notAvailable) : Wired identity s' := by
  have hstaffed := h.staffed.leaves hl ht hsub
  obtain ⟨hheld, hworkers, rfl⟩ := hl
  subst hs'
  have hworker (i : Nat) : s'.manager.worker i = s.manager.worker i := by simp [WorkerManager.worker, hworkers]
  constructor
  · exact hstaffed
  · intro i w hw hstate hfree
    rw [hworker] at hw
    exact hdue i w hw hstate hfree
  · exact hbacked
  · intro i hbusy
    rw [hworker]
    exact hmanned i hbusy

/-- 割り当てを失うのは、除いたタスクのほかにタスクのないチャンネルである。 -/
theorem only_of_lost {t : Tables} (h : Ledger identity t) {channel cmd taskID c : String} {pick : Option Nat} {i : Nat}
    (hw : t.channelWorkers.lookup c = some i)
    (hlost : (t.removeTask channel cmd taskID pick).channelWorkers.lookup c ≠ some i) {k x : String} (hx : t.Has c k x) :
    c = channel ∧ k = cmd ∧ x = taskID := by
  by_contra hne
  apply hlost
  rw [h.owner_removeTask]
  exact ⟨hw, k, x, (h.has_removeTask c k x).mpr ⟨hx, hne⟩⟩

/-- 三度のうち一度でも送れるならば、送り先に届く。 -/
theorem filter_receiver {target : Option Nat} {o : Outcome}
    (hsend : ∀ workerID, target = some workerID → s.manager.canSend workerID = true ∧ ∃ k < 3, o.sends k = true) :
    target.filter (fun workerID => s.manager.canSend workerID && (o.sends 0 || o.sends 1 || o.sends 2)) = target := by
  cases target with
  | none => rfl
  | some workerID =>
      obtain ⟨hcan, k, hk, hok⟩ := hsend workerID rfl
      have hany : (o.sends 0 || o.sends 1 || o.sends 2) = true := by
        rcases k with _ | _ | _ | k
        · simp [hok]
        · simp [hok]
        · simp [hok]
        · omega
      simp [hcan, hany]

theorem stopTask (h : Wired identity s) {task : StopTask} {original : Option OriginalTask} {o : Outcome}
    (ho : (SlotOp.stopTask task original o).Orderly identity s) :
    Wired identity ((SlotOp.stopTask task original o).apply identity s) := by
  have howner (workerID : Nat) (htarget : s.manager.stopTarget identity task original o = some workerID) :
      s.manager.tables.channelWorkers.lookup (identity task.originalTaskID).channel = some workerID :=
    owner_of_stopTarget h.staffed.ledger.toSound htarget
  have hsend (workerID : Nat) (htarget : s.manager.stopTarget identity task original o = some workerID) :
      s.manager.canSend workerID = true ∧ ∃ k < 3, o.sends k = true := by
    obtain ⟨w, hw, hstate⟩ := h.staffed.staffed _ workerID (howner workerID htarget)
    exact ⟨h.staffed.canSend hw (by simp [hstate]), ho (by simp [htarget])⟩
  have hleaves := (finishes_stopTask h.staffed.unlocked task original o hsend).after
  simp only [SlotOp.apply, filter_receiver hsend]
  cases htarget : s.manager.stopTarget identity task original o with
  | none =>
      simp only [htarget, Option.isSome_none, Bool.false_eq_true, if_false] at hleaves
      apply h.leaves hleaves Slots.push_manager h.staffed.ledger fun _ _ hc => hc
      · exact fun i w hw hstate hfree => (h.due i w hw hstate hfree).push
      · exact fun c k x i hhas hi => (h.backed c k x i hhas hi).push
      · exact fun i hbusy => h.manned i fun hsilent => hbusy (hsilent.push (by simp))
  | some workerID =>
      simp only [htarget, Option.isSome_some, if_true] at hleaves
      apply h.leaves hleaves Slots.push_manager h.staffed.ledger.removeTask fun c i hc =>
        ((h.staffed.ledger.owner_removeTask c i).mp hc).1
      · intro i w hw hstate hfree
        by_cases hmapped : ∃ c, s.manager.tables.channelWorkers.lookup c = some i
        -- 割り当てを失うのは停止の送り先であり、止めたタスクの完了が届く。
        · obtain ⟨c, hc⟩ := hmapped
          obtain ⟨k, x, hx⟩ := h.staffed.ledger.has_of_owner hc
          obtain ⟨rfl, rfl, rfl⟩ := only_of_lost h.staffed.ledger hc (hfree c) hx
          have hidentity := h.staffed.ledger.named _ _ _ hx
          have hsame := howner workerID htarget
          rw [hidentity, hc] at hsame
          rw [← Option.some.inj hsame]
          have hdue : ({ s with manager := (Native.stopTask identity task original o).after s.manager }.push (some i)
              (.stop task.originalTaskID (identity task.originalTaskID).cmd)).Due identity i :=
            (h.backed _ _ _ i hx hc).due
          rwa [hidentity] at hdue
        · exact (h.due i w hw hstate fun c hc => hmapped ⟨c, hc⟩).push
      · intro c k x i hhas hi
        rw [h.staffed.ledger.has_removeTask] at hhas
        rw [h.staffed.ledger.owner_removeTask] at hi
        exact (h.backed c k x i hhas.1 hi.1).push
      · intro i hbusy
        rcases eq_or_ne i workerID with rfl | hi
        · obtain ⟨w, hw, hstate⟩ := h.staffed.staffed _ i (howner i htarget)
          exact ⟨w, hw, by simp [hstate]⟩
        · exact h.manned i fun hsilent => hbusy (hsilent.push (by simpa using Ne.symm hi))

/-! ## 完了 -/

/-- 失敗でない完了は、割り当てのとおりにワーカーの状態を書く。 -/
theorem released (h : Wired identity s) {workerID index : Nat} {c : UDSCompletionMessage} {o : Outcome}
    (hc : (s.outbox workerID)[index]? = some c) :
    Wired identity { s.settle workerID index with
      manager := (releaseCompleted workerID (((s.manager.worker workerID).map Worker.generation).getD 0) c.taskID o).after
        s.manager } := by
  obtain ⟨w, hw, hstate⟩ := h.manned workerID (by
    rintro ⟨-, -, hout⟩
    simp [hout] at hc)
  have hgeneration : ((s.manager.worker workerID).map Worker.generation).getD 0 = w.generation := by simp [hw]
  rw [hgeneration]
  obtain ⟨r, hr, heq⟩ := (finishes_releaseCompleted h.staffed.unlocked workerID w.generation c.taskID o).after
  rw [heq]
  have hreleases := Ledger.releases (m := { s.manager with activeTasks := s.manager.activeTasks.erase c.taskID })
    h.staffed.ledger workerID c.taskID o
  rw [← hr] at hreleases
  obtain ⟨hledger, hrel⟩ := hreleases
  have hl : Leaves s.manager r.tables r := by
    rw [hr]
    unfold WorkerManager.withoutCompleted
    split
    · exact ⟨rfl, rfl, rfl⟩
    · exact ⟨rfl, rfl, rfl⟩
  have hworker (i : Nat) : r.worker i = s.manager.worker i := by simp [WorkerManager.worker, hl.2.1]
  have htables : (r.setState workerID w.generation (r.stateAfter workerID)).tables = r.tables := setState_tables
  have hset (i : Nat) : (r.setState workerID w.generation (r.stateAfter workerID)).worker i =
      if i = workerID then some { w with state := r.stateAfter workerID } else s.manager.worker i := by
    rw [worker_setState (by rw [hworker, hw]), hworker]
  have hsub (channel : String) (i : Nat) (hi : r.tables.channelWorkers.lookup channel = some i) :
      s.manager.tables.channelWorkers.lookup channel = some i := ((hrel.owner channel i).mp hi).1
  constructor
  · exact h.staffed.setState hl hledger hw hstate (fun channel i _ => hsub channel i)
      (hledger.stateAfter workerID)
  · intro i x hx hrunning hfree
    simp only [htables] at hfree
    simp only [hset] at hx
    split at hx
    · rename_i hi
      rw [← Option.some.inj hx] at hrunning
      obtain ⟨channel, hchannel⟩ := owned_of_running hledger hrunning
      rw [hi] at hfree
      exact absurd hchannel (hfree channel)
    · rename_i hi
      apply Slots.Due.settle_ne _ hi
      apply h.due i x hx hrunning
      intro channel hchannel
      exact hfree channel ((hrel.owner_ne h.staffed.ledger hi).mpr hchannel)
  · intro channel cmd taskID i hhas hi
    simp only [htables] at hhas hi
    rw [hrel.has] at hhas
    apply Slots.Backed.settle hc
    · by_contra hboth
      push Not at hboth
      apply hhas.2
      rw [← hboth.1]
      exact ⟨hsub channel i hi, hboth.2⟩
    · exact h.backed channel cmd taskID i hhas.1 (hsub channel i hi)
  · intro i hbusy
    simp only [hset]
    split
    · refine ⟨_, rfl, ?_⟩
      rcases hledger.stateAfter workerID with hrunning | ⟨hidle, -⟩
      · simp [hrunning]
      · simp [hidle]
    · exact h.manned i fun hsilent => hbusy hsilent.settle

theorem manned_failReceiver (h : Wired identity s) {c : UDSCompletionMessage} {recorded : Int} {o : Outcome} {i : Nat}
    (hi : s.manager.failReceiver c (some recorded) o = some i) :
    ∃ w, s.manager.worker i = some w ∧ w.state ≠ .notAvailable := by
  unfold WorkerManager.failReceiver at hi
  split at hi
  · obtain ⟨j, hj, rfl⟩ := Option.map_eq_some_iff.mp hi
    obtain ⟨hrecorded, hreaches⟩ := Option.filter_eq_some_iff.mp hj
    simp only [decide_eq_true_eq] at hreaches
    obtain ⟨⟨-, -, -, hpresent⟩, hcan, -⟩ := hreaches
    obtain ⟨w, hw⟩ := Option.isSome_iff_exists.mp hpresent
    rw [canSend_of_worker hw] at hcan
    refine ⟨w, hw, ?_⟩
    rcases h.staffed.equipped _ w hw with ⟨-, -, hconn, -⟩ | ⟨hne, -⟩
    · simp [hconn] at hcan
    · exact hne
  · cases hi

/-- `failTask` は、割り当てだけを消す。 -/
theorem failed (h : Wired identity s) {workerID index : Nat} {c : UDSCompletionMessage} {recorded : Int} {o : Outcome}
    (hc : (s.outbox workerID)[index]? = some c) (hsettles : FailSettles identity s.manager
      ((s.settle workerID index).push (s.manager.failReceiver c (some recorded) o)
        (.stop c.taskID (identity c.taskID).cmd)) c.taskID recorded) :
    Wired identity ({ s.settle workerID index with
      manager := (failTask identity c.taskID recorded o).after s.manager }.push
        (s.manager.failReceiver c (some recorded) o) (.stop c.taskID (identity c.taskID).cmd)) := by
  have hleaves := (finishes_failTask identity h.staffed.unlocked c.taskID recorded o).after
  have hmanned (i : Nat) (hbusy : ¬({ s.settle workerID index with
      manager := (failTask identity c.taskID recorded o).after s.manager }.push
        (s.manager.failReceiver c (some recorded) o) (.stop c.taskID (identity c.taskID).cmd)).Silent i) :
      ∃ w, s.manager.worker i = some w ∧ w.state ≠ .notAvailable := by
    by_cases hi : s.manager.failReceiver c (some recorded) o = some i
    · exact h.manned_failReceiver hi
    · exact h.manned i fun hsilent => hbusy (hsilent.settle.push hi)
  by_cases hreaches : s.manager.FailReaches c.taskID recorded
  · rw [if_pos hreaches] at hleaves
    apply h.leaves hleaves Slots.push_manager h.staffed.ledger.removeTask (fun channel i hi =>
      ((h.staffed.ledger.owner_removeTask channel i).mp hi).1) _ _ hmanned
    · intro i w hw hstate hfree
      apply Slots.Due.withManager
      apply hsettles.due i w hw hstate
      intro channel cmd x hchannel hx
      exact ⟨(only_of_lost h.staffed.ledger hchannel (hfree channel) hx).2.2, hreaches⟩
    · intro channel cmd x i hhas hi
      rw [h.staffed.ledger.has_removeTask] at hhas
      rw [h.staffed.ledger.owner_removeTask] at hi
      apply Slots.Backed.push
      apply Slots.Backed.settle hc _ (h.backed channel cmd x i hhas.1 hi.1)
      right
      rintro rfl
      have hidentity := h.staffed.ledger.named _ channel cmd hhas.1
      exact hhas.2 (by simp [hidentity])
  · rw [if_neg hreaches] at hleaves
    apply h.leaves hleaves Slots.push_manager h.staffed.ledger (fun _ _ hi => hi) _ _ hmanned
    · intro i w hw hstate hfree
      apply Slots.Due.withManager
      apply hsettles.due i w hw hstate
      intro channel cmd x hchannel
      exact absurd hchannel (hfree channel)
    · intro channel cmd x i hhas hi
      rcases eq_or_ne x c.taskID with rfl | hx
      · exact (hsettles.backed hreaches channel cmd i hhas hi).withManager
      · exact (Slots.Backed.settle hc (.inr hx) (h.backed channel cmd x i hhas hi)).push

theorem handleTaskCompletion (h : Wired identity s) {workerID index : Nat} {record : Option Int} {o : Outcome}
    (ho : (SlotOp.handleTaskCompletion workerID index record o).Orderly identity s) :
    Wired identity ((SlotOp.handleTaskCompletion workerID index record o).apply identity s) := by
  simp only [SlotOp.apply]
  cases hc : (s.outbox workerID)[index]? with
  | none => exact h
  | some c =>
      by_cases hfailed : (!c.success && c.isUnrecoverable) = true
      · cases record with
        | none => simpa [Native.handleTaskCompletion, hfailed, WorkerManager.failReceiver, Slots.push] using h.released hc
        | some recorded =>
            have hsettles := ho c recorded hc (by simp_all) (by simp_all) rfl
            simpa [Native.handleTaskCompletion, hfailed] using h.failed hc hsettles
      · simpa [Native.handleTaskCompletion, hfailed, WorkerManager.failReceiver, Slots.push] using h.released hc

/-! ## すべての操作 -/

theorem apply (h : Wired identity s) {op : SlotOp} (ho : op.Orderly identity s) : Wired identity (op.apply identity s) := by
  cases op with
  | monitorWorker workerID ok => exact h.monitorWorker
  | startNativeRecorderTask taskID o => exact h.startNativeRecorderTask ho
  | track taskID => exact h.track
  | stopTask task original o => exact h.stopTask ho
  | receive workerID r => exact h.receive ho
  | finish workerID c =>
      simp only [SlotOp.apply]
      split
      · rename_i hc
        exact h.finish hc
      · exact h
  | handleTaskCompletion workerID index record o => exact h.handleTaskCompletion ho

end Wired

theorem noLeak_of_orderly {identity : String → TaskIdentity} {podID : String} {numWorkers : Nat} {s : Slots}
    (hr : (slots identity).Reach (SlotOp.Orderly identity) (.init podID numWorkers) s) (hquiet : s.Quiet) : s.NoLeak := by
  have hwired : Wired identity s := hr.invariant .init fun op s h ho => h.apply ho
  exact hwired.noLeak hquiet

/-- 二つのタスクは、同じチャンネルの違う種類である。 -/
def twoKinds (taskID : String) : TaskIdentity := ⟨"c", if taskID = "a" then "record" else "snapshot"⟩

/-- 録画が回復できないエラーで終わった後に、スナップショットが終わる。 -/
def failOneOfTwo : List SlotOp :=
  [.monitorWorker 0 true, .startNativeRecorderTask "a" {}, .startNativeRecorderTask "b" {}, .receive 0 {}, .receive 0 {},
    .finish 0 ⟨"a", false, true⟩, .handleTaskCompletion 0 0 (some 0) {}, .receive 0 {}, .finish 0 ⟨"b", true, false⟩,
    .handleTaskCompletion 0 0 none {}]

theorem failOneOfTwo_noLeak : ((slots twoKinds).run failOneOfTwo (.init "p" 1)).NoLeak := by
  have hmeet : (slots twoKinds).AllMeet (SlotOp.Orderly twoKinds) failOneOfTwo (.init "p" 1) := by
    refine ⟨trivial, fun _ _ _ => rfl, fun _ _ _ => rfl, fun _ _ _ => rfl, fun _ _ _ => rfl, trivial, ?_, fun _ _ _ => rfl,
      trivial, ?_, trivial⟩
    · intro c recorded hc _ _ hrecord
      cases hrecord
      have hcompletion : some (⟨"a", false, true⟩ : UDSCompletionMessage) = some c := hc
      cases hcompletion
      constructor
      · intro workerID w hw _ honly
        rcases workerID with _ | workerID
        · have hother := honly "c" "snapshot" "b" rfl ⟨_, _, rfl, rfl, List.mem_singleton.mpr rfl⟩
          exact absurd hother.1 (by decide)
        · have habsent : (none : Option Worker) = some w := hw
          cases habsent
      · intro hreaches
        exact absurd ⟨rfl, by decide, by decide, rfl⟩ hreaches
    · intro c recorded hc hfailed
      have hcompletion : some (⟨"b", true, false⟩ : UDSCompletionMessage) = some c := hc
      cases hcompletion
      cases hfailed
  apply noLeak_of_orderly (System.reach_run hmeet)
  intro workerID
  rcases workerID with _ | workerID
  · exact ⟨rfl, rfl⟩
  · exact ⟨rfl, rfl⟩

end RtcEgress.Native
