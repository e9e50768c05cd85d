import RtcEgress.Native.Lemmas.Effects
import RtcEgress.Native.Lemmas.Ledger

/-!
# ワーカーの枠

`WorkerManager` と、ワーカーとの間を流れる通知を合わせた系である。ワーカーは、開始を受け入れるか失敗の完了で断り、
受け入れたタスクをいつか完了する。完了はどの順に処理してもよく、Redis の記録は古くてもよい。

通知が流れていないとき、割り当てのないワーカーが空いていて、表のタスクがどれも動いていることを調べる。
-/

namespace RtcEgress.Native

open RtcEgress.Lib

/-! ## 系 -/

/-- ワーカーへのコマンド。 -/
inductive Message where
  | start (taskID : String)
  | stop (taskID cmd : String)
  deriving DecidableEq

/-- コマンドを読んだワーカーの振る舞い。`drops` は開始に何も答えないこと、`obeys` は種類の違う停止に従うことである。 -/
structure Reaction where
  drops : Bool := false
  accepts : Bool := true
  obeys : Bool := false
  success : Bool := true
  isUnrecoverable : Bool := false

structure Slots where
  manager : WorkerManager
  inbox : Nat → List Message
  /-- 受け入れて、まだ完了していないタスク。 -/
  accepted : Nat → List String
  outbox : Nat → List UDSCompletionMessage

namespace Slots

def init (podID : String) (numWorkers : Nat) : Slots := ⟨.init podID numWorkers, fun _ => [], fun _ => [], fun _ => []⟩

def complete (s : Slots) (workerID : Nat) (c : UDSCompletionMessage) : Slots :=
  { s with outbox := Function.update s.outbox workerID (s.outbox workerID ++ [c]) }

/-- 受け入れたタスクの完了。 -/
def finish (s : Slots) (workerID : Nat) (c : UDSCompletionMessage) : Slots :=
  { s with accepted := Function.update s.accepted workerID ((s.accepted workerID).erase c.taskID) }.complete workerID c

def push (s : Slots) (receiver : Option Nat) (message : Message) : Slots :=
  match receiver with
  | some workerID => { s with inbox := Function.update s.inbox workerID (s.inbox workerID ++ [message]) }
  | none => s

/-- 届いている完了の一つを取り出す。 -/
def settle (s : Slots) (workerID index : Nat) : Slots :=
  { s with outbox := Function.update s.outbox workerID ((s.outbox workerID).eraseIdx index) }

variable (identity : String → TaskIdentity)

/-- ワーカーが次のコマンドを読む。 -/
def receive (s : Slots) (workerID : Nat) (r : Reaction) : Slots :=
  match s.inbox workerID with
  | [] => s
  | message :: rest =>
      let s := { s with inbox := Function.update s.inbox workerID rest }
      match message with
      | .start taskID =>
          if r.drops then s
          else if r.accepts then
            { s with accepted := Function.update s.accepted workerID ((s.accepted workerID).insert taskID) }
          else s.complete workerID ⟨taskID, false, r.isUnrecoverable⟩
      | .stop taskID cmd =>
          if taskID ∈ s.accepted workerID ∧ (cmd = (identity taskID).cmd ∨ r.obeys = true) then
            s.finish workerID ⟨taskID, r.success, r.isUnrecoverable⟩
          else s

end Slots

inductive SlotOp where
  | monitorWorker (workerID : Nat) (ok : Bool)
  | startNativeRecorderTask (taskID : String) (o : Outcome)
  | track (taskID : String)
  | stopTask (task : StopTask) (original : Option OriginalTask) (o : Outcome)
  | receive (workerID : Nat) (r : Reaction)
  | finish (workerID : Nat) (c : UDSCompletionMessage)
  /-- `index` は、ワーカーの送った完了のうちの何番目を処理するかである。 -/
  | handleTaskCompletion (workerID index : Nat) (record : Option Int) (o : Outcome)

variable (identity : String → TaskIdentity)

/-- `buildUDSMessageFromQueueTask` は、チャンネルか種類が空なら失敗する。 -/
def Outcome.checked (o : Outcome) (i : TaskIdentity) : Outcome :=
  { o with build := o.build && i.channel != "" && i.cmd != "" }

/-- 失敗の後始末が停止を送る相手。 -/
def WorkerManager.failReceiver (m : WorkerManager) (c : UDSCompletionMessage) (record : Option Int) (o : Outcome) :
    Option Nat :=
  if !c.success && c.isUnrecoverable then
    (record.filter fun workerID => m.FailReaches c.taskID workerID ∧ m.canSend workerID.toNat ∧ o.sends 0).map Int.toNat
  else none

def SlotOp.apply (op : SlotOp) (s : Slots) : Slots :=
  match op with
  | .monitorWorker workerID ok => { s with manager := (Native.monitorWorker workerID ok).after s.manager }
  | .startNativeRecorderTask taskID o =>
      match (Native.startNativeRecorderTask identity taskID (o.checked (identity taskID))).run s.manager with
      | (some none, m) =>
          { s with manager := m }.push (m.tables.channelWorkers.lookup (identity taskID).channel) (.start taskID)
      | (_, m) => { s with manager := m }
  | .track taskID => { s with manager := (Native.track taskID).after s.manager }
  | .stopTask task original o =>
      { s with manager := (Native.stopTask identity task original o).after s.manager }.push
        ((s.manager.stopTarget identity task original o).filter fun workerID =>
          s.manager.canSend workerID && (o.sends 0 || o.sends 1 || o.sends 2))
        (.stop task.originalTaskID task.cmd)
  | .receive workerID r => s.receive identity workerID r
  | .finish workerID c => if c.taskID ∈ s.accepted workerID then s.finish workerID c else s
  | .handleTaskCompletion workerID index record o =>
      match (s.outbox workerID)[index]? with
      | none => s
      | some c =>
          let generation := ((s.manager.worker workerID).map Worker.generation).getD 0
          let m := (Native.handleTaskCompletion identity workerID generation c record o).after s.manager
          { s.settle workerID index with manager := m }.push (s.manager.failReceiver c record o)
            (.stop c.taskID (identity c.taskID).cmd)

def slots : System SlotOp := ⟨Slots, SlotOp.apply identity⟩

/-! ## 漏れないこと -/

/-- どちらの向きにも通知が流れていない。 -/
def Slots.Quiet (s : Slots) : Prop := ∀ workerID, s.inbox workerID = [] ∧ s.outbox workerID = []

/-- タスクのあるチャンネルに割り当てられた、動いているワーカーのほかは空いていて、表のタスクはどれも動いている。 -/
structure Slots.NoLeak (s : Slots) : Prop where
  free : ∀ workerID w, s.manager.worker workerID = some w → w.alive = true →
    (¬∃ channel cmd taskID, s.manager.tables.workerChannels.lookup workerID = some channel ∧
      s.manager.tables.Has channel cmd taskID) → w.state = .idle
  running : ∀ channel cmd taskID, s.manager.tables.Has channel cmd taskID →
    ∃ workerID, s.manager.tables.channelWorkers.lookup channel = some workerID ∧ taskID ∈ s.accepted workerID

def SlotsNotLeaked (g : ∀ identity, (slots identity).Condition) : Prop :=
  ∀ identity podID numWorkers s, (slots identity).Reach (g identity) (.init podID numWorkers) s → s.Quiet → s.NoLeak

/-! ## 漏れる操作の列 -/

def oneRecording (_ : String) : TaskIdentity := ⟨"c", "record"⟩

/-- 録画が回復できないエラーで終わり、`failTask` の送った停止をワーカーが読む。 -/
def failOnce : List SlotOp :=
  [.monitorWorker 0 true, .startNativeRecorderTask "a" {}, .receive 0 {}, .finish 0 ⟨"a", false, true⟩,
    .handleTaskCompletion 0 0 (some 0) {}, .receive 0 {}]

theorem not_slotsNotLeaked : ¬SlotsNotLeaked fun _ _ _ => True := by
  intro h
  have hmeet : (slots oneRecording).AllMeet (fun _ _ => True) failOnce (.init "p" 1) :=
    System.allMeet_of_forall (fun _ _ => trivial) _ _
  have hquiet : ((slots oneRecording).run failOnce (.init "p" 1)).Quiet := by
    intro workerID
    rcases workerID with _ | workerID
    · exact ⟨rfl, rfl⟩
    · exact ⟨rfl, rfl⟩
  have hleak := h oneRecording "p" 1 _ (System.reach_run hmeet) hquiet
  have hnone : ((slots oneRecording).run failOnce (.init "p" 1)).manager.tables.workerChannels.lookup 0 = none := rfl
  have hidle := hleak.free 0 ⟨0, .running, true, true, true⟩ rfl rfl
  simp [hnone] at hidle

end RtcEgress.Native
