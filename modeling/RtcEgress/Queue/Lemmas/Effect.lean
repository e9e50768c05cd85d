import RtcEgress.Queue.Lemmas.Follows

/-!
# 命令の効果を欄ごとに読む

命令が状態のどの欄をどう変えるかを、欄ごとに一つの補題で述べる。以後の証明は `Cmd.effect` を展開しない。
-/

namespace RtcEgress.Queue

open RtcEgress.Lib

/-! ## リストの操作 -/

namespace World

variable {w : World} {q k id : String}

theorem list_setList {l : List String} {changed} : (w.setList q l changed).list k = if k = q then l else w.list k :=
  KeyedLists.get_put ..

theorem list_lpush : (w.lpush q id).list k = if k = q then id :: w.list q else w.list k := list_setList

end World

/-! ## 記録 -/

namespace Task

/-- 公開の後に変わらない欄。 -/
def identity (t : Task) : String × String × String × String × String × Option Payload :=
  (t.id, t.cmd, t.action, t.channel, t.requestID, t.payload)

end Task

/-- 命令が書く記録。 -/
def Cmd.written : (c : Cmd) → c.Resp → Option (String × Task)
  | .publishTx _ task, _ => some (task.id, task)
  | .claimTx podID id now read, _ => some (id, read.claimed podID now)
  | .setWorker id workerID read, _ => some (id, read.withWorker workerID)
  | .setResult id state message now read, _ => some (id, read.withResult state message now)
  | .renewTx _ id now read, _ => some (id, read.renewed now)
  | .recoverTx _ id now read, _ => some (id, read.recovered now)
  | .moveBackTx _ id read, _ => some (id, read.movedBack)
  | .timeoutTx id _ _ age read, true => some (id, read.timedOut age)
  | .setTarget _ id target workerID read, _ => some (id, read.retargeted target workerID)
  | _, _ => none

/-- 書き戻す命令が持つ、読み取った写し。 -/
def Cmd.copy : Cmd → Option (String × Task)
  | .claimTx _ id _ read | .setWorker id _ read | .setResult id _ _ _ read | .renewTx _ id _ read
  | .recoverTx _ id _ read | .moveBackTx _ id read | .timeoutTx id _ _ _ read | .setTarget _ id _ _ read =>
      some (id, read)
  | _ => none

section Fields

variable {w : World} {c : Cmd} {r : c.Resp} {x : String}

attribute [local simp] Cmd.effect World.setTask World.setLease World.expireLease World.delLease
  World.setDedupe World.delDedupe World.setList World.lpush World.rpush World.lrem World.lremLast World.rpoplpush

theorem effect_task : (c.effect w r).task x =
    match c.written r with
    | some (id, t) => if x = id then some t else w.task x
    | none => w.task x := by
  cases c
  case timeoutTx => cases r <;> simp [Cmd.written]
  case brPopLPush => cases r <;> simp [Cmd.written]
  all_goals simp [Cmd.written]

/-- 命令の後の記録は、前のままか、命令が書いたものである。 -/
theorem effect_task_cases (w : World) (c : Cmd) (r : c.Resp) (x : String) :
    (c.effect w r).task x = w.task x ∧ (∀ t, c.written r ≠ some (x, t)) ∨
      ∃ t, c.written r = some (x, t) ∧ (c.effect w r).task x = some t := by
  rw [effect_task]
  cases hw : c.written r with
  | none => exact .inl ⟨rfl, by simp⟩
  | some p =>
      obtain ⟨id, t⟩ := p
      by_cases hx : x = id
      · subst hx
        exact .inr ⟨t, rfl, by simp⟩
      · exact .inl ⟨by simp [hx], by simp [Ne.symm hx]⟩

theorem effect_taskRev : (c.effect w r).taskRev x =
    match c.written r with
    | some (id, _) => if x = id then w.taskRev x + 1 else w.taskRev x
    | none => w.taskRev x := by
  cases c
  case timeoutTx => cases r <;> simp [Cmd.written]
  case brPopLPush => cases r <;> simp [Cmd.written]
  all_goals simp [Cmd.written]

theorem written_cases {id t} (h : c.written r = some (id, t)) :
    (∃ queue, c = .publishTx queue t ∧ id = t.id) ∨
      ∃ read, c.copy = some (id, read) ∧ t.identity = read.identity := by
  cases c
  case publishTx queue task =>
      simp only [Cmd.written, Option.some.injEq, Prod.mk.injEq] at h
      obtain ⟨rfl, rfl⟩ := h
      exact .inl ⟨queue, rfl, rfl⟩
  case timeoutTx =>
      cases r
      · simp [Cmd.written] at h
      · simp only [Cmd.written, Option.some.injEq, Prod.mk.injEq] at h
        obtain ⟨rfl, rfl⟩ := h
        exact .inr ⟨_, rfl, rfl⟩
  all_goals first
    | (simp only [Cmd.written, Option.some.injEq, Prod.mk.injEq] at h
       obtain ⟨rfl, rfl⟩ := h
       exact .inr ⟨_, rfl, rfl⟩)
    | simp [Cmd.written] at h

theorem Expected.copy {sc} {h : Acts} {id read} (hE : Expected sc c h) (hc : c.copy = some (id, read)) :
    ∃ reader, ⟨.getTask reader id, some read⟩ ∈ h := by
  cases c <;> simp only [Cmd.copy, reduceCtorEq, Option.some.injEq, Prod.mk.injEq] at hc <;>
    obtain ⟨rfl, rfl⟩ := hc
  case claimTx podID id now read =>
      obtain ⟨-, ⟨h', rfl⟩, -⟩ := hE
      exact ⟨.claim podID, by simp⟩
  case setWorker =>
      obtain ⟨-, h', rfl⟩ := hE
      exact ⟨.worker, by simp⟩
  case setResult id state message now read =>
      obtain ⟨-, h', rfl⟩ := hE
      exact ⟨.result state, by simp⟩
  case renewTx podID id now read =>
      obtain ⟨-, h', rfl⟩ := hE
      exact ⟨.renew podID, by simp⟩
  case recoverTx =>
      obtain ⟨-, -, h', rfl⟩ := hE
      exact ⟨.recover, by simp⟩
  case moveBackTx =>
      obtain ⟨-, h', rfl⟩ := hE
      exact ⟨.moveBack, by simp⟩
  case timeoutTx =>
      obtain ⟨-, -, -, position, now, h', rfl, -⟩ := hE
      exact ⟨.aged, by simp⟩
  case setTarget => exact ⟨.deferTask, hE.2.2.1⟩

/-! ## 他の欄 -/

theorem effect_now : (c.effect w r).now = w.now := by
  cases c
  case timeoutTx => cases r <;> simp
  case brPopLPush => cases r <;> simp
  all_goals simp

theorem effect_used : (c.effect w r).used =
    match c, r with
    | .generateTaskID _ _ _, id => id :: w.used
    | _, _ => w.used := by
  cases c
  case timeoutTx => cases r <;> simp
  case brPopLPush => cases r <;> simp
  all_goals simp

theorem effect_dedupe : (c.effect w r).dedupe x =
    match c with
    | .publishTx _ task => if x = task.dedupeKey then some task.id else w.dedupe x
    | .delDedupe _ key => if x = key then none else w.dedupe x
    | _ => w.dedupe x := by
  cases c
  case timeoutTx => cases r <;> simp
  case brPopLPush => cases r <;> simp
  all_goals simp

theorem effect_lease : (c.effect w r).lease x =
    match c with
    | .claimTx podID id _ _ => if x = id then some ⟨podID, w.now + leaseTimeout⟩ else w.lease x
    | .renewTx _ id _ _ =>
        if x = id then (w.lease x).map fun l => { l with expireAt := w.now + leaseTimeout } else w.lease x
    | .recoverTx _ id _ _ | .moveBackTx _ id _ | .delLease id => if x = id then none else w.lease x
    | _ => w.lease x := by
  cases c
  case timeoutTx => cases r <;> simp
  case brPopLPush => cases r <;> simp
  all_goals simp

theorem effect_proxy : (c.effect w r).proxy x =
    match c with
    | .createProxy podID => x == podID || w.proxy x
    | _ => w.proxy x := by
  cases c
  case timeoutTx => cases r <;> simp
  case brPopLPush => cases r <;> simp
  all_goals simp

end Fields

end RtcEgress.Queue
