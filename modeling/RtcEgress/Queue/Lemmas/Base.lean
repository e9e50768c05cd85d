import RtcEgress.Queue.Lemmas.Effect

/-!
# すべての実行に共通の不変条件

記録は消えず、公開のときに決まる欄は変わらない。変更の回数が同じなら内容も同じである。生成した名前は、
公開されるまで記録を持たず、生成した一つのスレッドだけが公開する。
-/

namespace RtcEgress.Queue

open RtcEgress.Lib

/-! ## 実行の一歩 -/

theorem exec_eq {o : Oracle} {c : Cmd} {w w' : World} {r : c.Resp} (h : machine.exec o c w = some (r, w')) :
    c.reply o w = some r ∧ w' = c.effect w r := by
  obtain ⟨r', hr, heq⟩ := Option.map_eq_some_iff.mp h
  cases heq
  exact ⟨hr, rfl⟩

theorem env_cases {e : Env} {w w' : World} (h : machine.env e w = some w') :
    (∃ d, w' = { w with now := w.now + d }) ∨
      ∃ id l, w.lease id = some l ∧ l.expireAt ≤ w.now ∧ w' = w.delLease id := by
  cases e with
  | tick d => exact .inl ⟨d, (Option.some.inj h).symm⟩
  | leaseExpire id =>
      simp only [machine, Env.apply] at h
      split at h
      · rename_i l hl
        split at h
        · rename_i hexp
          exact .inr ⟨id, l, hl, hexp, (Option.some.inj h).symm⟩
        · cases h
      · cases h

/-! ## 時間に沿った状態の関係 -/

/-- キーのリストは、変更の回数が同じなら同じである。 -/
def World.ListLe (w w' : World) : Prop :=
  ∀ k, w.listRev k ≤ w'.listRev k ∧ (w.listRev k = w'.listRev k → w.list k = w'.list k)

namespace World.ListLe

theorem refl (w : World) : ListLe w w := fun _ => ⟨Nat.le_refl _, fun _ => rfl⟩

theorem trans {w₁ w₂ w₃ : World} (h₁ : ListLe w₁ w₂) (h₂ : ListLe w₂ w₃) : ListLe w₁ w₃ := by
  intro k
  obtain ⟨hle₁, heq₁⟩ := h₁ k
  obtain ⟨hle₂, heq₂⟩ := h₂ k
  refine ⟨Nat.le_trans hle₁ hle₂, fun heq => ?_⟩
  rw [heq₁ (by omega), heq₂ (by omega)]

theorem setList {w : World} {q l changed} (h : changed = false → l = w.list q) :
    ListLe w (w.setList q l changed) := by
  intro k
  rw [list_setList]
  by_cases hk : k = q
  · subst hk
    cases changed with
    | true => simp [World.setList]
    | false => simp [World.setList, h rfl]
  · simp [World.setList, hk]

theorem lpush {w : World} {q id} : ListLe w (w.lpush q id) := setList nofun

theorem rpush {w : World} {q id} : ListLe w (w.rpush q id) := setList nofun

theorem lrem {w : World} {q id} : ListLe w (w.lrem q id) :=
  setList fun h => List.erase_of_not_mem (by simpa using h)

theorem lremLast {w : World} {q id} : ListLe w (w.lremLast q id) := by
  refine setList fun h => ?_
  rw [List.erase_of_not_mem (by simpa using h), List.reverse_reverse]

theorem rpoplpush {w : World} {src dst id} : ListLe w (w.rpoplpush src dst id) :=
  ListLe.trans (show ListLe w (w.setList src (w.list src).dropLast) from setList nofun) lpush

theorem setTask {w : World} {id t} : ListLe w (w.setTask id t) := refl w

theorem delLease {w : World} {id} : ListLe w (w.delLease id) := refl w

theorem setDedupe {w : World} {key id} : ListLe w (w.setDedupe key id) := refl w

theorem effect {w : World} {c : Cmd} {r : c.Resp} : ListLe w (c.effect w r) := by
  cases c
  case publishTx => exact lpush.trans (setTask.trans setDedupe)
  case recoverTx => exact setTask.trans (lpush.trans (lrem.trans delLease))
  case moveBackTx => exact setTask.trans (lpush.trans (lrem.trans delLease))
  case timeoutTx =>
      cases r
      · exact refl w
      · exact setTask.trans lrem
  case brPopLPush =>
      cases r
      · exact refl w
      · exact rpoplpush
  case deferTx => exact lrem.trans rpush
  case lrem => exact lrem
  case lpush => exact lpush
  case lremLast => exact lremLast
  all_goals exact refl w

end World.ListLe

/-- 後の状態が、前の状態から続きうるものである。 -/
structure World.Le (w w' : World) : Prop where
  now : w.now ≤ w'.now
  used : w.used ⊆ w'.used
  rev : ∀ id, w.taskRev id ≤ w'.taskRev id ∧ (w.taskRev id = w'.taskRev id → w.task id = w'.task id)
  list : World.ListLe w w'
  identity : ∀ id t, w.task id = some t → ∃ t', w'.task id = some t' ∧ t'.identity = t.identity

instance : IsTrans World World.Le where
  trans w₁ w₂ w₃ h₁ h₂ := by
    refine ⟨Nat.le_trans h₁.now h₂.now, fun _ hx => h₂.used (h₁.used hx), fun id => ?_,
      h₁.list.trans h₂.list, fun id t ht => ?_⟩
    · obtain ⟨hle₁, heq₁⟩ := h₁.rev id
      obtain ⟨hle₂, heq₂⟩ := h₂.rev id
      refine ⟨Nat.le_trans hle₁ hle₂, fun heq => ?_⟩
      rw [heq₁ (by omega), heq₂ (by omega)]
    · obtain ⟨t', ht', hid'⟩ := h₁.identity id t ht
      obtain ⟨t'', ht'', hid''⟩ := h₂.identity id t' ht'
      exact ⟨t'', ht'', hid''.trans hid'⟩

theorem World.le_env {e : Env} {w w' : World} (h : machine.env e w = some w') : w.Le w' := by
  obtain ⟨d, rfl⟩ | ⟨id, l, -, -, rfl⟩ := env_cases h
  · exact ⟨Nat.le_add_right _ _, fun _ hx => hx, fun _ => ⟨Nat.le_refl _, fun _ => rfl⟩, .refl w,
      fun _ t ht => ⟨t, ht, rfl⟩⟩
  · exact ⟨Nat.le_refl _, fun _ hx => hx, fun _ => ⟨Nat.le_refl _, fun _ => rfl⟩, .refl w,
      fun _ t ht => ⟨t, ht, rfl⟩⟩

/-! ## 不変条件 -/

/-- 実行した命令の列。 -/
abbrev Trace := List (Event machine)

structure Base (w : World) (tr : Trace) : Prop where
  recorded : Recorded tr
  ordered : Ordered World.Le w tr
  used : ∀ id, (w.task id).isSome → id ∈ w.used
  fresh : ∀ i id, pending (own i tr) = some id → id ∈ w.used ∧ w.task id = none
  unique : ∀ i j id, pending (own i tr) = some id → pending (own j tr) = some id → i = j

theorem base_start {w : World} (h : ∀ id, (w.task id).isSome → id ∈ w.used) : Base w [] :=
  ⟨by simp [Recorded], List.pairwise_singleton .., h, by simp [pending], by simp [pending]⟩

theorem base_init : Base .init [] := base_start (by simp [World.init])

/-- 読み取りが返した記録は、その直前の状態の記録である。 -/
theorem recorded_getTask {tr : Trace} (h : Recorded tr) (i : Nat) (reader : Reader) {id found} {w : World}
    (he : ⟨i, .getTask reader id, found, w⟩ ∈ tr) : w.task id = found := by
  obtain ⟨o, s', hex⟩ := h _ he
  exact Option.some.inj (exec_eq hex).1

/-- 読み取った記録は今もあり、公開のときに決まる欄は変わっていない。 -/
theorem Base.read {w : World} {tr : Trace} (h : Base w tr) {i reader id read}
    (hr : ⟨.getTask reader id, some read⟩ ∈ own i tr) :
    ∃ t, w.task id = some t ∧ t.identity = read.identity := by
  obtain ⟨w₀, he⟩ := mem_of_own hr
  exact (h.ordered.le he).identity id read (recorded_getTask h.recorded _ _ he)

/-- 書き込む命令の前後の記録。 -/
theorem Base.written {w : World} {tr : Trace} (h : Base w tr) {sc i c} {r : c.Resp} {id t}
    (hE : Expected sc c (own i tr)) (hw : c.written r = some (id, t)) :
    (∃ queue, c = .publishTx queue t ∧ id = t.id ∧ w.task id = none ∧ pending (own i tr) = some id) ∨
      ∃ read t₀, c.copy = some (id, read) ∧ w.task id = some t₀ ∧ t₀.identity = read.identity ∧
        t.identity = read.identity := by
  obtain ⟨queue, rfl, rfl⟩ | ⟨read, hc, hid⟩ := written_cases hw
  · exact .inl ⟨queue, rfl, rfl, (h.fresh i _ hE.2.1).2, hE.2.1⟩
  · obtain ⟨reader, hmem⟩ := hE.copy hc
    obtain ⟨t₀, ht₀, hid₀⟩ := h.read hmem
    exact .inr ⟨read, t₀, hc, ht₀, hid₀, hid⟩

theorem Base.le_effect {w : World} {tr : Trace} (h : Base w tr) {sc i c} {r : c.Resp}
    (hE : Expected sc c (own i tr)) : w.Le (c.effect w r) := by
  refine ⟨Nat.le_of_eq effect_now.symm, ?_, fun id => ?_, .effect, fun id t ht => ?_⟩
  · rw [effect_used]
    split
    · exact List.subset_cons_self ..
    · exact fun _ hx => hx
  · rw [effect_task, effect_taskRev]
    cases c.written r with
    | none => simp
    | some p =>
        obtain ⟨id', t'⟩ := p
        by_cases hid : id = id' <;> simp [hid]
  · rw [effect_task]
    cases hw : c.written r with
    | none => exact ⟨t, ht, rfl⟩
    | some p =>
        obtain ⟨id', t'⟩ := p
        by_cases hid : id = id'
        · subst hid
          obtain ⟨_, _, _, hnone, _⟩ | ⟨read, t₀, _, ht₀, h₀, h'⟩ := h.written hE hw
          · rw [hnone] at ht; cases ht
          · rw [ht₀] at ht
            cases ht
            exact ⟨t', by simp, h'.trans h₀.symm⟩
        · exact ⟨t, by simp [hid, ht], rfl⟩

/-- 命令の後に名前が保留になるのは、その命令が名前を生成したか、生成の直後に時刻を読んだときである。 -/
theorem pending_cons {c : Cmd} {r : c.Resp} {h : Acts} {id} (hp : pending (⟨c, r⟩ :: h) = some id) :
    (∃ cmd channel requestID, (⟨c, r⟩ : Act Cmd Cmd.Resp) = ⟨.generateTaskID cmd channel requestID, id⟩) ∨
      pending h = some id ∧ ∃ now, (⟨c, r⟩ : Act Cmd Cmd.Resp) = ⟨.timeNow, now⟩ := by
  unfold pending at hp
  split at hp
  · rename_i heq
    cases heq
    cases hp
    exact .inl ⟨_, _, _, rfl⟩
  · rename_i heq
    cases heq
    exact .inr ⟨hp, _, rfl⟩
  · cases hp

/-- 命令の後に保留の名前は、この命令が生成した新しいものか、前から保留のままで、この命令が書かないものである。 -/
theorem Base.pending_step {w : World} {tr : Trace} (h : Base w tr) {sc i o c} {r : c.Resp}
    (hE : Expected sc c (own i tr)) (hreply : c.reply o w = some r) {j id}
    (hp : pending (own j (⟨i, c, r, w⟩ :: tr)) = some id) :
    (j = i ∧ id ∉ w.used ∧ ∃ cmd channel requestID,
      (⟨c, r⟩ : Act Cmd Cmd.Resp) = ⟨.generateTaskID cmd channel requestID, id⟩) ∨
      pending (own j tr) = some id ∧ ∀ t, c.written r ≠ some (id, t) := by
  by_cases hj : j = i
  · subst hj
    rw [own_cons_self] at hp
    obtain ⟨cmd, channel, requestID, heq⟩ | ⟨hp', now, hnow⟩ := pending_cons hp
    · refine .inl ⟨rfl, ?_, cmd, channel, requestID, heq⟩
      cases heq
      simp only [Cmd.reply] at hreply
      split at hreply
      · cases hreply
      · rename_i hnot
        cases hreply
        exact hnot
    · cases hnow
      exact .inr ⟨hp', by simp [Cmd.written]⟩
  · rw [own_cons_ne hj] at hp
    refine .inr ⟨hp, fun t hw => ?_⟩
    obtain ⟨_, _, _, _, hpi⟩ | ⟨_, t₀, _, ht₀, _⟩ := h.written hE hw
    · exact hj (h.unique j i id hp hpi)
    · rw [(h.fresh j id hp).2] at ht₀
      cases ht₀

theorem Base.cmd {w w' : World} {tr : Trace} (h : Base w tr) {sc i o c} {r : c.Resp}
    (hE : Expected sc c (own i tr)) (he : machine.exec o c w = some (r, w')) : Base w' (⟨i, c, r, w⟩ :: tr) := by
  have hrec := (recorded_inductive (g := .ofCalls fun _ => True)).cmd h.recorded trivial hE he
  obtain ⟨hreply, rfl⟩ := exec_eq he
  have hle : w.Le (c.effect w r) := h.le_effect hE
  refine ⟨hrec, h.ordered.cmd hle, fun id hsome => ?_, fun j id hp => ?_, fun j k id hpj hpk => ?_⟩
  · obtain ⟨heq, -⟩ | ⟨t, hw, -⟩ := effect_task_cases w c r id
    · rw [heq] at hsome
      exact hle.used (h.used id hsome)
    · obtain ⟨_, _, _, _, hp⟩ | ⟨_, t₀, _, ht₀, _⟩ := h.written hE hw
      · exact hle.used (h.fresh i id hp).1
      · exact hle.used (h.used id (by simp [ht₀]))
  · obtain ⟨rfl, hnot, cmd, channel, requestID, heq⟩ | ⟨hp', hnw⟩ := h.pending_step hE hreply hp
    · cases heq
      refine ⟨by simp [effect_used], ?_⟩
      rw [effect_task]
      simp only [Cmd.written]
      by_contra hsome
      exact hnot (h.used id (Option.isSome_iff_ne_none.mpr hsome))
    · refine ⟨hle.used (h.fresh j id hp').1, ?_⟩
      obtain ⟨heq, -⟩ | ⟨t, hw, -⟩ := effect_task_cases w c r id
      · rw [heq]
        exact (h.fresh j id hp').2
      · exact absurd hw (hnw t)
  · obtain ⟨rfl, hnot, -⟩ | ⟨hpj', -⟩ := h.pending_step hE hreply hpj
    · obtain ⟨rfl, -⟩ | ⟨hpk', -⟩ := h.pending_step hE hreply hpk
      · rfl
      · exact absurd (h.fresh k id hpk').1 hnot
    · obtain ⟨rfl, hnot, -⟩ | ⟨hpk', -⟩ := h.pending_step hE hreply hpk
      · exact absurd (h.fresh j id hpj').1 hnot
      · exact h.unique j k id hpj' hpk'

theorem Base.env {e : Env} {w w' : World} {tr : Trace} (h : Base w tr) (he : machine.env e w = some w') :
    Base w' tr := by
  have hle := World.le_env he
  have htask : w'.task = w.task ∧ w'.used = w.used := by
    obtain ⟨d, rfl⟩ | ⟨id, l, -, -, rfl⟩ := env_cases he <;> exact ⟨rfl, rfl⟩
  exact ⟨h.recorded, h.ordered.env hle, by rw [htask.1, htask.2]; exact h.used,
    by rw [htask.1, htask.2]; exact h.fresh, h.unique⟩

theorem base_inductive (g : Guard machine) (sc : Scope) : Inductive g (Expected sc) Base :=
  ⟨fun h _ hE he => h.cmd hE he, fun h he => h.env he⟩

/-- 監視したキーが変わっていなければ、時間切れの書き込みの直前でも、読んだ記録とキューの内容がそのまま残っている。 -/
theorem Base.watched {w : World} {tr : Trace} (h : Base w tr) {sc i id queue watched age read}
    (hE : Expected sc (.timeoutTx id queue watched age read) (own i tr)) (hw : watched = w.revs id queue) :
    w.task id = some read ∧ id ∈ w.list queue := by
  obtain ⟨-, -, -, position, now, h', hown, -⟩ := hE
  obtain ⟨tr₁, w₁, tr₂, rfl, hown₂, -⟩ := split_own hown
  obtain ⟨tr₃, w₂, tr₄, rfl, hown₄, -⟩ := split_own hown₂
  obtain ⟨tr₅, w₃, tr₆, rfl, hown₆, -⟩ := split_own hown₄
  obtain ⟨tr₇, w₄, tr₈, rfl, -, -⟩ := split_own hown₆
  have hwatch : watched = w₄.revs id queue := by
    obtain ⟨o, s', hex⟩ := h.recorded ⟨i, .watch id queue, watched, w₄⟩ (by simp)
    exact (Option.some.inj (exec_eq hex).1).symm
  have hget : w₃.task id = some read := recorded_getTask h.recorded i .aged (by simp)
  have hpos : id ∈ w₁.list queue := by
    obtain ⟨o, s', hex⟩ := h.recorded ⟨i, .lpos queue id, some position, w₁⟩ (by simp)
    have hreply := Option.some.inj (exec_eq hex).1
    by_contra hnot
    simp [hnot] at hreply
  have le₄₃ : w₄.Le w₃ := by
    have := h.ordered
    rw [← List.cons_append, ← List.append_assoc, ← List.cons_append, ← List.append_assoc] at this
    exact this.le_of_append (d := ⟨i, .watch id queue, watched, w₄⟩) (by simp)
  have le₄₁ : w₄.Le w₁ := h.ordered.le_of_append (d := ⟨i, .watch id queue, watched, w₄⟩) (by simp)
  have le₃ : w₃.Le w := h.ordered.le (e := ⟨i, .getTask .aged id, some read, w₃⟩) (by simp)
  have le₁ : w₁.Le w := h.ordered.le (e := ⟨i, .lpos queue id, some position, w₁⟩) (by simp)
  obtain ⟨htask, hlist⟩ : w₄.taskRev id = w.taskRev id ∧ w₄.listRev queue = w.listRev queue := by
    rw [hwatch] at hw
    exact Prod.mk.inj hw
  constructor
  · have h₁ := (le₄₃.rev id).1
    have h₂ := (le₃.rev id).1
    rw [← (le₃.rev id).2 (by omega), hget]
  · have h₁ := (le₄₁.list queue).1
    have h₂ := (le₁.list queue).1
    rw [← (le₁.list queue).2 (by omega)]
    exact hpos

end RtcEgress.Queue
