import RtcEgress.Queue.Lemmas.Alone
import RtcEgress.Queue.Lemmas.Base

/-!
# 記録のない名前の取り出し

リストには残っているが記録が消えたタスクを、`fetchTaskFromRedis` が取り出したときに、その名前がどうなるかを調べる。
`GetTaskStatus` は記録がないことを別のエラーに包むので、`deferTaskForAnotherPod` はそれを見分けない。確保も失敗し、
名前は元のキューへ戻される。
-/

namespace RtcEgress.Queue

open RtcEgress.Lib

/-- 名前がどのリストからも除かれた。 -/
def Discarded (w : World) (id : String) : Prop := ∀ k, id ∉ w.list k

/-- 取り出したキューとタスク。 -/
def popOf : Act Cmd Cmd.Resp → Option (String × String)
  | ⟨.brPopLPush _ queue, some id⟩ => some (queue, id)
  | _ => none

/-- 取り出しでない命令。 -/
def Cmd.NoPop : Cmd → Prop
  | .brPopLPush _ _ => False
  | _ => True

/-- タスク `id` の記録を書かない命令。 -/
def Cmd.Spares (id : String) (c : Cmd) : Prop := ∀ r t, c.written r ≠ some (id, t)

section

variable {podID queue id id₀ : String} {w w' : World} {acts : List (Act Cmd Cmd.Resp)} {α : Type}

theorem call_traced {c : Cmd} {k : c.Resp → P α} {a : α} (h : Traced machine (.call c k) w acts a w') :
    ∃ o r w₁ rest, acts = ⟨c, r⟩ :: rest ∧ Same w w₁ ∧ c.reply o w₁ = some r ∧
      Traced machine (k r) (c.effect w₁ r) rest a w' := by
  obtain ⟨o, r, w₁, w₂, rest, hacts, henv, hexec, hrest⟩ := Traced.call_inv h
  obtain ⟨hreply, rfl⟩ := exec_eq hexec
  exact ⟨o, r, w₁, rest, hacts, .of_envSteps henv, hreply, hrest⟩

theorem filterMap_popOf_of_noPop (h : ∀ x ∈ acts, x.1.NoPop) : acts.filterMap popOf = [] := by
  refine List.filterMap_eq_nil_iff.mpr fun x hx => ?_
  obtain ⟨c, r⟩ := x
  have hc := h _ hx
  cases c <;> first | rfl | exact hc.elim

/-- 取り出さず、タスク `id` の記録も書かない命令。 -/
def Cmd.Harmless (id : String) (c : Cmd) : Prop := c.NoPop ∧ c.Spares id

theorem harmless_getTask {reader : Reader} : Cmd.Harmless id (.getTask reader id₀) := ⟨trivial, by simp [Cmd.Spares, Cmd.written]⟩

/-- 記録を書かないプログラムの間、記録はないままである。 -/
theorem dead_of_follows {p : P α} {a : α} {h : Acts} {Q : α → Acts → Prop}
    (hp : p.Follows (fun c _ => c.Spares id) Q h) (hdead : w.task id = none) (hrun : Alone machine p w a w') :
    w'.task id = none := by
  refine Alone.keeps (I := fun x : World => x.task id = none) ?_ ?_ hp hdead hrun
  · intro o c s r s' hc hs hexec
    obtain ⟨-, rfl⟩ := exec_eq hexec
    obtain ⟨heq, -⟩ | ⟨t, hw, -⟩ := effect_task_cases s c r id
    · rw [heq, hs]
    · exact absurd hw (hc r t)
  · intro e s s' hs he
    obtain ⟨d, rfl⟩ | ⟨_, _, _, _, rfl⟩ := env_cases he <;> exact hs

-- 名前の比較を計算で進めない。
attribute [local irreducible] trimSpace in
theorem harmless_retargetStop {task : Task} {h : Acts} :
    (retargetStop task).Follows (fun c _ => c.Harmless id) (fun _ _ => True) h := by
  simp only [retargetStop]
  split
  · trivial
  · split
    · trivial
    · refine .ite (fun _ => trivial) fun _ => ?_
      refine .perform harmless_getTask fun found => ?_
      cases found <;> exact .ite (fun _ => trivial) fun _ => trivial

theorem harmless_deferTaskForAnotherPod (hne : id₀ ≠ id) {h : Acts} :
    (deferTaskForAnotherPod podID id₀).Follows (fun c _ => c.Harmless id) (fun _ _ => True) h := by
  refine .perform harmless_getTask fun found => ?_
  cases found with
  | none => trivial
  | some task =>
      refine Prog.Follows.bind (fun target h _ => ?_) harmless_retargetStop
      have rest : ∀ h, Prog.Follows (fun c _ => Cmd.Harmless id c) (fun _ _ => True) (do
          if target.1 = "" ∨ target.1 = podID then return false
          perform (.deferTx podID id₀ target.1)
          return true : P Bool) h := by
        intro h
        refine .ite (fun _ => trivial) fun _ => ?_
        exact .perform ⟨trivial, by simp [Cmd.Spares, Cmd.written]⟩ fun _ => trivial
      obtain ⟨targetPodID, update⟩ := target
      cases update with
      | none => exact rest h
      | some u =>
          refine .perform ⟨trivial, ?_⟩ fun _ => rest _
          simp [Cmd.Spares, Cmd.written, hne]

/-- 取り出した後の確保と、確保できないときの戻し。 -/
theorem noPop_claim {h : Acts} : (claimTaskWithLease id podID >>= fun claimed =>
    (match claimed with
    | none => do
        perform (.lrem (buildProcessingQueueKey podID) id)
        perform (.lpush queue id)
        return none
    | some task => return some { task with sourceQueue := queue } : P (Option Task))).Follows
      (fun c _ => c.NoPop) (fun _ _ => True) h := by
  refine .perform trivial fun found => ?_
  cases found with
  | none =>
      refine .perform trivial fun _ => ?_
      exact .perform trivial fun _ => trivial
  | some task =>
      refine .perform trivial fun now => ?_
      exact .perform trivial fun _ => trivial

/-- 記録のない名前は、別のポッドに宛てたものとは見分けられない。 -/
theorem defer_dead (hdead : w.task id = none) {skip : Bool}
    (h : Traced machine (deferTaskForAnotherPod podID id) w acts skip w') :
    skip = false ∧ Same w w' ∧ ∀ x ∈ acts, x.1.NoPop := by
  obtain ⟨_, found, w₁, rest, rfl, h₁, hfound, h⟩ := call_traced h
  obtain rfl : none = found := by simpa [Cmd.reply, h₁.task, hdead] using hfound
  obtain ⟨rfl, rfl, rfl⟩ := Traced.ret_inv h
  exact ⟨rfl, h₁, by simp [Cmd.NoPop]⟩

/-- 記録のない名前の確保は失敗し、元のキューへ戻される。 -/
theorem claim_dead (hdead : w.task id = none) {r : Option Task}
    (h : Alone machine (claimTaskWithLease id podID >>= fun claimed =>
      (match claimed with
      | none => do
          perform (.lrem (buildProcessingQueueKey podID) id)
          perform (.lpush queue id)
          return none
      | some task => return some { task with sourceQueue := queue } : P (Option Task))) w r w') :
    r = none ∧ id ∈ w'.list queue := by
  obtain ⟨_, found, w₁, h₁, hfound, h⟩ := call_alone h
  obtain rfl : none = found := by simpa [Cmd.reply, h₁.task, hdead] using hfound
  obtain ⟨_, _, w₂, _, -, h⟩ := call_alone h
  obtain ⟨_, _, w₃, _, -, h⟩ := call_alone h
  obtain ⟨rfl, rfl⟩ := Alone.ret_inv h
  exact ⟨rfl, by simp [Cmd.effect, World.list_lpush]⟩

/-- 取り出した名前に記録がなければ、そこで失敗し、名前はそのキューに残る。 -/
theorem tryQueues_dead : (queues : List String) → ∀ {w : World} {acts r}, w.task id = none →
    Traced machine (tryQueues podID queues) w acts r w' → (queue, id) ∈ acts.filterMap popOf →
    r = none ∧ id ∈ w'.list queue
  | [], w, acts, r, _, h, hpop => by
      obtain ⟨-, -, rfl⟩ := Traced.ret_inv h
      simp at hpop
  | queue₀ :: queues, w, acts, r, hdead, h, hpop => by
      obtain ⟨_, popped, w₁, rest, rfl, h₁, hpopped, h⟩ := call_traced h
      have hdead₁ : w₁.task id = none := by rw [h₁.task, hdead]
      cases popped with
      | none => exact tryQueues_dead queues (by simpa [Cmd.effect] using hdead₁) h (by simpa [popOf] using hpop)
      | some id₀ =>
          have hdead₂ : (Cmd.effect w₁ (.brPopLPush podID queue₀) (some id₀)).task id = none := by
            rw [effect_task]
            exact hdead₁
          obtain ⟨skip, w₂, acts₁, acts₂, rfl, hdefer, hnext⟩ :=
            Traced.bind_inv (deferTaskForAnotherPod podID id₀) h
          by_cases hid : id₀ = id
          · -- この名前を取り出したので、以後は取り出さない
            subst hid
            obtain ⟨rfl, hsame, hacts₁⟩ := defer_dead hdead₂ hdefer
            have hacts₂ := Traced.forall_acts (noPop_claim (h := [])) hnext
            obtain rfl : queue = queue₀ := by
              simpa [List.filterMap_append, filterMap_popOf_of_noPop hacts₁, filterMap_popOf_of_noPop hacts₂, popOf]
                using hpop
            exact claim_dead (by rw [hsame.task, hdead₂]) hnext.alone
          · have hfollows : (deferTaskForAnotherPod podID id₀).Follows (fun c _ => c.Harmless id) (fun _ _ => True) [] :=
              harmless_deferTaskForAnotherPod hid
            have hacts₁ := Traced.forall_acts hfollows hdefer
            have hdead₃ : w₂.task id = none :=
              dead_of_follows (hfollows.mono (fun _ _ hE => hE.2) fun _ _ hQ => hQ) hdead₂ hdefer.alone
            have hrest : (queue, id) ∈ acts₂.filterMap popOf := by
              simpa [List.filterMap_append, filterMap_popOf_of_noPop fun x hx => (hacts₁ x hx).1, popOf, Ne.symm hid]
                using hpop
            cases skip with
            | true => exact tryQueues_dead queues hdead₃ hnext hrest
            | false =>
                have hacts₂ := Traced.forall_acts (noPop_claim (h := [])) hnext
                simp [filterMap_popOf_of_noPop hacts₂] at hrest

theorem harmless_gatherKeys : (patterns : List String) → ∀ {h : Acts},
    (gatherKeys patterns).Follows (fun c _ => c.Harmless id) (fun _ _ => True) h
  | [], _ => trivial
  | _ :: patterns, _ => by
      refine .perform ⟨trivial, by simp [Cmd.Spares, Cmd.written]⟩ fun keys => ?_
      refine Prog.Follows.bind (fun rest h _ => ?_) (harmless_gatherKeys patterns)
      trivial

theorem harmless_getPrioritizedQueues {region : String} {patterns : List String} {h : Acts} :
    (getPrioritizedQueues region patterns).Follows (fun c _ => c.Harmless id) (fun _ _ => True) h := by
  refine Prog.Follows.bind (fun keys h _ => ?_) (harmless_gatherKeys patterns)
  trivial

theorem fetch_dead {region : String} {patterns : List String} {r : Option Task} (hdead : w.task id = none)
    (h : Traced machine (fetchTaskFromRedis podID region patterns) w acts r w')
    (hpop : (queue, id) ∈ acts.filterMap popOf) : r = none ∧ id ∈ w'.list queue := by
  obtain ⟨queues, w₁, acts₁, acts₂, rfl, hqueues, htry⟩ := Traced.bind_inv _ h
  have hfollows : (getPrioritizedQueues region patterns).Follows (fun c _ => c.Harmless id) (fun _ _ => True) [] :=
    harmless_getPrioritizedQueues
  have hdead₁ : w₁.task id = none :=
    dead_of_follows (hfollows.mono (fun _ _ hE => hE.2) fun _ _ hQ => hQ) hdead hqueues.alone
  have hacts₁ := Traced.forall_acts hfollows hqueues
  refine tryQueues_dead queues hdead₁ htry ?_
  simpa [List.filterMap_append, filterMap_popOf_of_noPop fun x hx => (hacts₁ x hx).1] using hpop

/-- 記録のない名前を取り出した `fetchTaskFromRedis` は、決してその名前を除かない。 -/
theorem fetch_never_discards {region : String} {patterns : List String} {r : Option Task} (hdead : w.task id = none)
    (h : Traced machine (fetchTaskFromRedis podID region patterns) w acts r w')
    (hpop : (queue, id) ∈ acts.filterMap popOf) : ¬Discarded w' id :=
  fun hdiscarded => hdiscarded queue (fetch_dead hdead h hpop).2

end

/-- 停止のキューに記録の消えた `a` が、録画のキューに記録のある `b` がある。 -/
def blocked : World :=
  ((World.init.setTask "b" (Task.published "b" "record" "start" "room" "r1" none 0)).lpush "egress:record:room" "b").lpush
    "egress:stop:p" "a"

def poll (w : World) : Option (List (Act Cmd Cmd.Resp) × Option Task × World) :=
  (fetchTaskFromRedis "p" "" ["egress:stop:p", "egress:record:*"]).evaluate machine {} w

/-- 取り出しのたびに `a` が戻されて失敗し、`b` は取り出されない。 -/
example : (poll blocked).bind (fun x => (poll x.2.2).map fun y =>
    (x.2.1.isNone && y.2.1.isNone, y.2.2.list "egress:stop:p", y.2.2.list "egress:record:room")) =
    some (true, ["a"], ["b"]) := by decide

theorem blocked_polled : ∃ acts r w', Traced machine (fetchTaskFromRedis "p" "" ["egress:stop:p", "egress:record:*"])
    blocked acts r w' ∧ ("egress:stop:p", "a") ∈ acts.filterMap popOf := by
  have hpoll : (poll blocked).map (fun x => decide (("egress:stop:p", "a") ∈ x.1.filterMap popOf)) = some true := by
    decide
  obtain ⟨⟨acts, r, w'⟩, heval, hpop⟩ := Option.map_eq_some_iff.mp hpoll
  exact ⟨acts, r, w', .of_evaluate heval, of_decide_eq_true hpop⟩

theorem blocked_not_discarded : ∃ acts r w', Traced machine
    (fetchTaskFromRedis "p" "" ["egress:stop:p", "egress:record:*"]) blocked acts r w' ∧ ¬Discarded w' "a" := by
  obtain ⟨acts, r, w', h, hpop⟩ := blocked_polled
  exact ⟨acts, r, w', h, fetch_never_discards rfl h hpop⟩

theorem not_discarded : ¬∀ podID region patterns queue id w acts r w', w.task id = none →
    Traced machine (fetchTaskFromRedis podID region patterns) w acts r w' → (queue, id) ∈ acts.filterMap popOf →
    Discarded w' id := by
  intro hdiscards
  obtain ⟨acts, r, w', h, hpop⟩ := blocked_polled
  exact hdiscards _ _ _ _ _ _ _ _ _ rfl h hpop "egress:stop:p" (fetch_dead rfl h hpop).2

end RtcEgress.Queue
