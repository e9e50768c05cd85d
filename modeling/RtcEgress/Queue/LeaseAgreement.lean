import RtcEgress.Queue.Lemmas.Base

/-!
# リースと記録の持ち主は一致するか

リースのキーがあるとき、その値が記録の持ち主と一致するかを調べる。リースの延長は、持ち主の確認、記録の読み取り、
書き戻しを別々に行うので、その間にリースが切れ、回収され、別のポッドに確保されることがある。
-/

namespace RtcEgress.Queue

open RtcEgress.Lib

/-- 確保、回収、差し戻しだけが変える欄。 -/
def Task.ownership (t : Task) : String × Int × Option Nat × Nat :=
  (t.podID, t.workerID, t.processedAt, t.retryCount)

/-- リースのキーがあれば、その値は記録の持ち主である。 -/
def World.LeaseAgrees (w : World) : Prop :=
  ∀ id l, w.lease id = some l → ∃ t, w.task id = some t ∧ t.podID = l.holder

/-- 条件 `g` のもとでの実行では、リースと記録の持ち主が一致し、リースの延長は、自分が持ち主である記録だけを、
持ち主の欄を変えずに置き換える。 -/
def LeaseFollowsOwner (g : Guard machine) : Prop :=
  ∀ w, w.LeaseAgrees → (∀ id, (w.task id).isSome → id ∈ w.used) → ∀ p, Run g (.start w) p →
    p.state.LeaseAgrees ∧
    ∀ e ∈ p.trace, ∀ podID id now read, e.cmd = .renewTx podID id now read →
      ∃ t, e.before.task id = some t ∧ t.podID = podID ∧ (read.renewed now).ownership = t.ownership

def Call.isLeaseCall : Call → Bool
  | .claim .. | .renew .. | .result .. | .recover .. | .moveBack .. => true
  | _ => false

/-! ## 成り立たない実行 -/

/-- 待ち行列に入った録画 `a` だけがある。 -/
def oneTask : World :=
  { World.init with
    task := fun id => if id = "a" then some (.published "a" "record" "start" "ch" "r" none 0) else none
    used := ["a"] }

/-- ポッド `p` が延長のために記録を読んだ後、リースが切れて回収され、ポッド `q` が確保してから、`p` が書き戻す。 -/
def renewAfterReclaim : List (Move machine) :=
  begin (.claim "p" "a") ++ advance 0 3 ++
  begin (.renew "p" "a") ++ advance 1 3 ++
  [.env (.tick leaseTimeout), .env (.leaseExpire "a")] ++
  begin (.recover "a" "egress:processing:p") ++ advance 2 4 ++
  begin (.claim "q" "a") ++ advance 3 3 ++
  advance 1 1

theorem oneTask_agrees : oneTask.LeaseAgrees := by simp [World.LeaseAgrees, oneTask, World.init]

theorem oneTask_used (id : String) (h : (oneTask.task id).isSome) : id ∈ oneTask.used := by
  simp only [oneTask] at h ⊢
  split at h
  · rename_i hid
    simp [hid]
  · cases h

theorem not_leaseFollowsOwner : ¬LeaseFollowsOwner (.ofCalls fun k => k.isLeaseCall = true) := by
  intro h
  have hplay : (Pool.play renewAfterReclaim (.start oneTask)).map (fun p =>
      ((p.state.lease "a").map Lease.holder, (p.state.task "a").map Task.podID)) =
      some (some "q", some "p") := by decide
  obtain ⟨p, hp, hqp⟩ := Option.map_eq_some_iff.mp hplay
  obtain ⟨hq, hp'⟩ := Prod.mk.inj hqp
  obtain ⟨l, hl, hholder⟩ := Option.map_eq_some_iff.mp hq
  obtain ⟨hagree, -⟩ := h oneTask oneTask_agrees oneTask_used p
    (Pool.play_sound (Pool.allMeet_ofCalls (by decide)) hp)
  obtain ⟨t, ht, hpod⟩ := hagree "a" l hl
  rw [ht, Option.map_some, hpod, hholder] at hp'
  exact absurd hp' (by decide)

/-! ## 成り立つ条件 -/

/-- タスク `id` の持ち主を変える命令。 -/
def Cmd.MovesOwner (id : String) : Cmd → Prop
  | .claimTx _ id' _ _ | .recoverTx _ id' _ _ | .moveBackTx _ id' _ => id' = id
  | _ => False

/-- 結果の更新が記録を読んでから書き戻すまで、また延長がリースを確かめてから書き戻すまでに、そのタスクの確保、
回収、差し戻しがない。 -/
def ownerKept : Guard machine where
  call := fun k => k.isLeaseCall = true
  cmd := fun i c _ tr => match c with
    | .setResult id _ _ _ _ => ∀ e ∈ since i 2 tr, ¬e.cmd.MovesOwner id
    | .renewTx _ id _ _ => ∀ e ∈ since i 3 tr, ¬e.cmd.MovesOwner id
    | _ => True

def leaseScope : Scope := ⟨[.claim, .directClaim, .renew, .result, .recover, .directRecover, .moveBack], fun _ => True⟩

theorem bodies_ownerKept : Bodies ownerKept (Expected leaseScope) := by
  refine bodies fun k hk => ?_
  cases k <;> simp only [ownerKept, Call.isLeaseCall, Bool.false_eq_true] at hk <;>
    exact ⟨by simp [Call.writers, leaseScope], fun _ _ => trivial⟩

/-- タスクの持ち主の欄。 -/
def ownershipOf (id : String) (w : World) : Option (String × Int × Option Nat × Nat) :=
  (w.task id).map Task.ownership

structure OwnerKept (w : World) (tr : Trace) : Prop where
  only : ∀ id, OnlyBy (fun e : Event machine => e.cmd.MovesOwner id) (ownershipOf id) w tr
  agrees : w.LeaseAgrees
  past : ∀ e ∈ tr, World.LeaseAgrees e.before
  renewed : ∀ e ∈ tr, ∀ podID id now read, e.cmd = .renewTx podID id now read →
    ∃ t, e.before.task id = some t ∧ t.podID = podID ∧ (read.renewed now).ownership = t.ownership

theorem ownerKept_start {w : World} (h : w.LeaseAgrees) : OwnerKept w [] :=
  ⟨fun id => by simp [OnlyBy], h, by simp, by simp⟩

section Step

variable {w : World} {tr : Trace} {i : Nat}

/-- 読んだ後に持ち主を変える命令がなければ、今の記録の持ち主の欄は読んだ写しと同じである。 -/
theorem OwnerKept.read (hb : Base w tr) (h : OwnerKept w tr) {n now reader id read h'}
    (hown : own i tr = ⟨.timeNow, now⟩ :: ⟨.getTask reader id, some read⟩ :: h')
    (hsince : ∀ e ∈ since i (n + 2) tr, ¬e.cmd.MovesOwner id) :
    ∃ t, w.task id = some t ∧ t.ownership = read.ownership := by
  obtain ⟨tr₁, w₁, tr₂, rfl, hown₂, hne₁⟩ := split_own hown
  obtain ⟨tr₃, w₂, tr₄, rfl, -, hne₃⟩ := split_own hown₂
  rw [since_split hne₁, since_split hne₃] at hsince
  have hread : w₂.task id = some read := recorded_getTask hb.recorded i reader (by simp)
  have hsame := h.only id (tr₁ ++ ⟨i, .timeNow, now, w₁⟩ :: tr₃) ⟨i, .getTask reader id, some read, w₂⟩ tr₄
    (by simp) (hsince _ (by simp)) fun e he => hsince e (by simp at he ⊢; tauto)
  simp only [ownershipOf, hread, Option.map_some] at hsame
  obtain ⟨t, ht, heq⟩ := Option.map_eq_some_iff.mp hsame.symm
  exact ⟨t, ht, heq⟩

/-- リースを確かめた後に持ち主を変える命令がなければ、今の記録の持ち主は確かめたポッドである。 -/
theorem OwnerKept.holder (hb : Base w tr) (h : OwnerKept w tr) {now podID id read h'}
    (hown : own i tr = ⟨.timeNow, now⟩ :: ⟨.getTask (.renew podID) id, some read⟩ ::
      ⟨.getLease (.renew podID) id, some podID⟩ :: h')
    (hsince : ∀ e ∈ since i 3 tr, ¬e.cmd.MovesOwner id) : ∃ t, w.task id = some t ∧ t.podID = podID := by
  obtain ⟨tr₁, w₁, tr₂, rfl, hown₂, hne₁⟩ := split_own hown
  obtain ⟨tr₃, w₂, tr₄, rfl, hown₄, hne₃⟩ := split_own hown₂
  obtain ⟨tr₅, w₃, tr₆, rfl, -, hne₅⟩ := split_own hown₄
  rw [since_split hne₁, since_split hne₃, since_split hne₅] at hsince
  have hlease : (w₃.lease id).map Lease.holder = some podID := by
    obtain ⟨o, w', hex⟩ := hb.recorded ⟨i, .getLease (.renew podID) id, some podID, w₃⟩ (by simp)
    exact Option.some.inj (exec_eq hex).1
  obtain ⟨l, hl, hholder⟩ := Option.map_eq_some_iff.mp hlease
  have hpast : w₃.LeaseAgrees := h.past ⟨i, .getLease (.renew podID) id, some podID, w₃⟩ (by simp)
  obtain ⟨t₃, ht₃, hpod⟩ := hpast id l hl
  have hsame := h.only id
    (tr₁ ++ ⟨i, .timeNow, now, w₁⟩ :: (tr₃ ++ ⟨i, .getTask (.renew podID) id, some read, w₂⟩ :: tr₅))
    ⟨i, .getLease (.renew podID) id, some podID, w₃⟩ tr₆ (by simp) (hsince _ (by simp))
    fun e he => hsince e (by simp at he ⊢; tauto)
  simp only [ownershipOf, ht₃, Option.map_some] at hsame
  obtain ⟨t, ht, heq⟩ := Option.map_eq_some_iff.mp hsame.symm
  exact ⟨t, ht, (congrArg Prod.fst heq).trans (hpod.trans hholder)⟩

/-- 持ち主を変えない命令は、持ち主の欄を変えない。 -/
theorem OwnerKept.ownership_step (hb : Base w tr) (h : OwnerKept w tr) {c} {r : c.Resp}
    (hg : ownerKept.cmd i c w tr) (hE : Expected leaseScope c (own i tr)) {id} (hm : ¬c.MovesOwner id) :
    ownershipOf id w = ownershipOf id (c.effect w r) := by
  simp only [ownershipOf]
  obtain ⟨heq, -⟩ | ⟨t, hw, heq⟩ := effect_task_cases w c r id
  · rw [heq]
  · rw [heq]
    cases c <;> simp only [Cmd.written, reduceCtorEq, Option.some.injEq, Prod.mk.injEq] at hw
    case claimTx => exact absurd hw.1 hm
    case recoverTx => exact absurd hw.1 hm
    case moveBackTx => exact absurd hw.1 hm
    case setResult =>
        obtain ⟨rfl, rfl⟩ := hw
        obtain ⟨-, h', hown⟩ := hE
        obtain ⟨t₀, ht₀, heq₀⟩ := h.read hb hown hg
        simp only [ht₀, Option.map_some, heq₀]
        rfl
    case renewTx =>
        obtain ⟨rfl, rfl⟩ := hw
        obtain ⟨-, h', hown⟩ := hE
        obtain ⟨t₀, ht₀, heq₀⟩ := h.read hb hown hg
        simp only [ht₀, Option.map_some, heq₀]
        rfl
    case publishTx | setWorker | setTarget =>
        have hno := hE.1
        simp [leaseScope] at hno
    case timeoutTx =>
        have hno := hE.1
        simp [leaseScope] at hno

/-- 命令の後のリースは、この命令が確保したものか、前からあって持ち主の同じものである。 -/
theorem lease_step {c : Cmd} {r : c.Resp} {id l} (hl : (c.effect w r).lease id = some l) :
    (∃ now read, c = .claimTx l.holder id now read) ∨
      ¬c.MovesOwner id ∧ ∃ l₀, w.lease id = some l₀ ∧ l₀.holder = l.holder := by
  rw [effect_lease] at hl
  cases c
  case claimTx podID id' now read =>
      by_cases hid : id = id'
      · simp only [hid, ↓reduceIte, Option.some.injEq] at hl
        subst hid hl
        exact .inl ⟨now, read, rfl⟩
      · simp only [hid, ↓reduceIte] at hl
        exact .inr ⟨Ne.symm hid, l, hl, rfl⟩
  case renewTx podID id' now read =>
      by_cases hid : id = id'
      · simp only [hid, ↓reduceIte, Option.map_eq_some_iff] at hl
        obtain ⟨l₀, hl₀, rfl⟩ := hl
        exact .inr ⟨nofun, l₀, by rw [hid, hl₀], rfl⟩
      · simp only [hid, ↓reduceIte] at hl
        exact .inr ⟨nofun, l, hl, rfl⟩
  case recoverTx | moveBackTx =>
      dsimp only at hl
      split at hl
      · cases hl
      · rename_i hid
        exact .inr ⟨Ne.symm hid, l, hl, rfl⟩
  case delLease =>
      dsimp only at hl
      split at hl
      · cases hl
      · exact .inr ⟨nofun, l, hl, rfl⟩
  all_goals exact .inr ⟨nofun, l, hl, rfl⟩

theorem OwnerKept.agrees_step (hb : Base w tr) (h : OwnerKept w tr) {c} {r : c.Resp}
    (hg : ownerKept.cmd i c w tr) (hE : Expected leaseScope c (own i tr)) : (c.effect w r).LeaseAgrees := by
  intro id l hl
  obtain ⟨now, read, rfl⟩ | ⟨hm, l₀, hl₀, hholder⟩ := lease_step hl
  · refine ⟨read.claimed l.holder now, ?_, rfl⟩
    rw [effect_task]
    simp [Cmd.written]
  · obtain ⟨t, ht, hpod⟩ := h.agrees id l₀ hl₀
    have heq := h.ownership_step hb hg hE (r := r) hm
    simp only [ownershipOf, ht, Option.map_some] at heq
    obtain ⟨t', ht', heq'⟩ := Option.map_eq_some_iff.mp heq.symm
    exact ⟨t', ht', (congrArg Prod.fst heq').trans (hpod.trans hholder)⟩

theorem ownerKept_cmd (hb : Base w tr) (h : OwnerKept w tr) {c} {r : c.Resp} (hg : ownerKept.cmd i c w tr)
    (hE : Expected leaseScope c (own i tr)) : OwnerKept (c.effect w r) (⟨i, c, r, w⟩ :: tr) := by
  refine ⟨fun id => (h.only id).cmd fun hm => h.ownership_step hb hg hE hm, h.agrees_step hb hg hE, ?_, ?_⟩
  · intro e he
    rcases List.mem_cons.mp he with rfl | he
    · exact h.agrees
    · exact h.past e he
  · intro e he podID id now read hc
    rcases List.mem_cons.mp he with rfl | he
    · obtain rfl : c = .renewTx podID id now read := hc
      obtain ⟨-, h', hown⟩ := hE
      obtain ⟨t, ht, hpod⟩ := h.holder hb hown hg
      obtain ⟨t', ht', heq⟩ := h.read hb hown hg
      rw [ht] at ht'
      cases ht'
      exact ⟨t, ht, hpod, heq.symm⟩
    · exact h.renewed e he podID id now read hc

end Step

theorem ownerKept_inductive : Inductive ownerKept (Expected leaseScope) fun w tr => Base w tr ∧ OwnerKept w tr :=
  (base_inductive ownerKept leaseScope).extend
    (fun hb h hg hE he => by
      obtain ⟨-, rfl⟩ := exec_eq he
      exact ownerKept_cmd hb h hg hE)
    fun _ h he => by
      obtain ⟨d, rfl⟩ | ⟨id, l, -, -, rfl⟩ := env_cases he
      · exact ⟨h.only, h.agrees, h.past, h.renewed⟩
      · refine ⟨h.only, fun id' l' hl' => ?_, h.past, h.renewed⟩
        simp only [World.delLease] at hl'
        split at hl'
        · cases hl'
        · exact h.agrees id' l' hl'

theorem leaseFollowsOwner_ownerKept {w : World} (hw : w.LeaseAgrees) (hused : ∀ id, (w.task id).isSome → id ∈ w.used)
    {p : Pool machine} (hrun : Run ownerKept (.start w) p) :
    p.state.LeaseAgrees ∧
      ∀ e ∈ p.trace, ∀ podID id now read, e.cmd = .renewTx podID id now read →
        ∃ t, e.before.task id = some t ∧ t.podID = podID ∧ (read.renewed now).ownership = t.ownership := by
  obtain ⟨-, h⟩ := ownerKept_inductive.of_start bodies_ownerKept ⟨base_start hused, ownerKept_start hw⟩ hrun
  exact ⟨h.agrees, h.renewed⟩

instance {id c} : Decidable (Cmd.MovesOwner id c) := by
  apply Cmd.casesOn (motive := fun c => Decidable (Cmd.MovesOwner id c)) c <;> intros
  case claimTx _ id' _ _ | recoverTx _ id' _ _ | moveBackTx _ id' _ => exact inferInstanceAs (Decidable (id' = id))
  all_goals exact .isFalse fun h => h

instance {k} : Decidable (ownerKept.call k) := inferInstanceAs (Decidable (k.isLeaseCall = true))

instance {i c w tr} : Decidable (ownerKept.cmd i c w tr) := by
  apply Cmd.casesOn (motive := fun c => Decidable (ownerKept.cmd i c w tr)) c <;> intros
  case setResult id _ _ _ _ => exact inferInstanceAs (Decidable (∀ e ∈ since i 2 tr, ¬e.cmd.MovesOwner id))
  case renewTx _ id _ _ => exact inferInstanceAs (Decidable (∀ e ∈ since i 3 tr, ¬e.cmd.MovesOwner id))
  all_goals exact .isTrue trivial

/-- ポッド `p` が確保したリースを延長し、期限の後に回収された録画をポッド `q` が確保する。 -/
def renewThenReclaim : List (Move machine) :=
  begin (.claim "p" "a") ++ advance 0 3 ++
  begin (.renew "p" "a") ++ advance 1 4 ++
  [.env (.tick leaseTimeout), .env (.leaseExpire "a")] ++
  begin (.recover "a" "egress:processing:p") ++ advance 2 4 ++
  begin (.claim "q" "a") ++ advance 3 3

theorem renewThenReclaim_agrees : ∃ p, Run ownerKept (.start oneTask) p ∧
    (p.state.lease "a").map Lease.holder = some "q" ∧ p.state.LeaseAgrees := by
  have hplay : (Pool.play renewThenReclaim (.start oneTask)).map (fun p => (p.state.lease "a").map Lease.holder) =
      some (some "q") := by decide
  obtain ⟨p, hp, hq⟩ := Option.map_eq_some_iff.mp hplay
  have hrun : Run ownerKept (.start oneTask) p := Pool.play_sound (by decide) hp
  exact ⟨p, hrun, hq, (leaseFollowsOwner_ownerKept oneTask_agrees oneTask_used hrun).1⟩

end RtcEgress.Queue
