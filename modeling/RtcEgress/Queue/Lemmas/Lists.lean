import RtcEgress.Queue.Lemmas.Base

/-!
# キューの操作と出現の回数
-/

namespace RtcEgress.Queue

open RtcEgress.Lib

namespace World

variable {w : World} {q k id x : String}

theorem occ_setList {l : List String} {changed} :
    (w.setList q l changed).lists.occ x k = if k = q then l.count x else w.lists.occ x k :=
  KeyedLists.occ_put ..

theorem occ_lpush : (w.lpush q id).lists.occ x k = w.lists.occ x k + if k = q ∧ x = id then 1 else 0 := by
  rw [lpush, occ_setList]
  by_cases hk : k = q
  · subst hk
    by_cases hx : x = id
    · subst hx
      simp [KeyedLists.occ, list]
    · simp [KeyedLists.occ, list, hx, List.count_cons_of_ne (Ne.symm hx)]
  · simp [hk]

theorem occ_rpush : (w.rpush q id).lists.occ x k = w.lists.occ x k + if k = q ∧ x = id then 1 else 0 := by
  rw [rpush, occ_setList]
  by_cases hk : k = q
  · subst hk
    by_cases hx : x = id
    · subst hx
      simp [KeyedLists.occ, list]
    · simp [KeyedLists.occ, list, hx, Ne.symm hx]
  · simp [hk]

theorem occ_lrem : (w.lrem q id).lists.occ x k = w.lists.occ x k - if k = q ∧ x = id then 1 else 0 := by
  rw [lrem, occ_setList]
  by_cases hk : k = q
  · subst hk
    by_cases hx : x = id
    · subst hx
      simp [KeyedLists.occ, list, List.count_erase_self]
    · simp [KeyedLists.occ, list, hx, List.count_erase_of_ne hx]
  · simp [hk]

theorem occ_rpoplpush {dst : String} (h : (w.list q).getLast? = some id) :
    (w.rpoplpush q dst id).lists.occ x k =
      w.lists.occ x k - (if k = q ∧ x = id then 1 else 0) + if k = dst ∧ x = id then 1 else 0 := by
  rw [rpoplpush, occ_lpush, occ_setList]
  congr 1
  by_cases hk : k = q
  · subst hk
    obtain ⟨l, hl⟩ := List.getLast?_eq_some_iff.mp h
    have hl' : w.lists.get k = l ++ [id] := hl
    by_cases hx : x = id
    · subst hx
      simp [KeyedLists.occ, list, hl']
    · simp [KeyedLists.occ, list, hl', hx, Ne.symm hx]
  · simp [hk]

theorem located_lpush (h : w.lists.Nowhere id) : (w.lpush q id).lists.Located id q := by
  intro k
  simp [occ_lpush, h k]

theorem located_rpush (h : w.lists.Nowhere id) : (w.rpush q id).lists.Located id q := by
  intro k
  simp [occ_rpush, h k]

theorem nowhere_lrem (h : w.lists.Located id q) : (w.lrem q id).lists.Nowhere id := by
  intro k
  simp [occ_lrem, h k]

theorem located_rpoplpush (dst : String) (hl : (w.list q).getLast? = some id) (h : w.lists.Located id q) :
    (w.rpoplpush q dst id).lists.Located id dst := by
  intro k
  simp [occ_rpoplpush hl, h k]

end World

/-- 命令が、記録、リース、居場所のいずれかを変えるタスク。 -/
def Cmd.subject : (c : Cmd) → c.Resp → Option String
  | .publishTx _ task, _ => some task.id
  | .claimTx _ id _ _, _ | .setWorker id _ _, _ | .setResult id _ _ _ _, _ | .renewTx _ id _ _, _
  | .recoverTx _ id _ _, _ | .moveBackTx _ id _, _ | .timeoutTx id _ _ _ _, true | .setTarget _ id _ _ _, _
  | .deferTx _ id _, _ | .lrem _ id, _ | .lpush _ id, _ | .lremLast _ id, _ | .delLease id, _ => some id
  | .brPopLPush _ _, some id => some id
  | _, _ => none

section Subject

variable {w : World} {c : Cmd} {r : c.Resp} {x : String}

theorem occ_effect {o k} (hreply : c.reply o w = some r) (h : c.subject r ≠ some x) :
    (c.effect w r).lists.occ x k = w.lists.occ x k := by
  cases c
  case publishTx queue task =>
      have hx : x ≠ task.id := fun heq => h (congrArg some heq.symm)
      exact World.occ_lpush.trans (by simp [hx])
  case recoverTx queue id now read =>
      have hx : x ≠ id := fun heq => h (congrArg some heq.symm)
      exact World.occ_lrem.trans (by simpa [hx] using World.occ_lpush.trans (by simp [hx]; rfl))
  case moveBackTx podID id read =>
      have hx : x ≠ id := fun heq => h (congrArg some heq.symm)
      exact World.occ_lrem.trans (by simpa [hx] using World.occ_lpush.trans (by simp [hx]; rfl))
  case timeoutTx id queue watched age read =>
      cases r with
      | false => rfl
      | true =>
          have hx : x ≠ id := fun heq => h (congrArg some heq.symm)
          exact World.occ_lrem.trans (by simp [hx]; rfl)
  case brPopLPush podID queue =>
      cases r with
      | none => rfl
      | some id =>
          have hx : x ≠ id := fun heq => h (congrArg some heq.symm)
          exact (World.occ_rpoplpush (Option.some.inj hreply)).trans (by simp [hx])
  case deferTx podID id target =>
      have hx : x ≠ id := fun heq => h (congrArg some heq.symm)
      exact World.occ_rpush.trans (by simpa [hx] using World.occ_lrem.trans (by simp [hx]))
  case lrem queue id =>
      have hx : x ≠ id := fun heq => h (congrArg some heq.symm)
      exact World.occ_lrem.trans (by simp [hx])
  case lpush queue id =>
      have hx : x ≠ id := fun heq => h (congrArg some heq.symm)
      exact World.occ_lpush.trans (by simp [hx])
  case lremLast queue id =>
      have hx : x ≠ id := fun heq => h (congrArg some heq.symm)
      refine World.occ_setList.trans ?_
      split
      · rename_i hk
        rw [List.count_reverse, List.count_erase_of_ne hx, List.count_reverse, hk]
        rfl
      · rfl
  all_goals rfl

theorem written_ne_of_subject {t} (h : c.subject r ≠ some x) : c.written r ≠ some (x, t) := by
  intro hw
  cases c
  case timeoutTx => cases r <;> simp_all [Cmd.written, Cmd.subject]
  all_goals simp_all [Cmd.written, Cmd.subject]

theorem task_effect_of_subject (h : c.subject r ≠ some x) : (c.effect w r).task x = w.task x := by
  obtain ⟨heq, -⟩ | ⟨t, hw, -⟩ := effect_task_cases w c r x
  · exact heq
  · exact absurd hw (written_ne_of_subject h)

theorem lease_effect_of_subject (h : c.subject r ≠ some x) : (c.effect w r).lease x = w.lease x := by
  rw [effect_lease]
  cases c
  case claimTx | renewTx | recoverTx | moveBackTx | delLease =>
      exact if_neg fun heq => h (congrArg some (Eq.symm heq))
  all_goals rfl

end Subject

/-! ## キーの名前 -/

theorem count_colon_processing {podID : String} (h : ':' ∉ podID.toList) :
    (buildProcessingQueueKey podID).toList.count ':' = 2 := by
  have hlit : "egress:processing:".toList.count ':' = 2 := by decide
  unfold buildProcessingQueueKey
  rw [String.toList_append, List.count_append, List.count_eq_zero_of_not_mem h, hlit]

/-- 古いタスクの走査が見るキューは、処理中のリストではない。 -/
theorem scanned_ne_processing {tr : Trace} (hr : Recorded tr) {i queue h'} (hs : Scanned queue h')
    (hown : h' ⊆ own i tr) {podID : String} (hp : ':' ∉ podID.toList) : queue ≠ buildProcessingQueueKey podID := by
  rintro rfl
  obtain ⟨queues, hmem, hq⟩ := hs
  obtain ⟨w, he⟩ := mem_of_own (hown hmem)
  obtain ⟨o, w', hex⟩ := hr _ he
  have hkeys : queues = w.lists.keys.filter _ := (Option.some.inj (exec_eq hex).1).symm
  rw [hkeys] at hq
  have hmatch := (List.mem_filter.mp hq).2
  have hcount := globMatch_count (c := ':') (by decide) (by decide) _ hmatch
  rw [count_colon_processing hp] at hcount
  exact absurd hcount (by decide)

/-- 取り出しの途中のタスクは、自分が取り出したものである。 -/
theorem popped_of_inFlight {podID id : String} :
    {h : Acts} → inFlight h = some (podID, id) → ∃ queue, ⟨.brPopLPush podID queue, some id⟩ ∈ h
  | [], hf => by simp [inFlight] at hf
  | a :: h, hf => by
      unfold inFlight at hf
      split at hf
      · rename_i heq
        cases hf
        cases heq
        exact ⟨_, List.mem_cons_self⟩
      all_goals first
        | cases hf
        | (rename_i heq
           cases heq
           obtain ⟨queue, hmem⟩ := popped_of_inFlight hf
           exact ⟨queue, List.mem_cons_of_mem _ hmem⟩)

end RtcEgress.Queue
