import RtcEgress.Lib.Glob
import RtcEgress.Queue.Routing

/-!
# キューの選択

`getPrioritizedQueues` の繰り返しを、パターンごと、キーごとに写す。パターンの重なりで、同じキーは何度でも現れる。
-/

namespace RtcEgress.Queue

/-! ## 繰り返し -/

/-- 一つのキーを、検査して、組の一つに加える。 -/
def QueueGroups.addKey (podRegion : String) (g : QueueGroups) (key : String) : QueueGroups :=
  let keyParts := splitColon key
  if keyParts.length < 3 then g
  else if !isValidQueueKey keyParts then g
  else if keyParts[1]? = some "stop" then { g with stopQueues := g.stopQueues ++ [key] }
  else match taskRegion keyParts with
    | some region =>
        if podRegion = region then { g with regionalQueues := g.regionalQueues ++ [key] }
        else { g with globalQueues := g.globalQueues ++ [key] }
    | none => { g with globalQueues := g.globalQueues ++ [key] }

/-- 一つのパターンの `KEYS` とその結果。失敗は `none` である。 -/
structure KeysCall where
  pattern : String
  result : Option (List String)

def QueueGroups.addCall (podRegion : String) (g : QueueGroups) (call : KeysCall) : QueueGroups :=
  match call.result with
  | none => g
  | some keys => keys.foldl (QueueGroups.addKey podRegion) g

/-- 結果にまだないキューを加える。 -/
def addUnique (result queues : List String) : List String :=
  queues.foldl (fun result queue => if queue ∈ result then result else result ++ [queue]) result

def QueueGroups.combine (g : QueueGroups) : List String :=
  addUnique (addUnique (addUnique [] g.stopQueues) g.regionalQueues) g.globalQueues

def selectQueues (podRegion : String) (calls : List KeysCall) : List String :=
  (calls.foldl (QueueGroups.addCall podRegion) ⟨[], [], []⟩).combine

/-! ## 重複を除くこと -/

theorem addUnique_append (result queues queues' : List String) :
    addUnique result (queues ++ queues') = addUnique (addUnique result queues) queues' := List.foldl_append

theorem addUnique_nil (queues : List String) : addUnique [] queues = queues.eraseDups := by
  induction queues using List.reverseRecOn with
  | nil => rfl
  | append_singleton queues queue ih =>
      rw [addUnique_append, ih, List.eraseDups_append, addUnique]
      by_cases h : queue ∈ queues <;> simp [h, List.removeAll, List.eraseDups_cons]

theorem QueueGroups.combine_eq (g : QueueGroups) : g.combine = g.prioritized := by
  rw [combine, ← addUnique_append, ← addUnique_append, addUnique_nil, prioritized, List.append_assoc]

/-! ## 組 -/

/-- 各パターンの成功した結果。 -/
def answered (calls : List KeysCall) : List String := calls.flatMap fun call => call.result.getD []

def QueueGroups.append (g g' : QueueGroups) : QueueGroups where
  stopQueues := g.stopQueues ++ g'.stopQueues
  regionalQueues := g.regionalQueues ++ g'.regionalQueues
  globalQueues := g.globalQueues ++ g'.globalQueues

theorem length_of_valid {keyParts : List String} (h : isValidQueueKey keyParts = true) : ¬keyParts.length < 3 := by
  unfold isValidQueueKey at h
  split at h <;> simp_all

theorem addKey_eq (podRegion : String) (g : QueueGroups) (key : String) :
    g.addKey podRegion key = g.append (groupQueues podRegion [key]) := by
  cases hvalid : isValidQueueKey (splitColon key) with
  | false => simp [QueueGroups.addKey, QueueGroups.append, groupQueues, hvalid]
  | true =>
      have hlen := length_of_valid hvalid
      by_cases hstop : (splitColon key)[1]? = some "stop"
      · simp [QueueGroups.addKey, QueueGroups.append, groupQueues, hvalid, hlen, hstop]
      · cases hregion : taskRegion (splitColon key) with
        | none => simp [QueueGroups.addKey, QueueGroups.append, groupQueues, hvalid, hlen, hstop, hregion]
        | some region =>
            by_cases hlocal : podRegion = region
            · simp [QueueGroups.addKey, QueueGroups.append, groupQueues, hvalid, hlen, hstop, hregion, hlocal]
            · simp [QueueGroups.addKey, QueueGroups.append, groupQueues, hvalid, hlen, hstop, hregion, hlocal,
                Ne.symm hlocal]

theorem groupQueues_append (podRegion : String) (keys keys' : List String) :
    groupQueues podRegion (keys ++ keys') = (groupQueues podRegion keys).append (groupQueues podRegion keys') := by
  simp [groupQueues, QueueGroups.append]

theorem foldl_addKey (podRegion : String) (keys seen : List String) :
    keys.foldl (QueueGroups.addKey podRegion) (groupQueues podRegion seen) = groupQueues podRegion (seen ++ keys) := by
  induction keys generalizing seen with
  | nil => simp
  | cons key keys ih =>
      rw [List.foldl_cons, addKey_eq, ← groupQueues_append, ih, List.append_assoc, List.singleton_append]

theorem foldl_addCall (podRegion : String) (calls : List KeysCall) (seen : List String) :
    calls.foldl (QueueGroups.addCall podRegion) (groupQueues podRegion seen) =
      groupQueues podRegion (seen ++ answered calls) := by
  induction calls generalizing seen with
  | nil => simp [answered]
  | cons call calls ih =>
      have hcall : QueueGroups.addCall podRegion (groupQueues podRegion seen) call =
          groupQueues podRegion (seen ++ call.result.getD []) := by
        cases hresult : call.result with
        | none => simp [QueueGroups.addCall, hresult]
        | some keys => simpa [QueueGroups.addCall, hresult] using foldl_addKey podRegion keys seen
      rw [List.foldl_cons, hcall, ih, answered, answered, List.flatMap_cons, List.append_assoc]

/-- 繰り返しの結果は、集めたキーを分けて並べたものである。 -/
theorem selectQueues_eq (podRegion : String) (calls : List KeysCall) :
    selectQueues podRegion calls = (groupQueues podRegion (answered calls)).prioritized := by
  have hstart : (⟨[], [], []⟩ : QueueGroups) = groupQueues podRegion [] := rfl
  rw [selectQueues, QueueGroups.combine_eq, hstart, foldl_addCall, List.nil_append]

/-! ## 選ばれるキュー -/

/-- キューの組の順。停止のキュー、ポッドと同じ地域のキュー、その他の順である。 -/
def queueRank (podRegion key : String) : Nat :=
  if (splitColon key)[1]? = some "stop" then 0
  else if taskRegion (splitColon key) = some podRegion then 1
  else 2

/-- `KEYS` が成功すれば、パターンに照合するキーを、いずれかの順で返す。照合は Redis が決める。 -/
def KeysCall.Answers (glob : String → String → Bool) (keys : List String) (call : KeysCall) : Prop :=
  ∀ result ∈ call.result, ∀ key, key ∈ result ↔ key ∈ keys ∧ glob call.pattern key = true

/-- パターン `pattern` の `KEYS` が成功した。 -/
def Succeeded (calls : List KeysCall) (pattern : String) : Prop := ∃ call ∈ calls, call.pattern = pattern ∧ call.result.isSome

/-- 選択が過不足なく、組の順に並ぶ。パターンの順や重なりは、組の中の順だけを変える。 -/
structure SelectsExactly (glob : String → String → Bool) (podRegion : String) (keys : List String)
    (calls : List KeysCall) : Prop where
  nodup : (selectQueues podRegion calls).Nodup
  mem : ∀ key, key ∈ selectQueues podRegion calls ↔
    key ∈ keys ∧ isValidQueueKey (splitColon key) = true ∧ ∃ pattern, Succeeded calls pattern ∧ glob pattern key = true
  ordered : (selectQueues podRegion calls).Pairwise fun a b => queueRank podRegion a ≤ queueRank podRegion b
  regrouped : ∀ calls', (∀ call ∈ calls', call.Answers glob keys) → (∀ p, Succeeded calls' p ↔ Succeeded calls p) →
    ∀ rank, ((selectQueues podRegion calls').filter (queueRank podRegion · = rank)).Perm
      ((selectQueues podRegion calls).filter (queueRank podRegion · = rank))

theorem addUnique_eq_append (result queues : List String) : ∃ fresh ⊆ queues, addUnique result queues = result ++ fresh := by
  induction queues generalizing result with
  | nil => exact ⟨[], List.nil_subset _, by simp [addUnique]⟩
  | cons queue queues ih =>
      by_cases h : queue ∈ result
      · obtain ⟨fresh, hsub, heq⟩ := ih result
        refine ⟨fresh, List.subset_cons_of_subset _ hsub, ?_⟩
        rw [← heq]
        simp [addUnique, h]
      · obtain ⟨fresh, hsub, heq⟩ := ih (result ++ [queue])
        refine ⟨queue :: fresh, List.cons_subset_cons _ hsub, ?_⟩
        rw [List.append_cons, ← heq]
        simp [addUnique, h]

theorem nodup_addUnique {result : List String} (h : result.Nodup) (queues : List String) : (addUnique result queues).Nodup := by
  induction queues generalizing result with
  | nil => exact h
  | cons queue queues ih =>
      rw [addUnique, List.foldl_cons]
      by_cases hmem : queue ∈ result
      · rw [if_pos hmem]
        exact ih h
      · rw [if_neg hmem]
        exact ih (by simp [List.nodup_append, h]; exact fun a ha hq => hmem (hq ▸ ha))

theorem mem_selectQueues {podRegion key : String} {calls : List KeysCall} :
    key ∈ selectQueues podRegion calls ↔ key ∈ answered calls ∧ isValidQueueKey (splitColon key) = true := by
  rw [selectQueues_eq, mem_prioritized]

theorem nodup_selectQueues (podRegion : String) (calls : List KeysCall) : (selectQueues podRegion calls).Nodup :=
  nodup_addUnique (nodup_addUnique (nodup_addUnique .nil _) _) _

theorem pairwise_selectQueues (podRegion : String) (calls : List KeysCall) :
    (selectQueues podRegion calls).Pairwise fun a b => queueRank podRegion a ≤ queueRank podRegion b := by
  rw [selectQueues_eq, ← QueueGroups.combine_eq, QueueGroups.combine]
  obtain ⟨stops, hstops, h₀⟩ := addUnique_eq_append [] (groupQueues podRegion (answered calls)).stopQueues
  obtain ⟨locals, hlocals, h₁⟩ := addUnique_eq_append stops (groupQueues podRegion (answered calls)).regionalQueues
  obtain ⟨others, hothers, h₂⟩ := addUnique_eq_append (stops ++ locals) (groupQueues podRegion (answered calls)).globalQueues
  rw [h₀, List.nil_append, h₁, h₂]
  have hrank₀ : ∀ key ∈ stops, queueRank podRegion key = 0 := by
    intro key hkey
    have := hstops hkey
    simp_all [groupQueues, queueRank]
  have hrank₁ : ∀ key ∈ locals, queueRank podRegion key = 1 := by
    intro key hkey
    have := hlocals hkey
    simp_all [groupQueues, queueRank]
  have hrank₂ : ∀ key ∈ others, queueRank podRegion key = 2 := by
    intro key hkey
    have := hothers hkey
    simp_all [groupQueues, queueRank]
  have hsame {l : List String} {rank : Nat} (h : ∀ key ∈ l, queueRank podRegion key = rank) :
      l.Pairwise fun a b => queueRank podRegion a ≤ queueRank podRegion b :=
    List.pairwise_of_forall_mem_list fun a ha b hb => by rw [h a ha, h b hb]
  rw [List.pairwise_append, List.pairwise_append]
  refine ⟨⟨hsame hrank₀, hsame hrank₁, ?_⟩, hsame hrank₂, ?_⟩
  · intro a ha b hb
    rw [hrank₀ a ha]
    exact Nat.zero_le _
  · intro a ha b hb
    rw [hrank₂ b hb]
    rcases List.mem_append.mp ha with ha | ha
    · rw [hrank₀ a ha]
      decide
    · rw [hrank₁ a ha]
      decide

theorem mem_answered {glob : String → String → Bool} {keys : List String} {calls : List KeysCall}
    (h : ∀ call ∈ calls, call.Answers glob keys) {key : String} :
    key ∈ answered calls ↔ key ∈ keys ∧ ∃ pattern, Succeeded calls pattern ∧ glob pattern key = true := by
  simp only [answered, List.mem_flatMap]
  constructor
  · rintro ⟨call, hcall, hkey⟩
    cases hresult : call.result with
    | none => simp [hresult] at hkey
    | some result =>
        rw [hresult, Option.getD_some] at hkey
        obtain ⟨hin, hmatch⟩ := (h call hcall result hresult key).mp hkey
        exact ⟨hin, call.pattern, ⟨call, hcall, rfl, by simp [hresult]⟩, hmatch⟩
  · rintro ⟨hin, pattern, ⟨call, hcall, rfl, hsome⟩, hmatch⟩
    obtain ⟨result, hresult⟩ := Option.isSome_iff_exists.mp hsome
    refine ⟨call, hcall, ?_⟩
    rw [hresult, Option.getD_some]
    exact (h call hcall result hresult key).mpr ⟨hin, hmatch⟩

theorem selectQueues_exact {glob : String → String → Bool} {keys : List String} {calls : List KeysCall}
    (h : ∀ call ∈ calls, call.Answers glob keys) (podRegion : String) :
    SelectsExactly glob podRegion keys calls where
  nodup := nodup_selectQueues podRegion calls
  mem key := by
    rw [mem_selectQueues, mem_answered h]
    tauto
  ordered := pairwise_selectQueues podRegion calls
  regrouped calls' h' hsame rank := by
    have hmem (key : String) : key ∈ selectQueues podRegion calls' ↔ key ∈ selectQueues podRegion calls := by
      simp only [mem_selectQueues, mem_answered h, mem_answered h', hsame]
    exact ((List.perm_ext_iff_of_nodup (nodup_selectQueues podRegion calls') (nodup_selectQueues podRegion calls)).mpr
      hmem).filter _

theorem overlapping_selectsExactly :
    SelectsExactly (fun p key => Lib.globMatch p.toList key.toList) "us" ["egress:us:record:a"]
      [⟨"egress:record:*", none⟩, ⟨"egress:*:record:*", some ["egress:us:record:a"]⟩,
       ⟨"egress:us:*", some ["egress:us:record:a"]⟩] :=
  selectQueues_exact (by
    simp only [List.forall_mem_cons, KeysCall.Answers]
    refine ⟨by simp, ?_, ?_, by simp⟩
    all_goals
      intro result hresult key
      obtain rfl := Option.some.inj hresult
      rw [List.mem_singleton]
      constructor
      · rintro rfl
        exact ⟨rfl, by decide⟩
      · exact fun h => h.1) "us"

end RtcEgress.Queue
