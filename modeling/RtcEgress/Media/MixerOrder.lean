import Mathlib.Data.List.Nodup
import RtcEgress.Lib.Interleaving
import RtcEgress.Media.MixerRuns

/-!
# 届いた順序によらない混合

位置の決まった混合器では、異なる利用者の `push` の順序を入れ替えても、利用者ごとの列も、その後に作られるフレームも変わらない。
列の並びの違いは `std::map` にはないものであり、混合の結果にも現れない。
-/

namespace RtcEgress.Media.AudioMixer

open Lib (System)

variable {f : Format} {m m' : AudioMixer} {inputs inputs' : List (String × Input)}

/-! ## 同じ混合器 -/

/-- 利用者の列が、並びを除いて同じである。 -/
structure Alike (m m' : AudioMixer) : Prop where
  nodup : (m.inputs.map Prod.fst).Nodup
  nodup' : (m'.inputs.map Prod.fst).Nodup
  lookup : ∀ user, m.inputs.lookup user = m'.inputs.lookup user
  next : m.nextSample = m'.nextSample
  start : m.start = m'.start

theorem mem_iff_lookup (hn : (inputs.map Prod.fst).Nodup) (e : String × Input) : e ∈ inputs ↔ inputs.lookup e.1 = some e.2 := by
  induction inputs with
  | nil => simp
  | cons e' inputs ih =>
      rw [List.map_cons, List.nodup_cons] at hn
      rw [List.mem_cons, List.lookup_cons, ih hn.2]
      by_cases heq : e.1 = e'.1
      · rw [beq_iff_eq.mpr heq]
        have hnone : inputs.lookup e.1 ≠ some e.2 := by
          intro hmem
          exact hn.1 (heq ▸ List.mem_map_of_mem ((ih hn.2).mpr hmem))
        simp only [hnone, or_false, Option.some.injEq]
        exact ⟨fun h => by rw [h], fun h => Prod.ext heq h.symm⟩
      · rw [beq_eq_false_iff_ne.mpr heq]
        exact or_iff_right fun h => heq (by rw [h])

theorem nodup_of_keys (hn : (inputs.map Prod.fst).Nodup) : inputs.Nodup := List.Nodup.of_map _ hn

theorem perm_of_lookup (hn : (inputs.map Prod.fst).Nodup) (hn' : (inputs'.map Prod.fst).Nodup)
    (h : ∀ user, inputs.lookup user = inputs'.lookup user) : inputs.Perm inputs' := by
  refine (List.perm_ext_iff_of_nodup (nodup_of_keys hn) (nodup_of_keys hn')).mpr fun e => ?_
  rw [mem_iff_lookup hn, mem_iff_lookup hn', h]

theorem lookup_of_perm (hn : (inputs.map Prod.fst).Nodup) (h : inputs.Perm inputs') (user : String) :
    inputs.lookup user = inputs'.lookup user := by
  have hn' : (inputs'.map Prod.fst).Nodup := (h.map Prod.fst).nodup hn
  refine Option.ext fun i => ?_
  rw [← mem_iff_lookup hn (user, i), ← mem_iff_lookup hn' (user, i)]
  exact h.mem_iff

theorem Alike.perm (h : Alike m m') : m.inputs.Perm m'.inputs := perm_of_lookup h.nodup h.nodup' h.lookup

theorem Alike.of_perm (hn : (m.inputs.map Prod.fst).Nodup) (h : m.inputs.Perm m'.inputs) (hnext : m.nextSample = m'.nextSample)
    (hstart : m.start = m'.start) : Alike m m' :=
  ⟨hn, (h.map Prod.fst).nodup hn, lookup_of_perm hn h, hnext, hstart⟩

/-! ## 混合の交換 -/

theorem addAt_comm (mixed values values' : List Int) (offset offset' : Nat) :
    addAt (addAt mixed offset values) offset' values' = addAt (addAt mixed offset' values') offset values := by
  refine List.ext_getElem? fun j => ?_
  simp only [getElem?_addAt, Option.map_map]
  congr 1
  funext v
  simp only [Function.comp_apply]
  omega

variable {channels : Nat} {next bound : Int}

/-- 足し合わせるのは `mixed` を通してだけなので、残りの列は `mixed` によらない。 -/
theorem mixInto_fst (n : Nat) (i : Input) (mixed mixed' : List Int) :
    (i.mixInto channels next bound n mixed).1 = (i.mixInto channels next bound n mixed').1 := by
  induction n generalizing i mixed mixed' with
  | zero => rfl
  | succ n ih =>
      rw [Input.mixInto, Input.mixInto]
      split
      · exact ih _ _ _
      · rfl

theorem mixInto_addAt (n : Nat) (i : Input) (mixed values : List Int) (offset : Nat) :
    (i.mixInto channels next bound n (addAt mixed offset values)).2 =
      addAt (i.mixInto channels next bound n mixed).2 offset values := by
  induction n generalizing i mixed with
  | zero => rfl
  | succ n ih =>
      rw [Input.mixInto, Input.mixInto]
      split
      · rw [addAt_comm, ih]
      · rfl

theorem mixInto_comm (channels : Nat) (next bound : Int) (n n' : Nat) (i i' : Input) (mixed : List Int) :
    (i.mixInto channels next bound n (i'.mixInto channels next bound n' mixed).2).2 =
      (i'.mixInto channels next bound n' (i.mixInto channels next bound n mixed).2).2 := by
  induction n' generalizing i' mixed with
  | zero => rfl
  | succ n' ih =>
      rw [Input.mixInto, Input.mixInto]
      split
      · rw [ih, mixInto_addAt]
      · rfl

/-- 利用者の残りの列。 -/
theorem mixAll_fst (inputs : List (String × Input)) (mixed : List Int) : (mixAll f next bound inputs mixed).1 =
    inputs.map fun e => (e.1, (e.2.mixInto f.channels next bound e.2.samples.length []).1) := by
  induction inputs generalizing mixed with
  | nil => rfl
  | cons e inputs ih =>
      rw [List.map_cons, ← mixInto_fst e.2.samples.length e.2 mixed [], ← ih]
      rfl

/-- 利用者の順序は、和を変えない。 -/
theorem mixAll_snd (h : inputs.Perm inputs') (mixed : List Int) :
    (mixAll f next bound inputs mixed).2 = (mixAll f next bound inputs' mixed).2 := by
  induction h generalizing mixed with
  | nil => rfl
  | cons e _ ih => exact ih _
  | swap e e' inputs =>
      have hswap := mixInto_comm f.channels next bound e.2.samples.length e'.2.samples.length e.2 e'.2 mixed
      exact congrArg (fun mixed => (mixAll f next bound inputs mixed).2) hswap
  | trans _ _ ih ih' => exact (ih mixed).trans (ih' mixed)

/-! ## 極値 -/

theorem nonEmpty_perm (h : inputs.Perm inputs') : (nonEmpty inputs).Perm (nonEmpty inputs') := (h.map Prod.snd).filter _

theorem latest_perm (h : inputs.Perm inputs') : latest f next inputs = latest f next inputs' :=
  ((nonEmpty_perm h).map _).foldl_eq next

theorem min?_perm {l l' : List Int} (h : l.Perm l') : l.min? = l'.min? := by
  refine Option.ext fun x => ?_
  rw [List.min?_eq_some_iff, List.min?_eq_some_iff, h.mem_iff]
  simp only [h.mem_iff]

theorem earliest_perm (h : inputs.Perm inputs') : earliest inputs = earliest inputs' := min?_perm ((nonEmpty_perm h).map _)

theorem startOf_perm (h : inputs.Perm inputs') : startOf f next inputs = startOf f next inputs' := by
  unfold startOf
  rw [earliest_perm h]

theorem any_perm {α : Type} {l l' : List α} (p : α → Bool) (h : l.Perm l') : l.any p = l'.any p := by
  rw [Bool.eq_iff_iff, List.any_eq_true, List.any_eq_true]
  simp only [h.mem_iff]

/-! ## `drain` の一回 -/

/-- 同じ結果であり、混合器も同じである。 -/
inductive Round.Alike : Round → Round → Prop where
  | done {a b} : AudioMixer.Alike a b → Round.Alike (.done a) (.done b)
  | leave {a b} : AudioMixer.Alike a b → Round.Alike (.leave a) (.leave b)
  | emit {a b} (x : Mix) : AudioMixer.Alike a b → Round.Alike (.emit x a) (.emit x b)

variable {now count drainEnd : Int} {flush : Bool}

theorem round_alike (f : Format) (d : Draining) (h : Alike m m') :
    Round.Alike (round f d.now d.count d.flush d.drainEnd m) (round f d.now d.count d.flush d.drainEnd m') := by
  have hperm : (m.inputs.map fun e => (e.1, e.2.discard f.channels m.nextSample)).Perm
      (m'.inputs.map fun e => (e.1, e.2.discard f.channels m.nextSample)) := h.perm.map _
  have hkeys : ((m.inputs.map fun e => (e.1, e.2.discard f.channels m.nextSample)).map Prod.fst).Nodup := by
    rw [keys_discard]
    exact h.nodup
  unfold round
  simp only
  rw [← h.next]
  generalize m.inputs.map (fun e => (e.1, e.2.discard f.channels m.nextSample)) = inputs at hperm hkeys ⊢
  generalize m'.inputs.map (fun e => (e.1, e.2.discard f.channels m.nextSample)) = inputs' at hperm ⊢
  rw [← latest_perm hperm, ← earliest_perm hperm, ← startOf_perm hperm,
    show awaited f d.now _ inputs' = awaited f d.now _ inputs from any_perm _ hperm.symm, ← mixAll_snd hperm]
  split
  · exact .done (.of_perm hkeys hperm rfl h.start)
  · split
    · exact .done (.of_perm hkeys hperm rfl h.start)
    · split
      · exact .done (.of_perm hkeys hperm rfl h.start)
      · split
        · exact .leave (.of_perm hkeys hperm rfl h.start)
        · refine .emit _ (.of_perm ?_ ?_ rfl h.start)
          · rw [keys_mixAll]
            exact hkeys
          · rw [mixAll_fst, mixAll_fst]
            exact hperm.map _

theorem sweep_alike (h : Alike m m') : Alike (sweep now m) (sweep now m') :=
  .of_perm (h.nodup.sublist (List.filter_sublist.map _)) (h.perm.filter _) h.next h.start

/-! ## `push` の一回 -/

/-- `push` の後の、その利用者の列。始めに拒むときは変わらない。 -/
def pushInput (f : Format) (now : Int) (swr : Swr) (frame : AudioFrame) (i : Option Input) : Option Input :=
  if !frame.valid ∨ frame.channels < 1 ∨ frame.sampleRate < 1 ∨ frame.data = [] then i
  else match convert f swr frame (i.getD {}) with
    | (none, i) => some i
    | (some converted, i) => some (append f (timestampSample f frame) now converted i)

variable {swr : Swr} {frame : AudioFrame} {userId : String}

theorem lookup?_store (user userId : String) (i : Input) (inputs : List (String × Input)) :
    (store userId i inputs).lookup user = if user = userId then some i else inputs.lookup user := by
  induction inputs with
  | nil =>
      rw [store, List.lookup_cons]
      by_cases h : user = userId
      · rw [beq_iff_eq.mpr h, if_pos h]
      · rw [beq_eq_false_iff_ne.mpr h, if_neg h]
  | cons e inputs ih =>
      unfold store
      by_cases he : e.1 = userId
      · rw [if_pos he, List.lookup_cons, List.lookup_cons, he]
        by_cases h : user = userId
        · rw [beq_iff_eq.mpr h, if_pos h]
        · rw [beq_eq_false_iff_ne.mpr h, if_neg h]
      · rw [if_neg he, List.lookup_cons, List.lookup_cons, ih]
        by_cases h : user = userId
        · have hne : (user == e.1) = false := beq_eq_false_iff_ne.mpr fun heq => he (heq ▸ h)
          rw [hne, if_pos h]
        · rw [if_neg h, if_neg h]

/-- `push` は、利用者の列だけを、その列から決める。 -/
theorem lookup_push (user : String) : (push f now swr frame userId m).2.inputs.lookup user =
    Function.update (fun user => m.inputs.lookup user) userId (pushInput f now swr frame (m.inputs.lookup userId)) user := by
  rw [Function.update_apply]
  unfold push pushInput
  have hlookup : lookup userId m.inputs = (m.inputs.lookup userId).getD {} := rfl
  split
  · split
    · rename_i heq
      rw [heq]
    · rfl
  · rw [← hlookup]
    generalize convert f swr frame (lookup userId m.inputs) = r
    obtain ⟨converted, i⟩ := r
    cases converted with
    | none => exact lookup?_store _ _ _ _
    | some converted => exact lookup?_store _ _ _ _

theorem next_push_of_anchored (f : Format) (now : Int) (swr : Swr) (frame : AudioFrame) (userId : String)
    (h : 0 ≤ m.nextSample) : (push f now swr frame userId m).2.nextSample = m.nextSample ∧
    (push f now swr frame userId m).2.start = m.start := by
  cases push_cases f now swr frame userId m with
  | inl hrejected =>
      obtain ⟨m', hpush, hnext, hstart, -⟩ := hrejected
      rw [hpush]
      exact ⟨hnext, hstart⟩
  | inr haccepted =>
      obtain ⟨converted, j, m', hpush, -, -, -, rfl⟩ := haccepted
      rw [hpush]
      simp only
      rw [if_neg (by omega), if_neg (by omega)]
      exact ⟨rfl, rfl⟩

theorem nodup_push (hn : (m.inputs.map Prod.fst).Nodup) : ((push f now swr frame userId m).2.inputs.map Prod.fst).Nodup := by
  cases push_cases f now swr frame userId m with
  | inl hrejected =>
      obtain ⟨m', hpush, -, -, hinputs⟩ := hrejected
      rw [hpush]
      cases hinputs with
      | inl hsame => rwa [hsame]
      | inr hstored =>
          obtain ⟨j, -, hinputs⟩ := hstored
          rw [hinputs]
          exact nodup_store hn
  | inr haccepted =>
      obtain ⟨converted, j, m', hpush, -, -, -, rfl⟩ := haccepted
      rw [hpush]
      exact nodup_store hn

/-- 同じ混合器への同じ `push` は、同じ混合器にする。 -/
theorem push_alike (h : Alike m m') : Alike (push f now swr frame userId m).2 (push f now swr frame userId m').2 := by
  have hlookup : lookup userId m.inputs = lookup userId m'.inputs := by
    unfold lookup
    rw [h.lookup]
  refine ⟨nodup_push h.nodup, nodup_push h.nodup', fun user => ?_, ?_, ?_⟩
  · have hsame : (fun user => m.inputs.lookup user) = fun user => m'.inputs.lookup user := funext h.lookup
    rw [lookup_push, lookup_push, hsame, h.lookup]
  · unfold push
    rw [hlookup, h.next, h.start]
    split
    · exact h.next
    · split <;> rfl
  · unfold push
    rw [hlookup, h.next, h.start]
    split
    · exact h.start
    · split <;> rfl

/-! ## 続けて起こること -/

variable {s s' : Run}

structure RunAlike (s s' : Run) : Prop where
  mixer : Alike s.mixer s'.mixer
  consuming : s.consuming = s'.consuming
  emitted : s.emitted = s'.emitted

theorem advance_alike (h : RunAlike s s') (d : Draining) : RunAlike (s.advance f d) (s'.advance f d) := by
  unfold Run.advance
  rw [← h.mixer.next]
  split
  · exact ⟨sweep_alike h.mixer, rfl, h.emitted⟩
  · have hround := round_alike f d h.mixer
    generalize round f d.now d.count d.flush d.drainEnd s.mixer = r at hround ⊢
    generalize round f d.now d.count d.flush d.drainEnd s'.mixer = r' at hround ⊢
    cases hround with
    | done ha => exact ⟨sweep_alike ha, rfl, h.emitted⟩
    | leave ha => exact ⟨ha, rfl, h.emitted⟩
    | emit x ha => exact ⟨ha, rfl, congrArg (· ++ [x]) h.emitted⟩

theorem step_alike (h : RunAlike s s') (op : Op) : RunAlike ((mixing f).step op s) ((mixing f).step op s') := by
  cases op with
  | push now swr frame userId =>
      obtain ⟨hmixer, hconsuming, hemitted⟩ := push_parts (f := f) now swr frame userId s
      obtain ⟨hmixer', hconsuming', hemitted'⟩ := push_parts (f := f) now swr frame userId s'
      refine ⟨?_, hconsuming.trans (h.consuming.trans hconsuming'.symm), hemitted.trans (h.emitted.trans hemitted'.symm)⟩
      change Alike (s.push f now swr frame userId).mixer (s'.push f now swr frame userId).mixer
      rw [hmixer, hmixer']
      exact push_alike h.mixer
  | drain now count flush =>
      change RunAlike (s.drain f now count flush) (s'.drain f now count flush)
      have hnil : s.mixer.inputs = [] ↔ s'.mixer.inputs = [] := by
        rw [← List.length_eq_zero_iff, ← List.length_eq_zero_iff, h.mixer.perm.length_eq]
      unfold Run.drain
      rw [← h.consuming, ← h.mixer.next, ← h.mixer.start, ← latest_perm h.mixer.perm]
      simp only [hnil]
      split
      · exact h
      · split
        · exact h
        · split
          · exact h
          · split
            · exact h
            · exact advance_alike h _
  | consumed ok =>
      change RunAlike (s.consumed f ok) (s'.consumed f ok)
      unfold Run.consumed
      rw [← h.consuming]
      split
      · exact h
      · split
        · exact advance_alike h _
        · exact ⟨h.mixer, rfl, h.emitted⟩

theorem run_alike (ops : List Op) (h : RunAlike s s') : RunAlike ((mixing f).run ops s) ((mixing f).run ops s') := by
  induction ops generalizing s s' with
  | nil => exact h
  | cons op ops ih => exact ih (step_alike h op)

/-! ## 主張 -/

/-- 利用者の列も次の位置も同じであり、これから作られるフレームも同じである。 -/
structure SameMix (f : Format) (s s' : Run) : Prop where
  buffers : ∀ user, s.mixer.inputs.lookup user = s'.mixer.inputs.lookup user
  next : s.mixer.nextSample = s'.mixer.nextSample
  frames : ∀ ops, ((mixing f).run ops s).emitted.map (Mix.frame f) = ((mixing f).run ops s').emitted.map (Mix.frame f)

def Op.user : Op → String
  | .push _ _ _ userId => userId
  | _ => ""

/-- 異なる利用者の二つの `push` も、利用者ごとに同じ列も、順序によらない。 -/
def OrderIndependent : Prop :=
  ∀ (f : Format) (s : Run), (s.mixer.inputs.map Prod.fst).Nodup → 0 ≤ s.mixer.nextSample →
    (∀ now swr frame userId swr' frame' userId', userId ≠ userId' →
      SameMix f ((mixing f).run [.push now swr frame userId, .push now swr' frame' userId'] s)
        ((mixing f).run [.push now swr' frame' userId', .push now swr frame userId] s)) ∧
    ∀ pushes pushes' : List Op, (∀ op ∈ pushes, op.IsPush) → (∀ op ∈ pushes', op.IsPush) →
      (∀ user, (pushes.filter fun op => op.user = user) = pushes'.filter fun op => op.user = user) →
      SameMix f ((mixing f).run pushes s) ((mixing f).run pushes' s)

theorem RunAlike.sameMix (h : RunAlike s s') : SameMix f s s' :=
  ⟨h.mixer.lookup, h.mixer.next, fun ops => by rw [(run_alike ops h).emitted]⟩

/-- `push` の、利用者の列への作用。 -/
def Op.act (f : Format) : Op → Option Input → Option Input
  | .push now swr frame _, i => pushInput f now swr frame i
  | _, i => i

/-- `push` の列は、利用者ごとに独立に作用し、位置を変えない。 -/
theorem run_pushes_lookup {pushes : List Op} (hp : ∀ op ∈ pushes, op.IsPush) (hn : (s.mixer.inputs.map Prod.fst).Nodup)
    (hnext : 0 ≤ s.mixer.nextSample) :
    (fun user => ((mixing f).run pushes s).mixer.inputs.lookup user) =
      Lib.actAll Op.user (Op.act f) pushes (fun user => s.mixer.inputs.lookup user) ∧
    (((mixing f).run pushes s).mixer.inputs.map Prod.fst).Nodup ∧
    ((mixing f).run pushes s).mixer.nextSample = s.mixer.nextSample ∧
    ((mixing f).run pushes s).mixer.start = s.mixer.start := by
  induction pushes generalizing s with
  | nil => exact ⟨rfl, hn, rfl, rfl⟩
  | cons op pushes ih =>
      cases op with
      | push now swr frame userId =>
          obtain ⟨hmixer, -, -⟩ := push_parts (f := f) now swr frame userId s
          obtain ⟨hnextPush, hstartPush⟩ := next_push_of_anchored f now swr frame userId hnext
          rw [← hmixer] at hnextPush hstartPush
          have hnodup : ((s.push f now swr frame userId).mixer.inputs.map Prod.fst).Nodup := by
            rw [hmixer]
            exact nodup_push hn
          have hlookup : (fun user => (s.push f now swr frame userId).mixer.inputs.lookup user) =
              Lib.actAt Op.user (Op.act f) (.push now swr frame userId) fun user => s.mixer.inputs.lookup user := by
            funext user
            rw [hmixer]
            exact lookup_push user
          obtain ⟨hrun, hrunNodup, hrunNext, hrunStart⟩ :=
            ih (fun op hop => hp op (List.mem_cons_of_mem _ hop)) hnodup (hnextPush ▸ hnext)
          rw [hlookup] at hrun
          exact ⟨hrun, hrunNodup, hrunNext.trans hnextPush, hrunStart.trans hstartPush⟩
      | drain now count flush => exact (hp _ List.mem_cons_self).elim
      | consumed ok => exact (hp _ List.mem_cons_self).elim

theorem run_pushes_alike {pushes pushes' : List Op} (hp : ∀ op ∈ pushes, op.IsPush) (hp' : ∀ op ∈ pushes', op.IsPush)
    (hn : (s.mixer.inputs.map Prod.fst).Nodup) (hnext : 0 ≤ s.mixer.nextSample)
    (h : ∀ user, (pushes.filter fun op => op.user = user) = pushes'.filter fun op => op.user = user) :
    RunAlike ((mixing f).run pushes s) ((mixing f).run pushes' s) := by
  obtain ⟨hlookup, hnodup, hsame, hstart⟩ := run_pushes_lookup (f := f) hp hn hnext
  obtain ⟨hlookup', hnodup', hsame', hstart'⟩ := run_pushes_lookup (f := f) hp' hn hnext
  obtain ⟨-, hconsuming, hemitted⟩ := run_pushes (f := f) hp s s rfl
  obtain ⟨-, hconsuming', hemitted'⟩ := run_pushes (f := f) hp' s s rfl
  refine ⟨⟨hnodup, hnodup', fun user => ?_, hsame.trans hsame'.symm, hstart.trans hstart'.symm⟩,
    hconsuming.trans hconsuming'.symm, hemitted.trans hemitted'.symm⟩
  rw [Lib.actAll_congr Op.user (Op.act f) h] at hlookup
  exact congrFun (hlookup.trans hlookup'.symm) user

theorem orderIndependent : OrderIndependent := by
  intro f s hn hnext
  refine ⟨fun now swr frame userId swr' frame' userId' hne => ?_, fun pushes pushes' hp hp' h => ?_⟩
  · refine (run_pushes_alike ?_ ?_ hn hnext fun user => ?_).sameMix
    · simp [Op.IsPush]
    · simp [Op.IsPush]
    · by_cases h : userId = user
      · subst h
        simp [Op.user, hne.symm]
      · simp [Op.user, List.filter_cons, h]
  · exact (run_pushes_alike hp hp' hn hnext h).sameMix

/-- 利用者 `a` が渡した後に、`a` と `b` がどの順に渡しても同じである。 -/
theorem orderIndependent_swapped :
    SameMix ⟨1000, 1⟩
      ((mixing ⟨1000, 1⟩).run [.push 0 silentSwr (monoFrame 1 [2]) "a", .push 0 silentSwr (monoFrame 1 [10]) "b"]
        ((mixing ⟨1000, 1⟩).run [.push 0 silentSwr (monoFrame 0 [1]) "a"] {}))
      ((mixing ⟨1000, 1⟩).run [.push 0 silentSwr (monoFrame 1 [10]) "b", .push 0 silentSwr (monoFrame 1 [2]) "a"]
        ((mixing ⟨1000, 1⟩).run [.push 0 silentSwr (monoFrame 0 [1]) "a"] {})) :=
  (orderIndependent ⟨1000, 1⟩ ((mixing ⟨1000, 1⟩).run [.push 0 silentSwr (monoFrame 0 [1]) "a"] {}) (by decide) (by decide)).1
    0 silentSwr (monoFrame 1 [2]) "a" silentSwr (monoFrame 1 [10]) "b" (by decide)

end RtcEgress.Media.AudioMixer
