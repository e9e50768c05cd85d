import Mathlib.Algebra.BigOperators.Group.List.Basic
import Mathlib.Algebra.Order.Ring.Int
import RtcEgress.Health.Manager

/-!
# 地域の集計

集計が読む間に Pod が書いても、読める集計は、その地域の生きていた Pod を一つずつ、漏れも重なりもなく足したものである。
-/

namespace RtcEgress.Health

open RtcEgress.Lib

/-! ## 足し合わせ -/

theorem accumulate_fst (f : Floats) (readings : List Reading) (total : RegionalStats) (cpu memory : Rat) :
    (accumulate f total cpu memory (readings.map Prod.fst) (readings.map Prod.snd)).1 =
      { total with
        healthyPods := total.healthyPods + readings.countP fun r => r.1.status = "healthy"
        totalWorkers := total.totalWorkers + (readings.map fun r => r.1.maxWorkers).sum
        nativeWorkers := total.nativeWorkers +
          ((readings.filter fun r => r.1.mode = 0).map fun r => r.1.maxWorkers).sum
        activeTasks := total.activeTasks + (readings.map fun r => r.2.activeTasks).sum
        availableCapacity := total.availableCapacity + (readings.map fun r => r.2.availableWorkers).sum } := by
  induction readings generalizing total cpu memory with
  | nil => simp [accumulate]
  | cons r readings ih =>
      simp only [List.map_cons, accumulate, ih, RegionalStats.mk.injEq, List.countP_cons, List.filter_cons, true_and,
        and_true]
      refine ⟨?_, Int.add_assoc _ _ _, ?_, Int.add_assoc _ _ _, Int.add_assoc _ _ _⟩
      · by_cases hstatus : r.1.status = "healthy"
        · simp only [hstatus, if_true, decide_true, Nat.cast_add, Nat.cast_one, Int.add_assoc, Int.add_comm 1]
        · simp only [hstatus, if_false, decide_false, Nat.add_zero, Bool.false_eq_true]
      · by_cases hmode : r.1.mode = 0
        · simp only [hmode, if_true, decide_true, List.map_cons, List.sum_cons, Int.add_assoc]
        · simp only [hmode, if_false, decide_false, Bool.false_eq_true]

/-- 集計の各欄は、メンバーの欄の和である。 -/
structure Totals (stats : RegionalStats) (members : List Reading) : Prop where
  totalPods : stats.totalPods = members.length
  healthyPods : stats.healthyPods = members.countP fun r => r.1.status = "healthy"
  totalWorkers : stats.totalWorkers = (members.map fun r => r.1.maxWorkers).sum
  nativeWorkers : stats.nativeWorkers = ((members.filter fun r => r.1.mode = 0).map fun r => r.1.maxWorkers).sum
  activeTasks : stats.activeTasks = (members.map fun r => r.2.activeTasks).sum
  availableCapacity : stats.availableCapacity = (members.map fun r => r.2.availableWorkers).sum

theorem totals_regionalStats (f : Floats) (members : List Reading) (now : Nat) :
    Totals (regionalStats f (members.map Prod.fst) (members.map Prod.snd) now) members := by
  have hsum := accumulate_fst f members { totalPods := members.length, lastUpdated := now } 0 0
  unfold regionalStats
  rw [List.length_map]
  generalize accumulate f { totalPods := members.length, lastUpdated := now } 0 0 (members.map Prod.fst)
    (members.map Prod.snd) = result at hsum ⊢
  obtain ⟨total, cpu, memory⟩ := result
  obtain rfl := hsum
  dsimp only
  split <;> constructor <;> simp

/-! ## 書いた値 -/

/-- 書く値は、プロセスの値である。 -/
structure Write.Own (processes : Nat → HealthManager) (w : Write) : Prop where
  podID : w.info.podID = (processes w.process).podID
  region : w.info.region = (processes w.process).region
  mode : w.info.mode = (processes w.process).mode
  maxWorkers : w.info.maxWorkers = (processes w.process).maxWorkers
  balanced : ∀ capacity ∈ w.capacity, capacity.activeTasks + capacity.availableWorkers = (processes w.process).maxWorkers

/-- 時刻 `started` に生きていて、`now` までに書かれた。 -/
def InWindow (started now : Nat) (w : Write) : Prop := w.time ≤ now ∧ started ≤ w.time + podHealthTTL

/-- 読んだ Pod の様子を、書いたことがある。 -/
def InfoWritten (writes : List Write) (started now : Nat) (info : PodInfo) : Prop :=
  ∃ w ∈ writes, InWindow started now w ∧ w.info = info

def CapacityWritten (writes : List Write) (started now : Nat) (podID : String) (capacity : CapacityMetrics) : Prop :=
  ∃ w ∈ writes, InWindow started now w ∧ w.info.podID = podID ∧ w.capacity = some capacity

/-- 読んだ一組は、同じ名前の Pod が書いたものである。 -/
structure Sound (writes : List Write) (started now : Nat) (r : Reading) : Prop where
  info : InfoWritten writes started now r.1
  capacity : CapacityWritten writes started now r.1.podID r.2

/-- 読んだ Pod の名前。 -/
def ids (readings : List Reading) : List String := readings.map fun r => r.1.podID

/-- 集計の途中で成り立つこと。 -/
def Phase.Ok (writes : List Write) (now : Nat) : Phase → Prop
  | .idle => True
  | .listing started podIDs readings =>
      started ≤ now ∧ (podIDs ++ ids readings).Nodup ∧ ∀ r ∈ readings, Sound writes started now r
  | .reading started podID info podIDs readings =>
      started ≤ now ∧ (podID :: (podIDs ++ ids readings)).Nodup ∧ (∀ r ∈ readings, Sound writes started now r) ∧
        info.podID = podID ∧ InfoWritten writes started now info
  | .storing started regions readings =>
      started ≤ now ∧ (ids readings).Nodup ∧ (∀ r ∈ readings, Sound writes started now r) ∧
        ∀ region ∈ regions, ∃ r ∈ readings, regionOf r.1 = region

/-- 保存した集計は、時刻 `stored` に、その地域の Pod を一つずつ足したものである。 -/
structure Exact (f : Floats) (writes : List Write) (region : String) (stats : RegionalStats) (started stored : Nat)
    (members : List Reading) : Prop where
  started_le : started ≤ stored
  nonempty : members ≠ []
  distinct : (ids members).Nodup
  regional : ∀ r ∈ members, regionOf r.1 = region
  sound : ∀ r ∈ members, Sound writes started stored r
  stats : stats = regionalStats f (members.map Prod.fst) (members.map Prod.snd) stored

/-! ## 不変条件 -/

structure State.Inv (f : Floats) (processes : Nat → HealthManager) (s : State) : Prop where
  own : ∀ w ∈ s.writes, w.Own processes
  pods : s.pods.All fun podID info t => ∃ w ∈ s.writes, w.time ≤ s.now ∧ t = w.time + podHealthTTL ∧ w.info = info ∧
    info.podID = podID
  capacities : s.capacities.All fun podID capacity t => ∃ w ∈ s.writes, w.time ≤ s.now ∧ t = w.time + podHealthTTL ∧
    w.info.podID = podID ∧ w.capacity = some capacity
  phases : ∀ i, (s.phases i).Ok s.writes s.now
  regions : s.regions.All fun region stats t => ∃ started stored members, t = stored + 2 * statsInterval ∧ stored ≤ s.now ∧
    Exact f s.writes region stats started stored members

section Inv

variable {f : Floats} {processes : Nat → HealthManager} {s : State} {writes writes' : List Write} {started now now' : Nat}

theorem InfoWritten.mono {info : PodInfo} (h : InfoWritten writes started now info) (hw : writes ⊆ writes')
    (hnow : now ≤ now') : InfoWritten writes' started now' info := by
  obtain ⟨w, hmem, hwindow, hinfo⟩ := h
  exact ⟨w, hw hmem, ⟨hwindow.1.trans hnow, hwindow.2⟩, hinfo⟩

theorem CapacityWritten.mono {podID : String} {capacity : CapacityMetrics}
    (h : CapacityWritten writes started now podID capacity) (hw : writes ⊆ writes') (hnow : now ≤ now') :
    CapacityWritten writes' started now' podID capacity := by
  obtain ⟨w, hmem, hwindow, hcapacity⟩ := h
  exact ⟨w, hw hmem, ⟨hwindow.1.trans hnow, hwindow.2⟩, hcapacity⟩

theorem Sound.mono {r : Reading} (h : Sound writes started now r) (hw : writes ⊆ writes') (hnow : now ≤ now') :
    Sound writes' started now' r :=
  ⟨h.info.mono hw hnow, h.capacity.mono hw hnow⟩

theorem Phase.Ok.mono {phase : Phase} (h : phase.Ok writes now) (hw : writes ⊆ writes') (hnow : now ≤ now') :
    phase.Ok writes' now' := by
  cases phase with
  | idle => trivial
  | listing started podIDs readings =>
      obtain ⟨hle, hnodup, hsound⟩ := h
      exact ⟨hle.trans hnow, hnodup, fun r hr => (hsound r hr).mono hw hnow⟩
  | reading started podID info podIDs readings =>
      obtain ⟨hle, hnodup, hsound, hid, hinfo⟩ := h
      exact ⟨hle.trans hnow, hnodup, fun r hr => (hsound r hr).mono hw hnow, hid, hinfo.mono hw hnow⟩
  | storing started regions readings =>
      obtain ⟨hle, hnodup, hsound, hregions⟩ := h
      exact ⟨hle.trans hnow, hnodup, fun r hr => (hsound r hr).mono hw hnow, hregions⟩

theorem Exact.mono {region : String} {stats : RegionalStats} {stored : Nat} {members : List Reading}
    (h : Exact f writes region stats started stored members) (hw : writes ⊆ writes') :
    Exact f writes' region stats started stored members :=
  { h with sound := fun r hr => (h.sound r hr).mono hw (Nat.le_refl stored) }

theorem inv_init : (State.init).Inv f processes where
  own _ hw := absurd hw List.not_mem_nil
  pods := .empty
  capacities := .empty
  phases _ := trivial
  regions := .empty

/-- 時刻だけが進む。 -/
theorem State.Inv.tick (h : s.Inv f processes) (duration : Nat) :
    ({ s with now := s.now + duration } : State).Inv f processes where
  own := h.own
  pods := h.pods.mono fun _ _ _ ⟨w, hw, hle, hrest⟩ => ⟨w, hw, hle.trans (Nat.le_add_right _ _), hrest⟩
  capacities := h.capacities.mono fun _ _ _ ⟨w, hw, hle, hrest⟩ => ⟨w, hw, hle.trans (Nat.le_add_right _ _), hrest⟩
  phases i := (h.phases i).mono (List.Subset.refl _) (Nat.le_add_right _ _)
  regions := h.regions.mono fun _ _ _ ⟨started, stored, members, ht, hle, hexact⟩ =>
    ⟨started, stored, members, ht, hle.trans (Nat.le_add_right _ _), hexact⟩

theorem State.Inv.write {w : Write} (h : s.Inv f processes) (hown : w.Own processes) (htime : w.time = s.now) :
    (s.write w).Inv f processes := by
  have hsub : s.writes ⊆ w :: s.writes := List.subset_cons_self _ _
  constructor
  · intro w' hw'
    cases List.mem_cons.mp hw' with
    | inl heq => exact heq ▸ hown
    | inr hold => exact h.own w' hold
  · apply Expiring.All.set
    · exact h.pods.mono fun _ _ _ ⟨w', hw', hrest⟩ => ⟨w', hsub hw', hrest⟩
    · exact ⟨w, List.mem_cons_self, htime.le, by rw [htime], rfl, rfl⟩
  · have hold : s.capacities.All fun podID capacity t => ∃ w' ∈ w :: s.writes, w'.time ≤ s.now ∧
        t = w'.time + podHealthTTL ∧ w'.info.podID = podID ∧ w'.capacity = some capacity :=
      h.capacities.mono fun _ _ _ ⟨w', hw', hrest⟩ => ⟨w', hsub hw', hrest⟩
    cases hcapacity : w.capacity with
    | none => simpa only [State.write, hcapacity] using hold
    | some capacity =>
        simp only [State.write, hcapacity]
        exact hold.set ⟨w, List.mem_cons_self, htime.le, by rw [htime], rfl, hcapacity⟩
  · exact fun i => (h.phases i).mono hsub (Nat.le_refl _)
  · exact h.regions.mono fun _ _ _ ⟨started, stored, members, ht, hle, hexact⟩ =>
      ⟨started, stored, members, ht, hle, hexact.mono hsub⟩

theorem State.Inv.setPhase {i : Nat} {phase : Phase} (h : s.Inv f processes) (hphase : phase.Ok s.writes s.now) :
    (s.setPhase i phase).Inv f processes where
  own := h.own
  pods := h.pods
  capacities := h.capacities
  phases j := by
    by_cases hj : j = i
    · subst hj
      simpa [State.setPhase] using hphase
    · simpa [State.setPhase, hj] using h.phases j
  regions := h.regions

/-- 読んだ値は、キーを並べた時刻にも生きていたと分かる。 -/
theorem State.Inv.get_pod (h : s.Inv f processes) {podID : String} {info : PodInfo} (hget : s.pods.get s.now podID = some info)
    (hstarted : started ≤ s.now) : info.podID = podID ∧ InfoWritten s.writes started s.now info := by
  obtain ⟨_, hle, w, hw, htime, rfl, hinfo, hid⟩ := h.pods.get hget
  exact ⟨hid, w, hw, ⟨htime, hstarted.trans hle⟩, hinfo⟩

theorem State.Inv.get_capacity (h : s.Inv f processes) {podID : String} {capacity : CapacityMetrics}
    (hget : s.capacities.get s.now podID = some capacity) (hstarted : started ≤ s.now) :
    CapacityWritten s.writes started s.now podID capacity := by
  obtain ⟨_, hle, w, hw, htime, rfl, hid, hcapacity⟩ := h.capacities.get hget
  exact ⟨w, hw, ⟨htime, hstarted.trans hle⟩, hid, hcapacity⟩

theorem State.Inv.storeRegion {region : String} {readings : List Reading} (h : s.Inv f processes) (hstarted : started ≤ s.now)
    (hnodup : (ids readings).Nodup) (hsound : ∀ r ∈ readings, Sound s.writes started s.now r)
    (hregion : ∃ r ∈ readings, regionOf r.1 = region) : (s.storeRegion f region readings).Inv f processes := by
  refine { h with regions := h.regions.set ?_ }
  refine ⟨started, s.now, readings.filter fun r => regionOf r.1 = region, rfl, Nat.le_refl _, ?_⟩
  constructor
  · exact hstarted
  · obtain ⟨r, hr, hr'⟩ := hregion
    exact List.ne_nil_of_mem (List.mem_filter.mpr ⟨hr, decide_eq_true hr'⟩)
  · exact hnodup.sublist (List.filter_sublist.map _)
  · exact fun r hr => of_decide_eq_true (List.mem_filter.mp hr).2
  · exact fun r hr => hsound r (List.mem_filter.mp hr).1
  · rfl

theorem State.Inv.advance (h : s.Inv f processes) (i : Nat) (ok : Bool) (choice : Nat) :
    (s.advance f i ok choice).Inv f processes := by
  have hphase := h.phases i
  unfold State.advance
  cases hcase : s.phases i with
  | idle => exact h
  | listing started podIDs readings =>
      rw [hcase] at hphase
      obtain ⟨hle, hnodup, hsound⟩ := hphase
      cases podIDs with
      | nil =>
          refine h.setPhase ⟨hle, hnodup, hsound, fun region hregion => ?_⟩
          exact List.mem_map.mp (List.mem_dedup.mp hregion)
      | cons podID podIDs =>
          dsimp only
          cases hget : (s.pods.get s.now podID).filter fun _ => ok with
          | none => exact h.setPhase ⟨hle, (List.nodup_cons.mp hnodup).2, hsound⟩
          | some info =>
              obtain ⟨hid, hinfo⟩ := h.get_pod (Option.filter_eq_some_iff.mp hget).1 hle
              exact h.setPhase ⟨hle, hnodup, hsound, hid, hinfo⟩
  | reading started podID info podIDs readings =>
      rw [hcase] at hphase
      obtain ⟨hle, hnodup, hsound, rfl, hinfo⟩ := hphase
      dsimp only
      cases hget : (s.capacities.get s.now info.podID).filter fun _ => ok with
      | none => exact h.setPhase ⟨hle, (List.nodup_cons.mp hnodup).2, hsound⟩
      | some capacity =>
          have hcapacity := h.get_capacity (Option.filter_eq_some_iff.mp hget).1 hle
          refine h.setPhase ⟨hle, ?_, fun r hr => ?_⟩
          · have hids : podIDs ++ ids (readings ++ [(info, capacity)]) = podIDs ++ ids readings ++ [info.podID] := by
              simp [ids]
            rw [hids]
            exact (List.perm_append_singleton _ _).nodup_iff.mpr hnodup
          · cases List.mem_append.mp hr with
            | inl hold => exact hsound r hold
            | inr hnew =>
                cases List.mem_singleton.mp hnew
                exact ⟨hinfo, hcapacity⟩
  | storing started regions readings =>
      rw [hcase] at hphase
      obtain ⟨hle, hnodup, hsound, hregions⟩ := hphase
      dsimp only
      cases hchoice : regions[choice]? with
      | none =>
          dsimp only
          split
          · exact h.setPhase trivial
          · exact h
      | some region =>
          have hrest : Phase.Ok s.writes s.now (.storing started (regions.erase region) readings) :=
            ⟨hle, hnodup, hsound, fun region' hregion' => hregions region' (List.mem_of_mem_erase hregion')⟩
          cases ok with
          | true =>
              have hstored := h.storeRegion hle hnodup hsound (hregions region (List.mem_of_getElem? hchoice))
              exact hstored.setPhase hrest
          | false => exact h.setPhase hrest

theorem inv_step (op : Op) (h : s.Inv f processes) : (State.step f processes op s).Inv f processes := by
  cases op with
  | tick duration => exact h.tick duration
  | registerPod i => exact h.write ⟨rfl, rfl, rfl, rfl, fun _ hc => absurd hc (Option.not_mem_none _)⟩ rfl
  | sendHeartbeat i sampledAt activeTaskCount cpu memory =>
      refine h.write ⟨rfl, rfl, rfl, rfl, fun capacity hc => ?_⟩ rfl
      obtain rfl := Option.some.inj hc
      exact add_sub_cancel _ _
  | calculateRegionalStats i podIDs =>
      unfold State.step
      dsimp only
      split
      · split
        next hperm =>
          refine h.setPhase ⟨Nat.le_refl _, ?_, fun _ hr => absurd hr List.not_mem_nil⟩
          rw [ids, List.map_nil, List.append_nil]
          exact (List.isPerm_iff.mp hperm).nodup_iff.mpr (s.pods.nodup_alive s.now)
        · exact h
      · exact h
  | advance i ok choice => exact h.advance i ok choice

theorem inv_run (f : Floats) (processes : Nat → HealthManager) (ops : List Op) :
    ((health f processes).run ops State.init : State).Inv f processes :=
  System.run_invariant (S := health f processes) (fun op _ h => inv_step op h) ops inv_init

end Inv

/-! ## 読める集計 -/

/-- 読める集計は、十秒の内に保存され、その地域の、生きていた別々の Pod の値を足したものである。 -/
theorem regionalStats_exact (f : Floats) (processes : Nat → HealthManager) (ops : List Op) {region : String}
    {stats : RegionalStats} (h : ((health f processes).run ops State.init : State).getRegionalStats region = some stats) :
    let s : State := (health f processes).run ops State.init
    ∃ started stored members, stored ≤ s.now ∧ s.now ≤ stored + 2 * statsInterval ∧
      Exact f s.writes region stats started stored members ∧ Totals stats members := by
  obtain ⟨_, hle, started, stored, members, rfl, hstored, hexact⟩ := (inv_run f processes ops).regions.get h
  exact ⟨started, stored, members, hstored, hle, hexact, hexact.stats ▸ totals_regionalStats f members stored⟩

def twoPods (i : Nat) : HealthManager :=
  { podID := if i = 0 then "a" else "b", region := "", version := "1", startTime := 0, mode := 0, maxWorkers := 4 }

def rational : Floats := ⟨(· + ·), (· / ·)⟩

/-- 二つの Pod の心拍の後の集計。読む間に、一方がもう一度書く。 -/
def twoBeats : List Op :=
  [.registerPod 0, .sendHeartbeat 0 0 1 0 0, .tick 1000, .sendHeartbeat 1 500 2 0 0, .calculateRegionalStats 0 ["a", "b"],
    .advance 0 true 0, .sendHeartbeat 0 900 3 0 0, .advance 0 true 0, .advance 0 true 0, .advance 0 true 0,
    .advance 0 true 0, .advance 0 true 0]

theorem regionalStats_exact_twoPods : ∃ stats started stored members,
    ((health rational twoPods).run twoBeats State.init : State).getRegionalStats "global" = some stats ∧
      Exact rational ((health rational twoPods).run twoBeats State.init : State).writes "global" stats started stored members ∧
        stats.totalPods = 2 ∧ stats.activeTasks = 5 := by
  have hstats : (((health rational twoPods).run twoBeats State.init : State).getRegionalStats "global").map
      (fun stats => (stats.totalPods, stats.activeTasks)) = some (2, 5) := by decide
  obtain ⟨stats, hget, heq⟩ := Option.map_eq_some_iff.mp hstats
  obtain ⟨hpods, htasks⟩ := Prod.mk.inj heq
  obtain ⟨started, stored, members, -, -, hexact, -⟩ := regionalStats_exact rational twoPods twoBeats hget
  exact ⟨stats, started, stored, members, hget, hexact, hpods, htasks⟩

/-- 同じ名前のプロセスの `maxWorkers` が等しければ、読める集計では、使っている数と空いている数の和が全体の数である。 -/
theorem regionalStats_balanced (f : Floats) {processes : Nat → HealthManager}
    (hworkers : ∀ i j, (processes i).podID = (processes j).podID → (processes i).maxWorkers = (processes j).maxWorkers)
    (ops : List Op) {region : String} {stats : RegionalStats}
    (h : ((health f processes).run ops State.init : State).getRegionalStats region = some stats) :
    stats.activeTasks + stats.availableCapacity = stats.totalWorkers ∧ stats.healthyPods ≤ stats.totalPods ∧
      0 < stats.totalPods := by
  have hinv := inv_run f processes ops
  obtain ⟨_, -, started, stored, members, -, -, hexact⟩ := hinv.regions.get h
  have htotals : Totals stats members := hexact.stats ▸ totals_regionalStats f members stored
  have hbalanced : ∀ r ∈ members, r.2.activeTasks + r.2.availableWorkers = r.1.maxWorkers := by
    intro r hr
    obtain ⟨w, hw, -, hinfo⟩ := (hexact.sound r hr).info
    obtain ⟨w', hw', -, hid, hcapacity⟩ := (hexact.sound r hr).capacity
    have hown := hinv.own w hw
    have hown' := hinv.own w' hw'
    have hpod : (processes w'.process).podID = (processes w.process).podID := by
      rw [← hown'.podID, ← hown.podID, hid, hinfo]
    rw [hown'.balanced r.2 hcapacity, hworkers _ _ hpod, ← hown.maxWorkers, hinfo]
  refine ⟨?_, ?_, ?_⟩
  · rw [htotals.activeTasks, htotals.availableCapacity, htotals.totalWorkers, ← List.sum_map_add]
    exact congrArg List.sum (List.map_congr_left hbalanced)
  · rw [htotals.healthyPods, htotals.totalPods]
    exact_mod_cast List.countP_le_length
  · rw [htotals.totalPods]
    exact_mod_cast List.length_pos_iff.mpr hexact.nonempty

theorem regionalStats_balanced_twoPods : ∃ stats,
    ((health rational twoPods).run twoBeats State.init : State).getRegionalStats "global" = some stats ∧
      stats.totalWorkers = 8 ∧ stats.activeTasks + stats.availableCapacity = stats.totalWorkers := by
  have hstats : (((health rational twoPods).run twoBeats State.init : State).getRegionalStats "global").map
      (fun stats => stats.totalWorkers) = some 8 := by decide
  obtain ⟨stats, hget, hworkers⟩ := Option.map_eq_some_iff.mp hstats
  exact ⟨stats, hget, hworkers, (regionalStats_balanced rational (fun _ _ _ => rfl) twoBeats hget).1⟩

end RtcEgress.Health
