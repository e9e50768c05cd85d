import Mathlib.Algebra.BigOperators.Group.Finset.Basic
import RtcEgress.Media.MixerWrites

/-!
# 受け取られた音声の行方

受け取られたときに混合の済んでいなかった標本が、どれもフレームに足されるか、半秒の上限で除かれるための条件を求める。
時刻が 64 ビットの位置に直せる範囲にあれば、失われるのは、間が空いて位置を合わせ直すときに、待っている標本が残っている場合だけ
である。
-/

namespace RtcEgress.Media.AudioMixer

open Lib (System)

/-! ## 主張 -/

/-- フレームの中の位置である。 -/
def Mix.Holds (f : Format) (x : Mix) (p : Int) : Prop :=
  x.start ≤ p ∧ (p - x.start).toNat * f.channels < x.mixed.length

/-- 作られたフレームに足されたか、半秒の上限で除かれた。 -/
def Sample.Served (f : Format) (s : Run) (e : Sample) : Prop :=
  (∃ x ∈ s.emitted, e.fate = .mixed x ∧ x.Holds f e.position) ∨ e.fate = .evicted

/-- `consume` がいつも受け取る、空にする `drain`。 -/
def flushing (now count : Int) (n : Nat) : List Op := .drain now count true :: List.replicate n (.consumed true)

/-- 最後に空にすれば、受け取られた標本は、もれなく足されているか、上限で除かれている。 -/
def MixesAll (f : Format) (ops : List Op) : Prop :=
  ∀ now count : Int, 0 < count → ∃ n₀, ∀ n, n₀ ≤ n →
    ((mixing f).run (ops ++ flushing now count n) {}).consuming = none ∧
    ∀ e ∈ ((mixing f).run (ops ++ flushing now count n) {}).samples, e.due →
      e.Served f ((mixing f).run (ops ++ flushing now count n) {})

/-- どの操作の列も、失わない。 -/
def NeverLoses : Prop :=
  ∀ f : Format, 2 ≤ f.rate → f.rate ≤ 192000 → 1 ≤ f.channels → ∀ ops : List Op,
    ((mixing f).run ops {}).consuming = none → MixesAll f ops

/-- 位置を合わせ直すのは、列に混合の済んでいない標本がないときだけである。 -/
def Unbroken (f : Format) : (mixing f).Condition
  | .push now swr frame userId, s =>
      (AudioMixer.push f now swr frame userId s.mixer).1 → Anew f frame (lookup userId s.mixer.inputs) →
        (lookup userId s.mixer.inputs).samples = [] ∨
          (lookup userId s.mixer.inputs).endSample f.channels ≤ s.mixer.nextSample
  | _, _ => True

/-- 時刻が範囲にあり、待っている標本のある列の位置を合わせ直さない。 -/
def Kept (f : Format) : (mixing f).Condition := fun op s => stamped f op s ∧ Unbroken f op s

/-! ## 行方 -/

variable {f : Format} {m m' : AudioMixer} {s : Run} {e : Sample} {fate : Sample → Fate} {samples : List Sample}

theorem settle_of_waiting (hw : e.waiting) (hheld : held f m e.userId e.position 0 = none) :
    e.settle f m fate = { e with fate := fate e } := by
  unfold Sample.settle
  rw [if_pos ⟨hw, hheld⟩]

theorem settle_of_held (hheld : e.waiting → held f m e.userId e.position 0 ≠ none) : e.settle f m fate = e := by
  unfold Sample.settle
  rw [if_neg fun h => hheld h.1 h.2]

/-- 待っていた標本でなければ、行方はもう変わらない。 -/
theorem fate_settle (h : e.fate ≠ .waiting) : (e.settle f m fate).fate = e.fate := by
  rw [settle_of_held fun hw => absurd (waiting_iff.mp hw) h]

/-- 捨てられた標本のうち、受け取りのときに混合の済んでいなかったものはない。 -/
def NoneLost (samples : List Sample) : Prop := ∀ e ∈ samples, e.due → e.fate ≠ .cleared ∧ e.fate ≠ .late

theorem NoneLost.of_settle (h : NoneLost (samples.map (Sample.settle f m fate))) : NoneLost samples := by
  intro e he hdue
  have hsettled := h _ (List.mem_map_of_mem he) (settle_due.trans hdue)
  by_cases hw : e.fate = .waiting
  · rw [hw]
    exact ⟨nofun, nofun⟩
  · rwa [fate_settle hw] at hsettled

/-- 列から消える標本の行方が捨てられることでなければ、失われない。 -/
theorem NoneLost.settle (h : NoneLost samples)
    (hlost : ∀ e ∈ samples, e.due → e.waiting → held f m e.userId e.position 0 = none → fate e ≠ .cleared ∧ fate e ≠ .late) :
    NoneLost (samples.map (Sample.settle f m fate)) := by
  intro e he hdue
  obtain ⟨e₀, he₀, rfl⟩ := List.mem_map.mp he
  rw [settle_due] at hdue
  by_cases hheld : e₀.waiting = true ∧ held f m e₀.userId e₀.position 0 = none
  · rw [settle_of_waiting hheld.1 hheld.2]
    exact hlost e₀ he₀ hdue hheld.1 hheld.2
  · rw [settle_of_held fun hw hnone => hheld ⟨hw, hnone⟩]
    exact h e₀ he₀ hdue

/-! ## 各操作 -/

/-- 標本のない間を飛ばしても、失わない。 -/
theorem noneLost_skip (hc : 0 < f.channels) (h : Listed f m samples) (ha : Advances f m m') (hp : Passes f m m'.nextSample) :
    NoneLost (samples.map (Sample.settle f m' fun _ => .late)) ↔ NoneLost samples := by
  refine ⟨.of_settle, fun hn => hn.settle fun e he hdue hw hnone => ?_⟩
  have hheld := h.held_of_waiting hc he hw
  have hle : m'.nextSample ≤ e.position := hp _ _ 0 ((h.due e he hw).mp hdue) hc hheld
  rw [ha.rest, if_pos hle] at hnone
  exact absurd hnone hheld

theorem noneLost_emit {x : Mix} {count : Int} (hc : 0 < f.channels) (h : Listed f m samples) (ha : Advances f m m')
    (hp : Passes f m x.start) (hnext : m'.nextSample = x.start + count) :
    NoneLost (samples.map (Sample.settle f m' fun e => if x.covers count e.position then .mixed x else .late)) ↔
      NoneLost samples := by
  refine ⟨.of_settle, fun hn => hn.settle fun e he hdue hw hnone => ?_⟩
  have hheld := h.held_of_waiting hc he hw
  have hle : x.start ≤ e.position := hp _ _ 0 ((h.due e he hw).mp hdue) hc hheld
  have hlt : e.position < x.start + count := by
    by_contra hge
    rw [ha.rest, if_pos (by omega)] at hnone
    exact hheld hnone
  have hcovers : x.covers count e.position = true := by simp [Mix.covers, hle, hlt]
  rw [hcovers]
  constructor <;> intro hfate <;> cases hfate

theorem noneLost_advance (hc : 0 < f.channels) (h : Inv f s) {d : Draining} (hd : 0 < d.count) :
    NoneLost (s.advance f d).samples ↔ NoneLost s.samples := by
  have hstep := advanced hc hd s
  generalize s.advance f d = s' at hstep ⊢
  cases hstep with
  | ended => exact Iff.rfl
  | done ha hp => exact noneLost_skip hc h.listed ha hp
  | left ha hp => exact noneLost_skip hc h.listed ha hp
  | emitted ha hp hx => exact noneLost_emit hc h.listed ha hp hx.nextSample

variable {frame : AudioFrame} {userId : String} {converted : List Int} {first : Int}

/-- 合わせ直すときに列に残っている標本は、失われる。 -/
theorem exists_cleared (hc : 0 < f.channels) (hs : Sound f m) (h : Listed f m samples)
    (ha : Appends f frame userId converted first m m') (hanew : Anew f frame (lookup userId m.inputs))
    (hne : (lookup userId m.inputs).samples ≠ []) (hlt : m.nextSample < (lookup userId m.inputs).endSample f.channels) :
    ¬NoneLost (samples.map (Sample.settle f m' fun _ => .cleared)) := by
  intro hn
  obtain ⟨haligned, -, -⟩ := lookup_sound hs userId
  have hfirst := Input.first_lt_end hc haligned hne
  have hlast : held f m userId ((lookup userId m.inputs).endSample f.channels - 1) 0 ≠ none := by
    obtain ⟨k, hk⟩ := haligned
    have hend : (lookup userId m.inputs).endSample f.channels = (lookup userId m.inputs).firstSample + k := by
      rw [Input.endSample, hk, Nat.mul_div_cancel_left k hc]
    have hindex : ((lookup userId m.inputs).endSample f.channels - 1 - (lookup userId m.inputs).firstSample).toNat = k - 1 := by
      omega
    have hpos : 0 < k := by omega
    rw [held, Input.sampleAt, if_pos (by omega), hindex]
    simp only [ne_eq, List.getElem?_eq_none_iff, not_le, hk, Nat.add_zero, Nat.mul_comm f.channels]
    exact Nat.mul_lt_mul_of_pos_right (by omega) hc
  obtain ⟨e, he, hw, huser, hp⟩ := h.complete userId _ hlast
  have hdue : e.due = true := (h.due e he hw).mpr (by omega)
  have hnone : held f m' e.userId e.position 0 = none := by
    rw [huser, hp, ha.mine _ 0 hc, if_pos (ha.ended _ 0 hc hlast), if_pos hanew, ite_self]
  have hcleared := hn _ (List.mem_map_of_mem he) (settle_due.trans hdue)
  rw [settle_of_waiting hw hnone] at hcleared
  exact hcleared.1 rfl

theorem noneLost_append (hc : 0 < f.channels) (hs : Sound f m) (h : Listed f m samples)
    (ha : Appends f frame userId converted first m m') :
    NoneLost (samples.map (Sample.settle f m' fun _ =>
      if Anew f frame (lookup userId m.inputs) then .cleared else .evicted)) ↔
    NoneLost samples ∧ (Anew f frame (lookup userId m.inputs) → (lookup userId m.inputs).samples = [] ∨
      (lookup userId m.inputs).endSample f.channels ≤ m.nextSample) := by
  by_cases hanew : Anew f frame (lookup userId m.inputs)
  · simp only [hanew, if_true, true_imp_iff]
    refine ⟨fun hn => ⟨hn.of_settle, ?_⟩, fun ⟨hn, hempty⟩ => hn.settle fun e he hdue hw hnone => ?_⟩
    · by_contra hkept
      rw [not_or, not_le] at hkept
      exact exists_cleared hc hs h ha hanew hkept.1 hkept.2 hn
    · -- 消えた標本は、この利用者のものである。
      have hheld := h.held_of_waiting hc he hw
      have huser : e.userId = userId := by
        by_contra hother
        rw [ha.others _ _ _ hother] at hnone
        exact hheld hnone
      have hnext := (h.due e he hw).mp hdue
      rw [huser] at hheld
      cases hempty with
      | inl hnil => exact absurd (Input.sampleAt_nil hnil) hheld
      | inr hend =>
          have hlt := Input.lt_end_of_sampleAt hc (lookup_sound hs userId).1 (Option.isSome_iff_ne_none.mpr hheld)
          omega
  · simp only [hanew, if_false, false_imp_iff, and_true]
    exact ⟨.of_settle, fun hn => hn.settle fun _ _ _ _ _ => ⟨nofun, nofun⟩⟩

theorem noneLost_push (hc : 0 < f.channels) (h : Inv f s) (now : Int) (swr : Swr) (frame : AudioFrame) (userId : String) :
    NoneLost (s.push f now swr frame userId).samples ↔
      NoneLost s.samples ∧ Unbroken f (.push now swr frame userId) s := by
  unfold Run.push Unbroken
  simp only
  cases push_cases f now swr frame userId s.mixer with
  | inl hrejected =>
      obtain ⟨m', hpush, -⟩ := hrejected
      rw [hpush]
      simp
  | inr haccepted =>
      obtain ⟨converted, j, m', hpush, hconvert, hj, -, rfl⟩ := haccepted
      rw [hpush]
      simp only [if_true, true_imp_iff]
      rw [← noneLost_append hc h.sound h.listed (appends_push hc h.sound hj _)]
      have hgiven : ∀ m₁ m₂, NoneLost ((given f swr frame userId s.mixer m₁).map (Sample.settle f m₂ fun _ => .evicted)) := by
        intro m₁ m₂
        refine NoneLost.settle (fun e he _ => ?_) fun _ _ _ _ _ => ⟨nofun, nofun⟩
        rw [given_eq hj hconvert] at he
        obtain ⟨k, -, rfl⟩ := List.mem_map.mp he
        exact ⟨nofun, nofun⟩
      refine ⟨fun hn e he => hn e (List.mem_append_left _ he), fun hn e he hdue => ?_⟩
      cases List.mem_append.mp he with
      | inl he => exact hn e he hdue
      | inr he => exact hgiven _ _ e he hdue

theorem noneLost_step (hc : 0 < f.channels) (op : Op) (s : Run) (h : Inv f s) :
    NoneLost ((mixing f).step op s).samples ↔ NoneLost s.samples ∧ Unbroken f op s := by
  have hadvance : ∀ d : Draining, 0 < d.count → (NoneLost (s.advance f d).samples ↔ NoneLost s.samples ∧ True) :=
    fun _ hd => (noneLost_advance hc h hd).trans (and_true _).to_iff.symm
  have hsame : NoneLost s.samples ↔ NoneLost s.samples ∧ True := (and_true _).to_iff.symm
  cases op with
  | push now swr frame userId => exact noneLost_push hc h now swr frame userId
  | drain now count flush =>
      exact drain_keeps (P := fun s' => NoneLost s'.samples ↔ NoneLost s.samples ∧ True) hsame hadvance
  | consumed ok =>
      exact consumed_keeps (P := fun s' => NoneLost s'.samples ↔ NoneLost s.samples ∧ True) hsame h.counted hadvance hsame

/-! ## 空にする `drain` -/

theorem run_consumed_idle (n : Nat) (hs : s.consuming = none) : (mixing f).run (List.replicate n (.consumed true)) s = s := by
  induction n with
  | zero => rfl
  | succ n ih =>
      have hstep : s.consumed f true = s := by
        unfold Run.consumed
        rw [hs]
      change (mixing f).run (List.replicate n (.consumed true)) (s.consumed f true) = s
      rwa [hstep]

variable {d : Draining} {ok : Bool} {out : List Mix}

theorem run_accept_rounds (n : Nat) (s : Run)
    (hrun : rounds f accept d.now d.count d.flush d.drainEnd n s.mixer = some (ok, out, m')) :
    ((mixing f).run (List.replicate n (.consumed true)) (s.advance f d)).mixer = m' ∧
      ((mixing f).run (List.replicate n (.consumed true)) (s.advance f d)).consuming = none := by
  induction n generalizing s out with
  | zero =>
      cases rounds_cases s hrun with
      | inl hend => exact ⟨hend.1, hend.2.1⟩
      | inr hnext =>
          obtain ⟨k, x, m₁, hk, -⟩ := hnext
          cases hk
  | succ n ih =>
      cases rounds_cases s hrun with
      | inl hend =>
          rw [run_consumed_idle _ hend.2.1]
          exact ⟨hend.1, hend.2.1⟩
      | inr hnext =>
          obtain ⟨_, x, m₁, hk, hmixer, hconsuming, -, hrun⟩ := hnext
          cases hk
          simp only [accept, if_true] at hrun
          obtain ⟨r, hr, heq⟩ := Option.map_eq_some_iff.mp hrun
          cases heq
          rw [← hmixer] at hr
          have hstep : (s.advance f d).consumed f true = (s.advance f d).advance f d := by
            unfold Run.consumed
            rw [hconsuming]
            rfl
          change ((mixing f).run (List.replicate n (.consumed true)) ((s.advance f d).consumed f true)).mixer = _ ∧
            ((mixing f).run (List.replicate n (.consumed true)) ((s.advance f d).consumed f true)).consuming = none
          rw [hstep]
          exact ih _ hr

theorem run_flushing {now count : Int} (n : Nat) (hs : s.consuming = none)
    (hrun : AudioMixer.drain f n accept now count true s.mixer = some (ok, out, m')) :
    ((mixing f).run (flushing now count n) s).mixer = m' ∧ ((mixing f).run (flushing now count n) s).consuming = none := by
  change ((mixing f).run (List.replicate n (.consumed true)) (s.drain f now count true)).mixer = _ ∧
    ((mixing f).run (List.replicate n (.consumed true)) (s.drain f now count true)).consuming = none
  cases drain_cases s hs hrun with
  | inl hidle =>
      obtain ⟨hsame, hm, -⟩ := hidle
      rw [hsame, run_consumed_idle _ hs]
      exact ⟨hm, hs⟩
  | inr hstarts =>
      obtain ⟨d, hadvance, hrounds⟩ := hstarts
      rw [hadvance]
      exact run_accept_rounds n s hrounds

/-! ## 足されたフレーム -/

/-- 足された標本は、作られたフレームの中にある。 -/
def AllHeld (f : Format) (s : Run) : Prop := ∀ e ∈ s.samples, ∀ x, e.fate = .mixed x → x ∈ s.emitted ∧ x.Holds f e.position

/-- 新しい行方がフレームに足されることであるのは、フレームの中の位置だけである。 -/
theorem allHeld_settle {emitted : List Mix} (h : ∀ e ∈ samples, ∀ x, e.fate = .mixed x → x ∈ emitted ∧ x.Holds f e.position)
    (hnew : ∀ e x, fate e = .mixed x → x ∈ emitted ∧ x.Holds f e.position) :
    ∀ e ∈ samples.map (Sample.settle f m fate), ∀ x, e.fate = .mixed x → x ∈ emitted ∧ x.Holds f e.position := by
  intro e he x hx
  obtain ⟨e₀, he₀, rfl⟩ := List.mem_map.mp he
  rw [settle_position]
  unfold Sample.settle at hx
  split at hx
  · exact hnew e₀ x hx
  · exact h e₀ he₀ x hx

theorem allHeld_advance (hc : 0 < f.channels) (h : AllHeld f s) {d : Draining} (hd : 0 < d.count) :
    AllHeld f (s.advance f d) := by
  have hstep := advanced hc hd s
  generalize s.advance f d = s' at hstep ⊢
  cases hstep with
  | ended => exact h
  | done => exact allHeld_settle h fun _ _ h => nomatch h
  | left => exact allHeld_settle h fun _ _ h => nomatch h
  | emitted _ _ hemits =>
      refine allHeld_settle (fun e he x' hx' => ?_) fun e x' hx' => ?_
      · obtain ⟨hmem, hholds⟩ := h e he x' hx'
        exact ⟨List.mem_append_left _ hmem, hholds⟩
      · split at hx'
        · rename_i hcovers
          cases hx'
          simp only [Mix.covers, Bool.and_eq_true, decide_eq_true_eq] at hcovers
          refine ⟨List.mem_append_right _ List.mem_cons_self, hcovers.1, ?_⟩
          rw [hemits.length, Int.toNat_mul hd.le (Int.natCast_nonneg _), Int.toNat_natCast]
          exact Nat.mul_lt_mul_of_pos_right (by omega) hc
        · cases hx'

/-- `push` は、フレームに足された標本を作らない。 -/
theorem allHeld_push (h : AllHeld f s) (now : Int) (swr : Swr) (frame : AudioFrame) (userId : String) :
    AllHeld f (s.push f now swr frame userId) := by
  unfold Run.push
  simp only
  split
  · intro e he
    cases List.mem_append.mp he with
    | inl he =>
        refine allHeld_settle h (fun e x hx => ?_) e he
        split at hx
        · cases hx
        · cases hx
    | inr he =>
        refine allHeld_settle (fun e he x hx => ?_) (fun e x hx => ?_) e he
        · unfold given at he
          split at he
          · cases he
          · obtain ⟨k, -, rfl⟩ := List.mem_map.mp he
            cases hx
        · cases hx
  · exact h

theorem allHeld_step (hc : 0 < f.channels) (op : Op) (hi : Inv f s) (h : AllHeld f s) : AllHeld f ((mixing f).step op s) := by
  have hadvance : ∀ d : Draining, 0 < d.count → AllHeld f (s.advance f d) := fun _ hd => allHeld_advance hc h hd
  cases op with
  | push now swr frame userId => exact allHeld_push h now swr frame userId
  | drain now count flush => exact drain_keeps h hadvance
  | consumed ok => exact consumed_keeps h hi.counted hadvance h

/-! ## 足された値 -/

/-- 位置 `p` で待っている標本。 -/
def waitingAt (p : Int) (samples : List Sample) : List Sample := samples.filter fun e => e.waiting && e.position = p

theorem nodup_waitingAt (h : Listed f m samples) (p : Int) : ((waitingAt p samples).map Sample.userId).Nodup := by
  have hsub : List.Sublist (waitingAt p samples) (samples.filter Sample.waiting) :=
    List.monotone_filter_right _ fun e he => (Bool.and_eq_true _ _ ▸ he).1
  refine List.pairwise_map.mpr ((h.once.sublist hsub).imp_of_mem fun {e e'} he he' hapart huser => ?_)
  have hp := (List.mem_filter.mp he).2
  have hp' := (List.mem_filter.mp he').2
  rw [Bool.and_eq_true, decide_eq_true_eq] at hp hp'
  exact hapart huser (hp.2.trans hp'.2.symm)

/-- 標本のある位置には、始めのチャンネルの標本もある。 -/
theorem held_zero {user : String} {p : Int} {ch : Nat} (h : held f m user p ch ≠ none) : held f m user p 0 ≠ none := by
  unfold held Input.sampleAt at h ⊢
  split
  · rename_i hp
    rw [if_pos hp] at h
    simp only [ne_eq, List.getElem?_eq_none_iff] at h ⊢
    omega
  · rename_i hp
    rw [if_neg hp] at h
    exact absurd rfl h

/-- 位置 `p` の標本の和は、その位置で待っている標本の値の和である。 -/
theorem total_eq_waiting (hs : Sound f m) (h : Listed f m samples) {p : Int} {ch : Nat} (hch : ch < f.channels) :
    total f m.inputs p ch = ((waitingAt p samples).map fun e => (e.values[ch]?).getD 0).sum := by
  have hc : 0 < f.channels := by omega
  have hleft : total f m.inputs p ch = ∑ user ∈ (m.inputs.map Prod.fst).toFinset, (held f m user p ch).getD 0 := by
    rw [List.sum_toFinset _ hs.keys, List.map_map, total]
    congr 1
    refine List.map_congr_left fun e he => ?_
    rw [Function.comp_apply, held, lookup_of_mem hs.keys he]
  have hright : ((waitingAt p samples).map fun e => (e.values[ch]?).getD 0).sum =
      ∑ user ∈ ((waitingAt p samples).map Sample.userId).toFinset, (held f m user p ch).getD 0 := by
    rw [List.sum_toFinset _ (nodup_waitingAt h p), List.map_map]
    congr 1
    refine List.map_congr_left fun e he => ?_
    obtain ⟨he, hp⟩ := List.mem_filter.mp he
    rw [Bool.and_eq_true, decide_eq_true_eq] at hp
    rw [Function.comp_apply, ← hp.2, h.exact e he hp.1 ch hch]
  rw [hleft, hright]
  symm
  refine Finset.sum_subset (fun user huser => ?_) fun user _ huser => ?_
  · rw [List.mem_toFinset] at huser ⊢
    obtain ⟨e, he, rfl⟩ := List.mem_map.mp huser
    obtain ⟨he, hp⟩ := List.mem_filter.mp he
    rw [Bool.and_eq_true] at hp
    by_contra hmem
    have hheld := h.held_of_waiting hc he hp.1
    rw [held, lookup_of_not_mem hmem] at hheld
    exact hheld (Input.sampleAt_nil rfl)
  · have hnone : held f m user p ch = none := by
      by_contra hheld
      obtain ⟨e, he, hw, hu, hp⟩ := h.complete user p (held_zero hheld)
      refine huser (List.mem_toFinset.mpr (List.mem_map.mpr ⟨e, List.mem_filter.mpr ⟨he, ?_⟩, hu⟩))
      rw [Bool.and_eq_true, decide_eq_true_eq]
      exact ⟨hw, hp⟩
    rw [hnone]
    rfl

/-- フレームの和は、そこに足された標本の値の和である。 -/
theorem mixed_eq_waiting (hi : Inv f s) {x : Mix} {count p : Int} {ch : Nat} (he : Emits f count s.mixer x m')
    (hp : x.covers count p) (hch : ch < f.channels) :
    x.mixed[(p - x.start).toNat * f.channels + ch]? =
      some ((waitingAt p s.samples).map fun e => (e.values[ch]?).getD 0).sum := by
  rw [he.mixed p ch hp hch, total_eq_waiting hi.sound hi.listed hch]

/-! ## 正確な条件 -/

/-- 足されたか、上限で除かれたのであれば、失われていない。 -/
theorem noneLost_of_served (h : ∀ e ∈ s.samples, e.due → e.Served f s) : NoneLost s.samples := by
  intro e he hdue
  cases h e he hdue with
  | inl hmixed =>
      obtain ⟨x, -, hx, -⟩ := hmixed
      rw [hx]
      exact ⟨nofun, nofun⟩
  | inr hevicted =>
      rw [hevicted]
      exact ⟨nofun, nofun⟩

/-- 空にした後には、混合の済んでいない標本が残っていない。 -/
theorem served_of_noneLost (hc : 0 < f.channels) (hi : Inv f s) (hheld : AllHeld f s)
    (hrest : ∀ e ∈ s.mixer.inputs, ∀ p ch, s.mixer.nextSample ≤ p → ch < f.channels → e.2.sampleAt f.channels p ch = none)
    (h : NoneLost s.samples) (he : e ∈ s.samples) (hdue : e.due) : e.Served f s := by
  have hkept := h e he hdue
  cases hfate : e.fate with
  | waiting =>
      have hw := waiting_iff.mpr hfate
      have hnext := (hi.listed.due e he hw).mp hdue
      have hsome := hi.listed.held_of_waiting hc he hw
      unfold held at hsome
      cases lookup_cases e.userId s.mixer.inputs with
      | inl hnew =>
          rw [hnew] at hsome
          exact absurd (Input.sampleAt_nil rfl) hsome
      | inr hold =>
          obtain ⟨i, hmem, heq⟩ := hold
          rw [← heq] at hsome
          exact absurd (hrest i hmem _ 0 hnext hc) hsome
  | mixed x =>
      obtain ⟨hmem, hholds⟩ := hheld e he x hfate
      exact .inl ⟨x, hmem, hfate, hholds⟩
  | evicted => exact .inr hfate
  | cleared => exact absurd hfate hkept.1
  | late => exact absurd hfate hkept.2

theorem allMeet_flushing (now count : Int) (n : Nat) (s : Run) : (mixing f).AllMeet (Unbroken f) (flushing now count n) s := by
  have hconsumed : ∀ n s, (mixing f).AllMeet (Unbroken f) (List.replicate n (.consumed true)) s := by
    intro n
    induction n with
    | zero => exact fun _ => trivial
    | succ n ih => exact fun s => ⟨trivial, ih _⟩
  exact ⟨trivial, hconsumed n _⟩

theorem inv_run (hc : 0 < f.channels) (ops : List Op) :
    Inv f ((mixing f).run ops {}) ∧ AllHeld f ((mixing f).run ops {}) :=
  System.run_invariant (S := mixing f) (I := fun s : Run => Inv f s ∧ AllHeld f s)
    (fun op _ h => ⟨h.1.step hc op, allHeld_step hc op h.1 h.2⟩) ops ⟨inv_empty, nofun⟩

theorem noneLost_run (hc : 0 < f.channels) (ops : List Op) (h : Inv f s) :
    NoneLost ((mixing f).run ops s).samples ↔ NoneLost s.samples ∧ (mixing f).AllMeet (Unbroken f) ops s :=
  System.run_iff_of_invariant (S := mixing f) (I := Inv f) (P := fun s : Run => NoneLost s.samples)
    (fun op _ h => h.step hc op) (fun op s h => noneLost_step hc op s h) ops h

theorem noneLost_flushing (hc : 0 < f.channels) (ops : List Op) (now count : Int) (n : Nat) :
    NoneLost ((mixing f).run (ops ++ flushing now count n) {}).samples ↔ NoneLost ((mixing f).run ops {}).samples := by
  rw [System.run_append, noneLost_run hc _ (inv_run hc ops).1]
  exact and_iff_left (allMeet_flushing now count n _)

/-- 間の空いたあとの `push` が、待っている三つの標本を捨てる。 -/
def gapOps : List Op :=
  [.push 0 silentSwr (monoFrame 0 [1, 2, 3]) "a", .push 500000000 silentSwr (monoFrame 500 [4]) "a"]

theorem mixesAll_iff_unbroken (hc : 0 < f.channels) {ops : List Op} (hidle : ((mixing f).run ops {}).consuming = none) :
    MixesAll f ops ↔ (mixing f).AllMeet (Unbroken f) ops {} := by
  obtain ⟨hinv, -⟩ := inv_run hc ops
  have hlost : NoneLost ((mixing f).run ops {}).samples ↔ (mixing f).AllMeet (Unbroken f) ops {} :=
    (noneLost_run hc ops inv_empty).trans (and_iff_right nofun)
  rw [← hlost]
  constructor
  · intro h
    obtain ⟨n, hserved⟩ := h 0 1 Int.one_pos
    exact (noneLost_flushing hc ops 0 1 n).mp (noneLost_of_served (hserved n le_rfl).2)
  · intro h now count hcount
    refine ⟨(latest f ((mixing f).run ops {}).mixer.nextSample ((mixing f).run ops {}).mixer.inputs -
      ((mixing f).run ops {}).mixer.nextSample).toNat, fun n hn => ?_⟩
    obtain ⟨out, m', hrun, hdrained⟩ := drain_flush now hc hcount hinv.sound.valid n hn
    obtain ⟨hmixer, hconsuming⟩ := run_flushing n hidle hrun
    obtain ⟨hi, hheld⟩ := inv_run hc (ops ++ flushing now count n)
    have hnone := (noneLost_flushing hc ops now count n).mpr h
    rw [System.run_append] at hi hheld hnone ⊢
    exact ⟨hconsuming, fun e he hdue => served_of_noneLost hc hi hheld (hmixer ▸ hdrained.rest) hnone he hdue⟩

/-- 混合の済んだあとに間が空いた列。 -/
def drainedGapOps : List Op :=
  [.push 0 silentSwr (monoFrame 0 [1, 2, 3]) "a", .drain 0 3 true, .consumed true,
    .push 500000000 silentSwr (monoFrame 500 [4]) "a"]

end RtcEgress.Media.AudioMixer
