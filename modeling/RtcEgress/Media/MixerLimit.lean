import RtcEgress.Media.MixerWrites

/-!
# 和の大きさの制限

十六ビットの標本を足す和が三十二ビットに収まること、大きさを制限した出力が十六ビットに収まり、形を保つことを示す。一つの番号に
書くのは、利用者ごとに高々一度である。
-/

namespace RtcEgress.Media.AudioMixer

open Lib (System)

/-! ## 主張 -/

def Int16 (v : Int) : Prop := -32768 ≤ v ∧ v ≤ 32767

/-- `push` に渡る標本と、変換した標本は十六ビットである。 -/
def sixteenBit (f : Format) : (mixing f).Condition
  | .push _ swr frame _, _ => (∀ v ∈ frame.data, Int16 v) ∧ ∀ k, Int16 (swr.sample k)
  | _, _ => True

/-- フレームに標本を足す利用者の数。 -/
def contributors (f : Format) (bound : Int) (m : AudioMixer) : Nat :=
  ((m.inputs.map fun e => (e.1, e.2.discard f.channels m.nextSample)).filter
    fun e => e.2.samples ≠ [] && e.2.firstSample < bound).length

/-- 和から出力への写像 `g` は、単調で奇であり、大きさを増やさない。 -/
structure Shape (g : Int → Int) : Prop where
  monotone : ∀ v w, v ≤ w → g v ≤ g w
  odd : ∀ v, g (-v) = -g v
  shrinks : ∀ v, (g v).natAbs ≤ v.natAbs

/-- 制限した出力の正しさ。 -/
structure Limited (mixed data : List Int) : Prop where
  range : ∀ v ∈ data, -32767 ≤ v ∧ v ≤ 32767
  exact : (∀ v ∈ mixed, v.natAbs ≤ 32767) → data = mixed
  shape : ∃ g, Shape g ∧ data = mixed.map g ∧
    ∀ v ∈ mixed, 32767 < v.natAbs → (∀ w ∈ mixed, w.natAbs ≤ v.natAbs) → g v = if 0 < v then 32767 else -32767

/-- 途中の和も、絶対値も、積も、型に収まる。 -/
structure NoOverflow (count : Nat) (writes : List (Int × Int)) (mixed : List Int) : Prop where
  sums : ∀ k, ∀ v ∈ (writes.take k).foldl write (List.replicate count 0), -2 ^ 31 ≤ v ∧ v < 2 ^ 31
  whole : mixed = writes.foldl write (List.replicate count 0)
  magnitude : ∀ v ∈ mixed, (v.natAbs : Int) < 2 ^ 31
  product : ∀ v ∈ mixed, -2 ^ 63 ≤ v * 32767 ∧ v * 32767 < 2 ^ 63

def LimitsSafely : Prop :=
  ∀ f : Format, 2 ≤ f.rate → f.rate ≤ 192000 → 1 ≤ f.channels → ∀ s, (mixing f).Reach (sixteenBit f) {} s →
    ∀ now count flush drainEnd x m', 0 < count → round f now count flush drainEnd s.mixer = .emit x m' →
      contributors f (x.start + count) s.mixer < 65536 →
      NoOverflow (count * f.channels).toNat (roundWrites f now count flush drainEnd s.mixer) x.mixed ∧
        Limited x.mixed (x.frame f).data

/-! ## 大きさの制限 -/

theorem peak_attained (mixed : List Int) (b : Int) : mixed.foldl (fun peak sample => max peak sample.natAbs) b = b ∨
    ∃ w ∈ mixed, mixed.foldl (fun peak sample => max peak sample.natAbs) b = w.natAbs := by
  induction mixed generalizing b with
  | nil => exact .inl rfl
  | cons v mixed ih =>
      rw [List.foldl_cons]
      cases ih (max b v.natAbs) with
      | inl hmax =>
          rw [hmax]
          cases le_total b (v.natAbs : Int) with
          | inl hle => exact .inr ⟨v, List.mem_cons_self, max_eq_right hle⟩
          | inr hle => exact .inl (max_eq_left hle)
      | inr hattained =>
          obtain ⟨w, hw, heq⟩ := hattained
          exact .inr ⟨w, List.mem_cons_of_mem _ hw, heq⟩

/-- 大きさを `peak` で割って、十六ビットの幅に合わせる。 -/
theorem shape_scale {peak : Int} (hp : 32767 ≤ peak) : Shape fun v => (v * 32767).tdiv peak := by
  refine ⟨fun v w hle => Int.tdiv_le_tdiv (by omega) (by omega), fun v => ?_, fun v => ?_⟩
  · rw [Int.neg_mul, Int.neg_tdiv]
  · rw [Int.natAbs_tdiv, Int.natAbs_mul]
    refine Nat.div_le_of_le_mul ?_
    rw [Nat.mul_comm]
    exact Nat.mul_le_mul_right _ (by omega)

theorem limited_limited (mixed : List Int) : Limited mixed (limited mixed) := by
  obtain ⟨hpos, hle⟩ := le_peak mixed 32767
  have hattained := peak_attained mixed 32767
  refine ⟨fun v hv => ?_, fun hsmall => ?_, _, shape_scale hpos, rfl, fun v hv hlarge hmax => ?_⟩
  · have := natAbs_limited_le v hv
    omega
  · have hpeak : mixed.foldl (fun peak sample => max peak sample.natAbs) (32767 : Int) = 32767 := by
      cases hattained with
      | inl heq => exact heq
      | inr hw =>
          obtain ⟨w, hw, heq⟩ := hw
          have := hsmall w hw
          omega
    unfold limited
    rw [hpeak]
    simp only
    rw [List.map_congr_left (g := id) fun v _ => Int.mul_tdiv_cancel v (by decide), List.map_id]
  · have hpeak : mixed.foldl (fun peak sample => max peak sample.natAbs) (32767 : Int) = v.natAbs := by
      have hv' := hle v hv
      cases hattained with
      | inl heq => omega
      | inr hw =>
          obtain ⟨w, hw, heq⟩ := hw
          have := hmax w hw
          omega
    simp only [hpeak]
    split
    · rw [show ((v.natAbs : Nat) : Int) = v by omega, Int.mul_tdiv_cancel_left _ (by omega)]
    · have hneg : v = -(v.natAbs : Int) := by omega
      rw [hneg, Int.natAbs_neg, Int.natAbs_natCast, Int.neg_mul, Int.neg_tdiv, Int.mul_tdiv_cancel_left _ (by omega)]

/-! ## 書き込みの和 -/

/-- 番号 `j` への書き込み。 -/
def writesTo (j : Nat) (writes : List (Int × Int)) : List (Int × Int) := writes.filter fun w => w.1.toNat = j

theorem getElem?_foldl_write (writes : List (Int × Int)) (mixed : List Int) (j : Nat) :
    (writes.foldl write mixed)[j]? = mixed[j]?.map (· + ((writesTo j writes).map Prod.snd).sum) := by
  induction writes generalizing mixed with
  | nil => simp [writesTo]
  | cons w writes ih =>
      rw [List.foldl_cons, ih, write, List.getElem?_modify, Option.map_eq_map, Option.map_map]
      congr 1
      funext v
      by_cases hj : w.1.toNat = j
      · simp [hj, writesTo, Int.add_assoc]
      · simp [hj, writesTo]

theorem natAbs_sum_le (l : List Int) (h : ∀ v ∈ l, Int16 v) : l.sum.natAbs ≤ l.length * 32768 := by
  induction l with
  | nil => exact le_rfl
  | cons v l ih =>
      have hv := h v List.mem_cons_self
      have hl := ih fun w hw => h w (List.mem_cons_of_mem _ hw)
      have hadd := Int.natAbs_add_le v l.sum
      unfold Int16 at hv
      rw [List.sum_cons, List.length_cons, Nat.add_mul]
      omega

/-- 番号の増えていく書き込みでは、一つの番号に高々一度書く。 -/
theorem length_at_le_one {writes : List (Int × Int)} (hpos : ∀ w ∈ writes, 0 ≤ w.1)
    (h : writes.Pairwise fun w w' => w.1 < w'.1) (j : Nat) : (writesTo j writes).length ≤ 1 := by
  induction writes with
  | nil => exact Nat.zero_le _
  | cons w writes ih =>
      obtain ⟨hw, hrest⟩ := List.pairwise_cons.mp h
      have hlen := ih (fun w hw => hpos w (List.mem_cons_of_mem _ hw)) hrest
      unfold writesTo at hlen ⊢
      rw [List.filter_cons]
      split
      · rename_i hj
        rw [decide_eq_true_eq] at hj
        have hnil : (writes.filter fun w => decide (w.1.toNat = j)) = [] := by
          refine List.filter_eq_nil_iff.mpr fun w' hw' => ?_
          have hlt := hw w' hw'
          have h0 := hpos w List.mem_cons_self
          rw [decide_eq_true_eq]
          omega
        rw [hnil]
        exact le_rfl
      · exact hlen

variable {f : Format} {m m' : AudioMixer} {s : Run} {i : Input} {next bound now count drainEnd : Int} {flush : Bool} {x : Mix}
  {channels : Nat}

theorem le_writes (n : Nat) : ∀ w ∈ i.writes channels next bound n, (i.firstSample - next) * channels ≤ w.1 := by
  intro w hw
  obtain ⟨-, k, ch, -, -, rfl⟩ := mem_writes n hw
  have hmul : (i.firstSample - next) * (channels : Int) ≤ (i.firstSample + k - next) * channels :=
    Int.mul_le_mul_of_nonneg_right (by omega) (by omega)
  simp only
  omega

/-- 一人の利用者の書き込みは、番号の小さいほうから行われる。 -/
theorem pairwise_writes (n : Nat) : (i.writes channels next bound n).Pairwise fun w w' => w.1 < w'.1 := by
  induction n generalizing i with
  | zero => exact .nil
  | succ n ih =>
      rw [Input.writes]
      split
      · refine List.pairwise_append.mpr ⟨List.pairwise_map.mpr ?_, ih, fun w hw w' hw' => ?_⟩
        · exact List.pairwise_lt_range.imp fun {ch ch'} hlt => by simp only; omega
        · obtain ⟨ch, hch, rfl⟩ := List.mem_map.mp hw
          have hlt : (ch : Int) < channels := by exact_mod_cast List.mem_range.mp hch
          have hle : (i.firstSample + 1 - next) * (channels : Int) ≤ w'.1 := le_writes n w' hw'
          rw [show i.firstSample + 1 - next = i.firstSample - next + 1 by omega, Int.add_mul, Int.one_mul] at hle
          simp only
          omega
      · exact .nil

/-- 標本が足されない利用者は、何も書かない。 -/
theorem writes_nil (n : Nat) (h : ¬(i.samples ≠ [] ∧ i.firstSample < bound)) : i.writes channels next bound n = [] := by
  cases n with
  | zero => rfl
  | succ n => rw [Input.writes, if_neg h]

/-- 一つの番号への書き込みは、足す利用者の数を超えない。 -/
theorem length_at_writes_le (inputs : List (String × Input)) (hfrom : ∀ e ∈ inputs, e.2.samples = [] ∨ next ≤ e.2.firstSample)
    (j : Nat) : (writesTo j (writes f next bound inputs)).length ≤
      (inputs.filter fun e => e.2.samples ≠ [] && e.2.firstSample < bound).length := by
  induction inputs with
  | nil => exact le_rfl
  | cons e inputs ih =>
      have hrest := ih fun e he => hfrom e (List.mem_cons_of_mem _ he)
      have hone : (writesTo j (e.2.writes f.channels next bound e.2.samples.length)).length ≤ 1 :=
        length_at_le_one (fun w hw => (writes_within _ (hfrom e List.mem_cons_self) w hw).1) (pairwise_writes _) j
      rw [writes, List.flatMap_cons, writesTo, List.filter_append, List.length_append, List.filter_cons]
      change (writesTo j _).length + (writesTo j (writes f next bound inputs)).length ≤ _
      split
      · rw [List.length_cons]
        omega
      · rename_i hnone
        simp only [ne_eq, Bool.and_eq_true, decide_eq_true_eq] at hnone
        rw [writes_nil _ hnone]
        simpa [writesTo] using hrest

/-! ## 標本の値 -/

def AllInt16 (inputs : List (String × Input)) : Prop := ∀ e ∈ inputs, ∀ v ∈ e.2.samples, Int16 v

theorem AllInt16.of_pops {inputs inputs' : List (String × Input)} (h : AllInt16 inputs) (hpops : Pops f inputs inputs') :
    AllInt16 inputs' := by
  intro e' he'
  obtain ⟨e, he, hpop⟩ := hpops e' he'
  exact hpop (fun i => ∀ v ∈ i.samples, Int16 v) (fun i hi v hv => hi v (List.mem_of_mem_drop hv)) (h e he)

theorem int16_writes (n : Nat) (h : ∀ v ∈ i.samples, Int16 v) : ∀ w ∈ i.writes channels next bound n, Int16 w.2 := by
  intro w hw
  obtain ⟨-, k, ch, -, -, rfl⟩ := mem_writes n hw
  simp only [List.getD_eq_getElem?_getD]
  cases hv : i.samples[k * channels + ch]? with
  | none => exact ⟨by decide, by decide⟩
  | some v => exact h v (List.mem_of_getElem? hv)

variable {swr : Swr} {frame : AudioFrame} {userId : String}

theorem int16_convert (hdata : ∀ v ∈ frame.data, Int16 v) (hswr : ∀ k, Int16 (swr.sample k)) {converted : List Int}
    (h : (convert f swr frame i).1 = some converted) : ∀ v ∈ converted, Int16 v := by
  unfold convert at h
  split at h
  · simp only at h
    split at h
    · obtain ⟨produced, -, rfl⟩ := Option.map_eq_some_iff.mp h
      intro v hv
      obtain ⟨k, -, rfl⟩ := List.mem_map.mp hv
      exact hswr k
    · cases h
  · cases h
    exact fun v hv => hdata v (List.mem_of_mem_take hv)

theorem allInt16_store {inputs : List (String × Input)} (h : AllInt16 inputs) (hi : ∀ v ∈ i.samples, Int16 v) :
    AllInt16 (store userId i inputs) := by
  intro e he
  cases mem_store he with
  | inl heq =>
      rw [heq]
      exact hi
  | inr he => exact h e he

theorem int16_lookup (h : AllInt16 m.inputs) : ∀ v ∈ (lookup userId m.inputs).samples, Int16 v := by
  cases lookup_cases userId m.inputs with
  | inl hnew =>
      rw [hnew]
      exact fun v hv => absurd hv List.not_mem_nil
  | inr hold =>
      obtain ⟨e, he, heq⟩ := hold
      rw [← heq]
      exact h e he

theorem allInt16_push (h : AllInt16 m.inputs) (hdata : ∀ v ∈ frame.data, Int16 v) (hswr : ∀ k, Int16 (swr.sample k)) :
    AllInt16 (push f now swr frame userId m).2.inputs := by
  have hlookup : ∀ v ∈ (lookup userId m.inputs).samples, Int16 v := int16_lookup h
  cases push_cases f now swr frame userId m with
  | inl hrejected =>
      obtain ⟨m', hpush, -, -, hinputs⟩ := hrejected
      rw [hpush]
      cases hinputs with
      | inl hsame => exact hsame ▸ h
      | inr hstored =>
          obtain ⟨j, hj, hinputs⟩ := hstored
          rw [hinputs]
          exact allInt16_store h (hj.1 ▸ hlookup)
  | inr haccepted =>
      obtain ⟨converted, j, m', hpush, hconvert, hj, -, rfl⟩ := haccepted
      have hconverted : ∀ v ∈ converted, Int16 v := int16_convert hdata hswr (congrArg Prod.fst hconvert)
      have hre : ∀ v ∈ (reanchor f (timestampSample f frame) j).samples, Int16 v := by
        unfold reanchor
        split
        · exact fun v hv => absurd hv List.not_mem_nil
        · exact hj.1 ▸ hlookup
      rw [hpush]
      refine allInt16_store h (Input.popWhile_keeps (I := fun i => ∀ v ∈ i.samples, Int16 v)
        (fun i hi v hv => hi v (List.mem_of_mem_drop hv)) _ fun v hv => ?_)
      cases List.mem_append.mp hv with
      | inl hv => exact hre v hv
      | inr hv => exact hconverted v hv

theorem allInt16_advance (hc : 0 < f.channels) (h : AllInt16 s.mixer.inputs) {d : Draining} (hd : 0 < d.count) :
    AllInt16 (s.advance f d).mixer.inputs := by
  have hsweep : ∀ m : AudioMixer, AllInt16 m.inputs → AllInt16 (sweep d.now m).inputs :=
    fun m h e he => h e (mem_of_mem_sweep he)
  have hstep := advanced hc hd s
  generalize s.advance f d = s' at hstep ⊢
  cases hstep with
  | ended => exact hsweep _ h
  | done ha => exact hsweep _ (h.of_pops ha.pops)
  | left ha => exact h.of_pops ha.pops
  | emitted ha => exact h.of_pops ha.pops

theorem allInt16_step (hc : 0 < f.channels) (op : Op) (hi : Inv f s) (h : AllInt16 s.mixer.inputs) (hop : sixteenBit f op s) :
    AllInt16 ((mixing f).step op s).mixer.inputs := by
  have hadvance : ∀ d : Draining, 0 < d.count → AllInt16 (s.advance f d).mixer.inputs := fun _ hd => allInt16_advance hc h hd
  cases op with
  | push now swr frame userId =>
      obtain ⟨hmixer, -⟩ := push_parts (f := f) now swr frame userId s
      change AllInt16 (s.push f now swr frame userId).mixer.inputs
      rw [hmixer]
      exact allInt16_push h hop.1 hop.2
  | drain now count flush => exact drain_keeps (P := fun s => AllInt16 s.mixer.inputs) h hadvance
  | consumed ok => exact consumed_keeps (P := fun s => AllInt16 s.mixer.inputs) h hi.counted hadvance h

/-! ## 和の範囲 -/

/-- どの時点の和も、足す利用者の数で抑えられる。 -/
theorem natAbs_partial_le (hc : 0 < f.channels) (h16 : AllInt16 m.inputs)
    (hround : round f now count flush drainEnd m = .emit x m') (k n : Nat) :
    ∀ v ∈ ((roundWrites f now count flush drainEnd m).take k).foldl write (List.replicate n 0),
      v.natAbs ≤ contributors f (x.start + count) m * 32768 := by
  intro v hv
  obtain ⟨-, hfrom⟩ := round_emit hc hround
  have hdiscard := h16.of_pops (@pops_discard f m.inputs m.nextSample)
  unfold roundWrites at hv
  rw [hround] at hv
  simp only at hv
  unfold contributors
  generalize m.inputs.map (fun e => (e.1, e.2.discard f.channels m.nextSample)) = inputs at hfrom hdiscard hv ⊢
  obtain ⟨j, hj⟩ := List.mem_iff_getElem?.mp hv
  rw [getElem?_foldl_write, List.getElem?_replicate] at hj
  split at hj
  · simp only [Option.map_some, Option.some.injEq, Int.zero_add] at hj
    have hsub : List.Sublist (writesTo j ((writes f x.start (x.start + count) inputs).take k))
        (writesTo j (writes f x.start (x.start + count) inputs)) := (List.take_sublist _ _).filter _
    have h16' : ∀ v ∈ (writesTo j ((writes f x.start (x.start + count) inputs).take k)).map Prod.snd, Int16 v := by
      intro v hv
      obtain ⟨w, hw, rfl⟩ := List.mem_map.mp hv
      obtain ⟨e, he, hw⟩ := List.mem_flatMap.mp (List.mem_of_mem_filter (hsub.subset hw))
      exact int16_writes _ (hdiscard e he) w hw
    have hsum := natAbs_sum_le _ h16'
    have hlen := hsub.length_le.trans (length_at_writes_le inputs hfrom j)
    rw [hj, List.length_map] at hsum
    exact hsum.trans (Nat.mul_le_mul_right _ hlen)
  · cases hj

theorem limitsSafely : LimitsSafely := by
  intro f _ _ hc s hs now count flush drainEnd x m' hcount hround hfew
  have hinv : Inv f s ∧ AllInt16 s.mixer.inputs :=
    System.Reach.invariant (S := mixing f) (I := fun s : Run => Inv f s ∧ AllInt16 s.mixer.inputs) hs ⟨inv_empty, nofun⟩
      fun op _ h hop => ⟨h.1.step hc op, allInt16_step hc op h.1 h.2 hop⟩
  have hwhole := mixed_eq_writes hc hinv.1.sound.valid.aligned hround
  have hpartial := natAbs_partial_le hc hinv.2 hround
  have hmixed : ∀ v ∈ x.mixed, v.natAbs ≤ contributors f (x.start + count) s.mixer * 32768 := by
    intro v hv
    refine hpartial (roundWrites f now count flush drainEnd s.mixer).length (count * f.channels).toNat v ?_
    rwa [List.take_length, ← hwhole]
  refine ⟨⟨fun k v hv => ?_, hwhole, fun v hv => ?_, fun v hv => ?_⟩, limited_limited _⟩
  · have := hpartial k _ v hv
    omega
  · have := hmixed v hv
    omega
  · have := hmixed v hv
    omega

/-- 二人の大きな標本。 -/
def loudPushes : List Op :=
  [.push 0 silentSwr (monoFrame 0 [30000, 1000]) "a", .push 0 silentSwr (monoFrame 0 [30000, -2000]) "b"]

/-- 足した和は十六ビットを超えるが、出力は収まる。 -/
theorem loudPushes_limited : ∃ x m',
    round ⟨1000, 1⟩ 0 2 true 2 ((mixing ⟨1000, 1⟩).run loudPushes {}).mixer = .emit x m' ∧ x.mixed = [60000, -1000] ∧
      NoOverflow 2 (roundWrites ⟨1000, 1⟩ 0 2 true 2 ((mixing ⟨1000, 1⟩).run loudPushes {}).mixer) x.mixed ∧
      Limited x.mixed (x.frame ⟨1000, 1⟩).data := by
  have hmeet : (mixing ⟨1000, 1⟩).AllMeet (sixteenBit ⟨1000, 1⟩) loudPushes {} := by
    refine ⟨⟨?_, fun _ => ?_⟩, ⟨?_, fun _ => ?_⟩, trivial⟩ <;> simp [Int16, monoFrame, silentSwr]
  have hlimits := limitsSafely ⟨1000, 1⟩ (by decide) (by decide) (by decide) _ (System.reach_run hmeet) 0 2 true 2
  exact ⟨_, _, rfl, rfl, hlimits _ _ (by decide) rfl (by decide)⟩

end RtcEgress.Media.AudioMixer
