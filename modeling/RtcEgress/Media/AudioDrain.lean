import Mathlib.Algebra.BigOperators.Group.List.Basic
import Mathlib.Data.List.Chain
import Mathlib.Tactic.Ring
import RtcEgress.Media.AudioMixer

/-!
# 音声の残りを出し切る

`push` と `drain` を重ねたどの状態からでも、残りを出し切る `drain` は終わり、置かれた標本の一つ一つが、その位置を含む
ただ一つのフレームに足される。利用者の列を、位置とチャンネルから標本への部分関数 `sampleAt` とみて、一回の繰り返しが
それをどこまで切り詰めるかを示す。
-/

namespace RtcEgress.Media.AudioMixer

/-! ## 主張 -/

/-- 位置 `p` の、チャンネル `ch` の標本。 -/
def Input.sampleAt (channels : Nat) (i : Input) (p : Int) (ch : Nat) : Option Int :=
  if i.firstSample ≤ p then i.samples[(p - i.firstSample).toNat * channels + ch]? else none

/-- 混合器に起こること。`drain` が呼ぶ `consume` の間にも起こる。 -/
inductive Evolves (f : Format) : AudioMixer → AudioMixer → Prop where
  | refl {m} : Evolves f m m
  | push {m m₁ now swr frame userId} : Evolves f m m₁ → frame.timestamp < 2 ^ 40 →
      Evolves f m (push f now swr frame userId m₁).2
  | drain {m m₁ n consume now count flush ok out m₂} : Evolves f m m₁ →
      (∀ frame m, Evolves f m (consume frame m).2) → drain f n consume now count flush m₁ = some (ok, out, m₂) →
      Evolves f m m₂

/-- いつも受け取る。 -/
def accept : Consumer := fun _ m => (true, m)

variable (f : Format)

/-- 位置 `p` の標本の和。 -/
def total (inputs : List (String × Input)) (p : Int) (ch : Nat) : Int :=
  (inputs.map fun e => (e.2.sampleAt f.channels p ch).getD 0).sum

/-- 次のフレームは続きから始まるか、標本のない、`rate` より長い間を飛ばす。 -/
def Next (m : AudioMixer) (start start' : Int) : Prop :=
  start' = start ∨ start + f.rate < start' ∧
    ∀ e ∈ m.inputs, ∀ p ch, start ≤ p → p < start' → ch < f.channels → e.2.sampleAt f.channels p ch = none

def Mix.covers (count p : Int) (x : Mix) : Bool := x.start ≤ p && p < x.start + count

/-- `m` の残りを、`out` のフレームに出し切って `m'` になった。 -/
structure Drained (count : Int) (m : AudioMixer) (out : List Mix) (m' : AudioMixer) : Prop where
  size : ∀ x ∈ out, ((x.frame f).data.length : Int) = count * f.channels
  first : ∀ x ∈ out.head?, Next f m m.nextSample x.start
  next : out.IsChain fun x x' => Next f m (x.start + count) x'.start
  mixed : ∀ x ∈ out, ∀ p ch, x.covers count p → ch < f.channels →
    x.mixed[(p - x.start).toNat * f.channels + ch]? = some (total f m.inputs p ch)
  once : ∀ e ∈ m.inputs, ∀ p ch, m.nextSample ≤ p → ch < f.channels → (e.2.sampleAt f.channels p ch).isSome →
    out.countP (Mix.covers count p) = 1
  late : ∀ x ∈ out, m.nextSample ≤ x.start
  rest : ∀ e ∈ m'.inputs, ∀ p ch, m'.nextSample ≤ p → ch < f.channels → e.2.sampleAt f.channels p ch = none

/-- `push` と `drain` で至るどの状態からでも、残りを出し切る。 -/
def DrainsAll : Prop :=
  ∀ f : Format, 1 ≤ f.channels → 2 ≤ f.rate → f.rate ≤ 192000 → ∀ m, Evolves f {} m →
    ∀ now count : Int, 0 < count → ∃ n₀, ∀ n, n₀ ≤ n →
      ∃ out m', drain f n accept now count true m = some (true, out, m') ∧ Drained f count m out m'

/-! ## 列の足し算 -/

theorem getElem?_addAt (values : List Int) (mixed : List Int) (offset j : Nat) : (addAt mixed offset values)[j]? =
    mixed[j]?.map (· + if offset ≤ j then (values[j - offset]?).getD 0 else 0) := by
  induction values generalizing mixed offset with
  | nil => simp [addAt]
  | cons v values ih =>
      rw [addAt, ih, List.getElem?_modify, Option.map_eq_map, Option.map_map]
      congr 1
      funext x
      simp only [Function.comp_apply]
      by_cases hj : offset = j
      · subst hj
        simp
      · by_cases hlt : offset ≤ j
        · obtain ⟨k, rfl⟩ : ∃ k, j = offset + 1 + k := ⟨j - (offset + 1), by omega⟩
          have hk : offset + 1 + k - offset = k + 1 := by omega
          simp [hk, hj, hlt]
        · have hlt' : ¬offset + 1 ≤ j := by omega
          simp [hj, hlt, hlt']

theorem length_addAt (values : List Int) (mixed : List Int) (offset : Nat) :
    (addAt mixed offset values).length = mixed.length := by
  induction values generalizing mixed offset with
  | nil => rfl
  | cons v values ih => rw [addAt, ih, List.length_modify]

/-! ## 先頭を除くこと -/

namespace Input

/-- 標本の数は、チャンネルの数の倍数である。 -/
def Aligned (channels : Nat) (i : Input) : Prop := channels ∣ i.samples.length

variable {channels : Nat} {i : Input} {p next : Int} {ch : Nat}

theorem aligned_pop (h : i.Aligned channels) : (i.pop channels).Aligned channels := by
  unfold Aligned at h ⊢
  rw [pop, List.length_drop]
  exact Nat.dvd_sub h (dvd_refl channels)

theorem sampleAt_nil (h : i.samples = []) : i.sampleAt channels p ch = none := by
  simp [sampleAt, h]

theorem sampleAt_pop : (i.pop channels).sampleAt channels p ch =
    if i.firstSample + 1 ≤ p then i.sampleAt channels p ch else none := by
  unfold sampleAt pop
  simp only
  by_cases hp : i.firstSample + 1 ≤ p
  · have hle : i.firstSample ≤ p := by omega
    have hindex : (p - i.firstSample).toNat = (p - (i.firstSample + 1)).toNat + 1 := by omega
    rw [if_pos hp, if_pos hp, if_pos hle, List.getElem?_drop, hindex]
    congr 1
    ring
  · rw [if_neg hp, if_neg hp]

theorem length_pop_lt (hc : 0 < channels) (h : i.samples ≠ []) : (i.pop channels).samples.length < i.samples.length := by
  rw [pop, List.length_drop]
  have := List.length_pos_of_ne_nil h
  omega

/-- 先頭を除くことで保たれる性質は、繰り返しても保たれる。 -/
theorem popWhile_keeps {I : Input → Prop} (hpop : ∀ i, I i → I (i.pop channels)) {more : Input → Bool} (n : Nat) (h : I i) :
    I (i.popWhile channels more n) := by
  induction n generalizing i with
  | zero => exact h
  | succ n ih =>
      rw [popWhile]
      split
      · exact ih (hpop i h)
      · exact h

/-- 捨てたあとは、標本がないか、`next` から始まる。 -/
theorem discard_from (hc : 0 < channels) :
    (i.discard channels next).samples = [] ∨ next ≤ (i.discard channels next).firstSample := by
  unfold discard
  generalize hn : i.samples.length = n
  replace hn := hn.le
  induction n generalizing i with
  | zero => exact .inl (List.length_eq_zero_iff.mp (Nat.le_zero.mp hn))
  | succ n ih =>
      rw [popWhile]
      split
      · rename_i hmore
        simp only [ne_eq, Bool.and_eq_true, decide_eq_true_eq] at hmore
        have := length_pop_lt hc hmore.1
        exact ih (by omega)
      · rename_i hmore
        simp only [ne_eq, Bool.and_eq_true, decide_eq_true_eq, not_and, not_lt] at hmore
        by_cases hs : i.samples = []
        · exact .inl hs
        · exact .inr (hmore hs)

theorem sampleAt_popWhile_below (n : Nat) (hp : next ≤ p) :
    (i.popWhile channels (fun i => i.samples ≠ [] && i.firstSample < next) n).sampleAt channels p ch =
      i.sampleAt channels p ch := by
  induction n generalizing i with
  | zero => rfl
  | succ n ih =>
      rw [popWhile]
      split
      · rename_i hmore
        simp only [ne_eq, Bool.and_eq_true, decide_eq_true_eq] at hmore
        rw [ih, sampleAt_pop, if_pos (by omega)]
      · rfl

theorem sampleAt_discard (hc : 0 < channels) : (i.discard channels next).sampleAt channels p ch =
    if next ≤ p then i.sampleAt channels p ch else none := by
  by_cases hp : next ≤ p
  · rw [if_pos hp, discard, sampleAt_popWhile_below _ hp]
  · rw [if_neg hp]
    rcases @discard_from channels i next hc with hnil | hfrom
    · exact sampleAt_nil hnil
    · rw [sampleAt, if_neg (by omega)]

theorem aligned_discard (h : i.Aligned channels) : (i.discard channels next).Aligned channels :=
  popWhile_keeps (I := Aligned channels) (fun _ => aligned_pop) _ h

/-! ## 足し合わせること -/

/-- 位置 `p` の標本の、列の中の番号。 -/
theorem index_lt {a b : Nat} (hc : ch < channels) (h : a < b) : a * channels + ch < b * channels := by
  have hle : (a + 1) * channels ≤ b * channels := Nat.mul_le_mul_right _ h
  rw [Nat.add_mul] at hle
  omega

/-- 先頭を足すと、その位置の値だけが変わる。 -/
theorem getElem?_addAt_head (hc : ch < channels) {mixed : List Int} (hfrom : next ≤ i.firstSample) (hp : next ≤ p) :
    (addAt mixed ((i.firstSample - next).toNat * channels) (i.samples.take channels))[(p - next).toNat * channels + ch]? =
      mixed[(p - next).toNat * channels + ch]?.map
        (· + if p = i.firstSample then (i.sampleAt channels p ch).getD 0 else 0) := by
  rw [getElem?_addAt]
  congr 2
  funext x
  congr 1
  rcases lt_trichotomy p i.firstSample with hlt | rfl | hgt
  · have hindex := index_lt hc (show (p - next).toNat < (i.firstSample - next).toNat by omega)
    rw [if_neg (by omega), if_neg (by omega)]
  · rw [if_pos (by omega), if_pos rfl, Nat.add_sub_cancel_left, List.getElem?_take_of_lt hc, sampleAt, if_pos le_rfl]
    simp
  · have hindex := Nat.mul_le_mul_right channels (show (i.firstSample - next).toNat + 1 ≤ (p - next).toNat by omega)
    rw [Nat.add_mul] at hindex
    rw [if_pos (by omega), if_neg (by omega), List.getElem?_eq_none]
    · rfl
    · rw [List.length_take]
      omega

/-- 足し合わせた列と、残りの列。 -/
structure Mixed (channels : Nat) (next bound : Int) (i : Input) (mixed : List Int) (r : Input × List Int) : Prop where
  length : r.2.length = mixed.length
  rest : ∀ p ch, r.1.sampleAt channels p ch = if bound ≤ p then i.sampleAt channels p ch else none
  added : ∀ p ch, next ≤ p → p < bound → ch < channels →
    r.2[(p - next).toNat * channels + ch]? =
      mixed[(p - next).toNat * channels + ch]?.map (· + (i.sampleAt channels p ch).getD 0)
  aligned : i.Aligned channels → r.1.Aligned channels

theorem Mixed.stop {bound : Int} {mixed : List Int} (h : i.samples = [] ∨ bound ≤ i.firstSample) :
    Mixed channels next bound i mixed (i, mixed) := by
  have hnone : ∀ p ch, p < bound → i.sampleAt channels p ch = none := by
    intro p ch hp
    rcases h with hnil | hfrom
    · exact sampleAt_nil hnil
    · rw [sampleAt, if_neg (by omega)]
  refine ⟨rfl, fun p ch => ?_, fun p ch _ hp _ => ?_, id⟩
  · split
    · rfl
    · exact hnone p ch (by omega)
  · simp [hnone p ch hp]

theorem mixed_mixInto (hc : 0 < channels) {bound : Int} (n : Nat) {mixed : List Int} (hn : i.samples.length ≤ n)
    (hfrom : i.samples = [] ∨ next ≤ i.firstSample) :
    Mixed channels next bound i mixed (i.mixInto channels next bound n mixed) := by
  induction n generalizing i mixed with
  | zero => exact .stop (.inl (List.length_eq_zero_iff.mp (Nat.le_zero.mp hn)))
  | succ n ih =>
      rw [mixInto]
      split
      · rename_i hmore
        obtain ⟨hne, hlt⟩ := hmore
        have hnext : next ≤ i.firstSample := hfrom.resolve_left hne
        have hlength := length_pop_lt hc hne
        have hpop : next ≤ (i.pop channels).firstSample := by
          simp only [pop]
          omega
        obtain ⟨hlen, hrest, hadded, haligned⟩ := ih (by omega) (.inr hpop)
        refine ⟨hlen.trans (length_addAt _ _ _), fun p ch => ?_, fun p ch hp hb hch => ?_,
          fun h => haligned (aligned_pop h)⟩
        · rw [hrest, sampleAt_pop]
          split
          · rw [if_pos (by omega)]
          · rfl
        · rw [hadded p ch hp hb hch, getElem?_addAt_head hch hnext hp, Option.map_map, sampleAt_pop]
          congr 1
          funext x
          simp only [Function.comp_apply]
          rcases lt_trichotomy p i.firstSample with hlt' | rfl | hgt
          · rw [if_neg (by omega), if_neg (by omega), sampleAt, if_neg (by omega)]
            simp
          · rw [if_pos rfl, if_neg (by omega)]
            simp
          · rw [if_neg (by omega), if_pos (by omega)]
            simp
      · rename_i hmore
        rw [not_and_or, not_not, not_lt] at hmore
        exact .stop hmore

end Input

/-! ## すべての利用者 -/

variable {f : Format} {inputs inputs' inputs'' : List (String × Input)} {next bound : Int}

/-- `next` より前の標本がなく、ほかは同じである。 -/
structure CutAt (f : Format) (next : Int) (e e' : String × Input) : Prop where
  rest : ∀ p ch, e'.2.sampleAt f.channels p ch = if next ≤ p then e.2.sampleAt f.channels p ch else none
  aligned : e.2.Aligned f.channels → e'.2.Aligned f.channels

/-- すべての利用者の列が、`next` で切り詰められた。 -/
abbrev Cut (f : Format) (next : Int) : List (String × Input) → List (String × Input) → Prop := List.Forall₂ (CutAt f next)

theorem CutAt.trans {e e' e'' : String × Input} (h : CutAt f next e e') (h' : CutAt f bound e' e'') (hle : next ≤ bound) :
    CutAt f bound e e'' := by
  refine ⟨fun p ch => ?_, h'.aligned ∘ h.aligned⟩
  rw [h'.rest, h.rest]
  split
  · rw [if_pos (by omega)]
  · rfl

theorem Cut.trans (h : Cut f next inputs inputs') (h' : Cut f bound inputs' inputs'') (hle : next ≤ bound) :
    Cut f bound inputs inputs'' := by
  induction h generalizing inputs'' with
  | nil => exact h'
  | cons he _ ih =>
      cases h' with
      | cons he' hrest => exact .cons (he.trans he' hle) (ih hrest)

theorem Cut.exists_left (h : Cut f next inputs inputs') {e' : String × Input} (he : e' ∈ inputs') :
    ∃ e ∈ inputs, CutAt f next e e' := by
  induction h with
  | nil => simp at he
  | cons hcut _ ih =>
      rcases List.mem_cons.mp he with rfl | he
      · exact ⟨_, List.mem_cons_self, hcut⟩
      · obtain ⟨e, hmem, h⟩ := ih he
        exact ⟨e, List.mem_cons_of_mem _ hmem, h⟩

theorem Cut.exists_right (h : Cut f next inputs inputs') {e : String × Input} (he : e ∈ inputs) :
    ∃ e' ∈ inputs', CutAt f next e e' := by
  induction h with
  | nil => simp at he
  | cons hcut _ ih =>
      rcases List.mem_cons.mp he with rfl | he
      · exact ⟨_, List.mem_cons_self, hcut⟩
      · obtain ⟨e', hmem, h⟩ := ih he
        exact ⟨e', List.mem_cons_of_mem _ hmem, h⟩

theorem total_cons (e : String × Input) (p : Int) (ch : Nat) :
    total f (e :: inputs) p ch = (e.2.sampleAt f.channels p ch).getD 0 + total f inputs p ch := by
  rw [total, List.map_cons, List.sum_cons, total]

theorem Cut.total (h : Cut f next inputs inputs') {p : Int} {ch : Nat} (hp : next ≤ p) :
    total f inputs' p ch = total f inputs p ch := by
  induction h with
  | nil => rfl
  | cons hcut _ ih => rw [total_cons, total_cons, ih, hcut.rest, if_pos hp]

theorem cut_discard (hc : 0 < f.channels) (inputs : List (String × Input)) :
    Cut f next inputs (inputs.map fun e => (e.1, e.2.discard f.channels next)) := by
  induction inputs with
  | nil => exact .nil
  | cons e inputs ih => exact .cons ⟨fun _ _ => Input.sampleAt_discard hc, Input.aligned_discard⟩ ih

/-- 全員の標本を足した列と、残りの列。 -/
theorem mixAll_spec (hc : 0 < f.channels) {mixed : List Int}
    (hfrom : ∀ e ∈ inputs, e.2.samples = [] ∨ next ≤ e.2.firstSample) :
    Cut f bound inputs (mixAll f next bound inputs mixed).1 ∧
      (mixAll f next bound inputs mixed).2.length = mixed.length ∧
      ∀ p ch, next ≤ p → p < bound → ch < f.channels →
        (mixAll f next bound inputs mixed).2[(p - next).toNat * f.channels + ch]? =
          mixed[(p - next).toNat * f.channels + ch]?.map (· + total f inputs p ch) := by
  induction inputs generalizing mixed with
  | nil => exact ⟨.nil, rfl, fun p ch _ _ _ => by simp [mixAll, total]⟩
  | cons e inputs ih =>
      have hmix : Input.Mixed f.channels next bound e.2 mixed (e.2.mixInto f.channels next bound e.2.samples.length mixed) :=
        Input.mixed_mixInto hc _ le_rfl (hfrom e List.mem_cons_self)
      obtain ⟨hcut, hlen, hadded⟩ := @ih (e.2.mixInto f.channels next bound e.2.samples.length mixed).2
        fun e he => hfrom e (List.mem_cons_of_mem _ he)
      refine ⟨.cons ⟨hmix.rest, hmix.aligned⟩ hcut, hlen.trans hmix.length, fun p ch hp hb hch => ?_⟩
      refine (hadded p ch hp hb hch).trans ?_
      rw [hmix.added p ch hp hb hch, Option.map_map, total_cons]
      congr 1
      funext x
      simp only [Function.comp_apply]
      omega

/-! ## 大きさの制限 -/

theorem le_peak (mixed : List Int) (b : Int) : b ≤ mixed.foldl (fun peak sample => max peak sample.natAbs) b ∧
    ∀ v ∈ mixed, (v.natAbs : Int) ≤ mixed.foldl (fun peak sample => max peak sample.natAbs) b := by
  induction mixed generalizing b with
  | nil => simp
  | cons w mixed ih =>
      obtain ⟨hb, hl⟩ := ih (max b w.natAbs)
      rw [List.foldl_cons]
      refine ⟨(le_max_left _ _).trans hb, fun v hv => ?_⟩
      rcases List.mem_cons.mp hv with rfl | hv
      · exact (le_max_right _ _).trans hb
      · exact hl v hv

/-- 制限した標本は十六ビットに収まる。 -/
theorem natAbs_limited_le {mixed : List Int} : ∀ v ∈ limited mixed, v.natAbs ≤ 32767 := by
  intro v hv
  obtain ⟨w, hw, rfl⟩ := List.mem_map.mp hv
  obtain ⟨hpos, hle⟩ := le_peak mixed 32767
  have hw := hle w hw
  generalize mixed.foldl (fun peak sample => max peak sample.natAbs) 32767 = peak at hpos hw ⊢
  rw [Int.natAbs_tdiv, Int.natAbs_mul]
  refine Nat.div_le_of_le_mul ?_
  exact Nat.mul_le_mul_right _ (by omega)

/-! ## 一回の繰り返し -/

variable {m m' : AudioMixer} {now count drainEnd : Int}

/-- どの列も、標本の数がチャンネルの数の倍数である。 -/
def AllAligned (f : Format) (m : AudioMixer) : Prop := ∀ e ∈ m.inputs, e.2.Aligned f.channels

/-- 標本は `drainEnd` より前にある。 -/
def Before (f : Format) (drainEnd : Int) (m : AudioMixer) : Prop :=
  ∀ e ∈ m.inputs, ∀ p ch, ch < f.channels → (e.2.sampleAt f.channels p ch).isSome → p < drainEnd

theorem mem_nonEmpty {i : Input} : i ∈ nonEmpty inputs ↔ (∃ e ∈ inputs, e.2 = i) ∧ i.samples ≠ [] := by
  simp [nonEmpty]

theorem le_foldl_max (l : List Int) (b : Int) : b ≤ l.foldl max b ∧ ∀ x ∈ l, x ≤ l.foldl max b := by
  induction l generalizing b with
  | nil => simp
  | cons y l ih =>
      obtain ⟨hb, hl⟩ := ih (max b y)
      rw [List.foldl_cons]
      refine ⟨(le_max_left b y).trans hb, fun x hx => ?_⟩
      rcases List.mem_cons.mp hx with rfl | hx
      · exact (le_max_right b x).trans hb
      · exact hl x hx

theorem endSample_le_latest {e : String × Input} (he : e ∈ inputs) (hne : e.2.samples ≠ []) :
    e.2.endSample f.channels ≤ latest f next inputs :=
  (le_foldl_max _ next).2 _ (List.mem_map_of_mem (mem_nonEmpty.mpr ⟨⟨e, he, rfl⟩, hne⟩))

theorem Input.first_lt_end {i : Input} {channels : Nat} (hc : 0 < channels) (ha : i.Aligned channels) (hne : i.samples ≠ []) :
    i.firstSample < i.endSample channels := by
  have hpos : 0 < i.samples.length / channels :=
    Nat.div_pos (Nat.le_of_dvd (List.length_pos_of_ne_nil hne) ha) hc
  unfold endSample
  omega

/-- 標本の位置は、最後の標本の次の位置より前である。 -/
theorem Input.lt_end_of_sampleAt {i : Input} {channels ch : Nat} {p : Int} (hc : 0 < channels) (ha : i.Aligned channels)
    (h : (i.sampleAt channels p ch).isSome) : p < i.endSample channels := by
  unfold sampleAt at h
  split at h
  · obtain ⟨v, hv⟩ := Option.isSome_iff_exists.mp h
    obtain ⟨hindex, -⟩ := List.getElem?_eq_some_iff.mp hv
    obtain ⟨k, hk⟩ := ha
    have hlt : (p - i.firstSample).toNat < k := by
      refine Nat.lt_of_mul_lt_mul_left (a := channels) ?_
      rw [← hk, Nat.mul_comm]
      omega
    have hdiv : i.samples.length / channels = k := by rw [hk, Nat.mul_div_cancel_left k hc]
    rw [endSample, hdiv]
    omega
  · cases h

theorem Input.sampleAt_first {i : Input} {channels : Nat} (hne : i.samples ≠ []) :
    (i.sampleAt channels i.firstSample 0).isSome := by
  rw [sampleAt, if_pos le_rfl]
  simpa using List.length_pos_of_ne_nil hne

theorem earliest_le {x : Int} (h : earliest inputs = some x) {e : String × Input} (he : e ∈ inputs) (hne : e.2.samples ≠ []) :
    x ≤ e.2.firstSample :=
  (List.min?_eq_some_iff.mp h).2 _ (List.mem_map_of_mem (mem_nonEmpty.mpr ⟨⟨e, he, rfl⟩, hne⟩))

theorem exists_earliest {e : String × Input} (he : e ∈ inputs) (hne : e.2.samples ≠ []) :
    ∃ e' ∈ inputs, e'.2.samples ≠ [] ∧ earliest inputs = some e'.2.firstSample := by
  have hmem : e.2.firstSample ∈ (nonEmpty inputs).map Input.firstSample :=
    List.mem_map_of_mem (mem_nonEmpty.mpr ⟨⟨e, he, rfl⟩, hne⟩)
  cases h : earliest inputs with
  | none =>
      rw [earliest, List.min?_eq_none_iff] at h
      rw [h] at hmem
      simp at hmem
  | some x =>
      obtain ⟨i, hi, rfl⟩ := List.mem_map.mp (List.min?_eq_some_iff.mp h).1
      obtain ⟨⟨e', he', rfl⟩, hne'⟩ := mem_nonEmpty.mp hi
      exact ⟨e', he', hne', rfl⟩

/-- 一つのフレームを作って、`m` が `m'` になった。 -/
structure Emits (f : Format) (count : Int) (m : AudioMixer) (x : Mix) (m' : AudioMixer) : Prop where
  next : Next f m m.nextSample x.start
  length : x.mixed.length = (count * f.channels).toNat
  mixed : ∀ p ch, x.covers count p → ch < f.channels →
    x.mixed[(p - x.start).toNat * f.channels + ch]? = some (total f m.inputs p ch)
  nextSample : m'.nextSample = x.start + count
  cut : Cut f (x.start + count) m.inputs m'.inputs

theorem latest_of_empty (h : ∀ e ∈ inputs, e.2.samples = []) : latest f next inputs = next := by
  have hnil : nonEmpty inputs = [] := by
    refine List.filter_eq_nil_iff.mpr fun i hi => ?_
    obtain ⟨e, he, rfl⟩ := List.mem_map.mp hi
    simp [h e he]
  rw [latest, hnil]
  rfl

theorem le_startOf : next ≤ startOf f next inputs := by
  unfold startOf
  split
  · split <;> omega
  · exact le_rfl

/-- 始めの位置より前には、標本がない。 -/
theorem startOf_le (hfrom : ∀ e ∈ inputs, e.2.samples = [] ∨ next ≤ e.2.firstSample) :
    ∀ e ∈ inputs, e.2.samples = [] ∨ startOf f next inputs ≤ e.2.firstSample := by
  intro e he
  unfold startOf
  split
  · rename_i first hearliest
    split
    · by_cases hs : e.2.samples = []
      · exact .inl hs
      · exact .inr (earliest_le hearliest he hs)
    · exact hfrom e he
  · exact hfrom e he

theorem next_startOf {m : AudioMixer} (hcut : Cut f m.nextSample m.inputs inputs)
    (hfrom : ∀ e ∈ inputs, e.2.samples = [] ∨ m.nextSample ≤ e.2.firstSample) :
    Next f m m.nextSample (startOf f m.nextSample inputs) := by
  have hstart := startOf_le (f := f) hfrom
  by_cases hjump : m.nextSample + f.rate < startOf f m.nextSample inputs
  · refine .inr ⟨hjump, fun e he p ch hp hlt _ => ?_⟩
    obtain ⟨e', he', h⟩ := hcut.exists_right he
    have hsame := h.rest p ch
    rw [if_pos hp] at hsame
    rw [← hsame]
    rcases hstart e' he' with hnil | hle
    · exact Input.sampleAt_nil hnil
    · rw [Input.sampleAt, if_neg (by omega)]
  · refine .inl ?_
    unfold startOf at hjump ⊢
    split
    · rename_i hearliest
      rw [hearliest] at hjump
      simp only at hjump
      split
      · rename_i hlt
        rw [if_pos hlt] at hjump
        omega
      · rfl
    · rfl

/-- 切り詰めた列から、`start` から始まるフレームを作る。 -/
theorem emits_mixAll (hc : 0 < f.channels) {start : Int} {mixed : List Int} (hnext : Next f m m.nextSample start)
    (hle : m.nextSample ≤ start) (hcut : Cut f m.nextSample m.inputs inputs) (hcount : 0 < count)
    (hfrom : ∀ e ∈ inputs, e.2.samples = [] ∨ start ≤ e.2.firstSample)
    (hmixed : mixed = List.replicate (count * f.channels).toNat 0) :
    Emits f count m ⟨start, (mixAll f start (start + count) inputs mixed).2⟩
      { m with inputs := (mixAll f start (start + count) inputs mixed).1, nextSample := start + count } := by
  have hend : m.nextSample ≤ start + count := by omega
  obtain ⟨hrest, hlen, hadded⟩ := @mixAll_spec f inputs start (start + count) hc mixed hfrom
  refine ⟨hnext, ?_, fun p ch hp hch => ?_, rfl, hcut.trans hrest hend⟩
  · rw [hlen, hmixed, List.length_replicate]
  · simp only [Mix.covers, Bool.and_eq_true, decide_eq_true_eq] at hp
    refine (hadded p ch hp.1 hp.2 hch).trans ?_
    have hindex : (p - start).toNat * f.channels + ch < (count * f.channels).toNat := by
      have hlt := Input.index_lt hch (show (p - start).toNat < count.toNat by omega)
      rwa [Int.toNat_mul hcount.le (Int.natCast_nonneg _), Int.toNat_natCast]
    rw [hmixed, List.getElem?_replicate, if_pos hindex, hcut.total (by omega)]
    simp

/-- 空にするときの一回は、標本が残っていなければ終わり、残っていればフレームを作る。 -/
theorem round_flush (hc : 0 < f.channels) (hcount : 0 < count) (ha : AllAligned f m) (hb : Before f drainEnd m) :
    (∃ m', round f now count true drainEnd m = .done m' ∧ Cut f m.nextSample m.inputs m'.inputs ∧
      ∀ e ∈ m'.inputs, e.2.samples = []) ∨
    ∃ x m', round f now count true drainEnd m = .emit x m' ∧ Emits f count m x m' := by
  have hcut : Cut f m.nextSample m.inputs (m.inputs.map fun e => (e.1, e.2.discard f.channels m.nextSample)) :=
    cut_discard hc _
  have hfrom : ∀ e ∈ m.inputs.map (fun e => (e.1, e.2.discard f.channels m.nextSample)),
      e.2.samples = [] ∨ m.nextSample ≤ e.2.firstSample := by
    intro e he
    obtain ⟨e, -, rfl⟩ := List.mem_map.mp he
    exact Input.discard_from hc
  unfold round
  simp only
  generalize m.inputs.map (fun e => (e.1, e.2.discard f.channels m.nextSample)) = inputs at hcut hfrom ⊢
  by_cases hempty : ∀ e ∈ inputs, e.2.samples = []
  · refine .inl ⟨{ m with inputs }, ?_, hcut, hempty⟩
    rw [latest_of_empty hempty, if_pos le_rfl]
  · obtain ⟨e, he, hne⟩ : ∃ e ∈ inputs, e.2.samples ≠ [] := by
      simpa only [not_forall, exists_prop] using hempty
    obtain ⟨e', he', hne', hearliest⟩ := exists_earliest he hne
    obtain ⟨e₀, he₀, hcutAt⟩ := hcut.exists_left he'
    have hnext : m.nextSample ≤ e'.2.firstSample := (hfrom e' he').resolve_left hne'
    have hlatest : ¬latest f m.nextSample inputs ≤ m.nextSample := by
      have hend : e'.2.endSample f.channels ≤ latest f m.nextSample inputs := endSample_le_latest he' hne'
      have hlt := Input.first_lt_end hc (hcutAt.aligned (ha e₀ he₀)) hne'
      omega
    have hbefore : e'.2.firstSample < drainEnd := by
      refine hb e₀ he₀ _ 0 hc ?_
      have hsome : (e'.2.sampleAt f.channels e'.2.firstSample 0).isSome := Input.sampleAt_first hne'
      rwa [hcutAt.rest, if_pos hnext] at hsome
    refine .inr ⟨_, _, ?_, emits_mixAll hc (next_startOf hcut hfrom) le_startOf hcut hcount (startOf_le hfrom) rfl⟩
    rw [if_neg hlatest, hearliest, if_neg (by simpa using hbefore)]
    simp

/-! ## 繰り返し -/

theorem Next.le {start start' : Int} (h : Next f m start start') : start ≤ start' := by
  rcases h with rfl | ⟨hlt, -⟩ <;> omega

namespace Emits

variable {x : Mix} {p : Int} {ch : Nat}

theorem late (h : Emits f count m x m') : m.nextSample ≤ x.start := h.next.le

/-- 残りの標本は、フレームの後にある。 -/
theorem next_of_next (h : Emits f count m x m') {start start' : Int} (hle : x.start + count ≤ start)
    (hnext : Next f m' start start') : Next f m start start' := by
  rcases hnext with hnext | ⟨hjump, hnone⟩
  · exact .inl hnext
  · refine .inr ⟨hjump, fun e he p ch hp hlt hch => ?_⟩
    obtain ⟨e', he', hcut⟩ := h.cut.exists_right he
    have hsame := hcut.rest p ch
    rw [if_pos (by omega)] at hsame
    rw [← hsame]
    exact hnone e' he' p ch hp hlt hch

theorem allAligned (h : Emits f count m x m') (ha : AllAligned f m) : AllAligned f m' := by
  intro e' he'
  obtain ⟨e, he, hcut⟩ := h.cut.exists_left he'
  exact hcut.aligned (ha e he)

theorem before (h : Emits f count m x m') (hb : Before f drainEnd m) : Before f drainEnd m' := by
  intro e' he' p ch hch hsome
  obtain ⟨e, he, hcut⟩ := h.cut.exists_left he'
  rw [hcut.rest] at hsome
  split at hsome
  · exact hb e he p ch hch hsome
  · cases hsome

theorem length_frame (h : Emits f count m x m') (hcount : 0 < count) : ((x.frame f).data.length : Int) = count * f.channels := by
  have hdata : (x.frame f).data.length = x.mixed.length := List.length_map _
  rw [hdata, h.length, Int.toNat_of_nonneg (Int.mul_nonneg hcount.le (Int.natCast_nonneg _))]

/-- 作ったフレームの前の位置には、標本がない。 -/
theorem start_le (h : Emits f count m x m') {e : String × Input} (he : e ∈ m.inputs) (hp : m.nextSample ≤ p)
    (hch : ch < f.channels) (hsome : (e.2.sampleAt f.channels p ch).isSome) : x.start ≤ p := by
  rcases h.next with heq | ⟨-, hnone⟩
  · omega
  · by_contra hlt
    rw [hnone e he p ch hp (by omega) hch] at hsome
    cases hsome

/-- 作ったフレームを、残りのフレームの前に置く。 -/
theorem drained (h : Emits f count m x m') (hcount : 0 < count) {out : List Mix} {m'' : AudioMixer}
    (hd : Drained f count m' out m'') : Drained f count m (x :: out) m'' := by
  have hlate : ∀ x' ∈ out, x.start + count ≤ x'.start := fun x' hx' => h.nextSample ▸ hd.late x' hx'
  have hstart := h.late
  refine ⟨?_, ?_, ?_, ?_, ?_, ?_, hd.rest⟩
  · intro x' hx'
    rcases List.mem_cons.mp hx' with rfl | hx'
    · exact h.length_frame hcount
    · exact hd.size x' hx'
  · intro x' hx'
    cases hx'
    exact h.next
  · refine List.IsChain.cons ?_ fun x' hx' => ?_
    · refine List.IsChain.imp_of_mem_imp (fun a b ha _ hab => ?_) hd.next
      have := hlate a ha
      exact h.next_of_next (by omega) hab
    · have hnext := hd.first x' hx'
      rw [h.nextSample] at hnext
      exact h.next_of_next le_rfl hnext
  · intro x' hx' p ch hp hch
    rcases List.mem_cons.mp hx' with rfl | hx'
    · exact h.mixed p ch hp hch
    · rw [hd.mixed x' hx' p ch hp hch, h.cut.total]
      have := hlate x' hx'
      simp only [Mix.covers, Bool.and_eq_true, decide_eq_true_eq] at hp
      omega
  · intro e he p ch hp hch hsome
    have hle := h.start_le he hp hch hsome
    rw [List.countP_cons]
    by_cases hlt : p < x.start + count
    · have hnone : out.countP (Mix.covers count p) = 0 := by
        refine List.countP_eq_zero.mpr fun x' hx' => ?_
        have := hlate x' hx'
        simp only [Mix.covers, Bool.and_eq_true, decide_eq_true_eq]
        omega
      rw [hnone, if_pos (by simp [Mix.covers, hle, hlt])]
    · obtain ⟨e', he', hcut⟩ := h.cut.exists_right he
      rw [if_neg (by simp [Mix.covers, hlt])]
      refine hd.once e' he' p ch (h.nextSample ▸ by omega) hch ?_
      rwa [hcut.rest, if_pos (by omega)]
  · intro x' hx'
    rcases List.mem_cons.mp hx' with rfl | hx'
    · exact hstart
    · have := hlate x' hx'
      omega

end Emits

/-- 標本が残っていなければ、フレームを作らずに終わる。 -/
theorem drained_nil (hnone : ∀ e ∈ m.inputs, ∀ p ch, m.nextSample ≤ p → ch < f.channels → e.2.sampleAt f.channels p ch = none)
    (hrest : ∀ e ∈ m'.inputs, ∀ p ch, m'.nextSample ≤ p → ch < f.channels → e.2.sampleAt f.channels p ch = none) :
    Drained f count m [] m' := by
  refine ⟨by simp, by simp, .nil, by simp, fun e he p ch hp hch hsome => ?_, by simp, hrest⟩
  rw [hnone e he p ch hp hch] at hsome
  cases hsome

theorem mem_of_mem_sweep {e : String × Input} (h : e ∈ (sweep now m).inputs) : e ∈ m.inputs := List.mem_of_mem_filter h

/-- `drainEnd` を過ぎていれば、標本は残っていない。 -/
theorem none_of_before (hb : Before f drainEnd m) (hend : drainEnd ≤ next) {e : String × Input} (he : e ∈ m.inputs)
    {p : Int} {ch : Nat} (hp : next ≤ p) (hch : ch < f.channels) : e.2.sampleAt f.channels p ch = none := by
  by_contra hne
  have := hb e he p ch hch (Option.isSome_iff_ne_none.mpr hne)
  omega

theorem rounds_of_le {consume : Consumer} {flush : Bool} (hend : drainEnd ≤ m.nextSample) (n : Nat) :
    rounds f consume now count flush drainEnd n m = some (true, [], sweep now m) := by
  cases n <;> rw [rounds, if_pos hend]

theorem drained_of_le (hb : Before f drainEnd m) (hend : drainEnd ≤ m.nextSample) : Drained f count m [] (sweep now m) :=
  drained_nil (fun _ he _ _ hp hch => none_of_before hb hend he hp hch)
    fun _ he _ _ hp hch => none_of_before hb hend (mem_of_mem_sweep he) hp hch

/-- 繰り返すごとに、残りの長さは `count` だけ短くなる。 -/
theorem rounds_flush (hc : 0 < f.channels) (hcount : 0 < count) (n : Nat) (ha : AllAligned f m) (hb : Before f drainEnd m)
    (hn : (drainEnd - m.nextSample).toNat ≤ n) :
    ∃ out m', rounds f accept now count true drainEnd n m = some (true, out, m') ∧ Drained f count m out m' := by
  induction n generalizing m with
  | zero =>
      have hend : drainEnd ≤ m.nextSample := by omega
      exact ⟨[], _, rounds_of_le hend 0, drained_of_le hb hend⟩
  | succ n ih =>
      by_cases hend : drainEnd ≤ m.nextSample
      · exact ⟨[], _, rounds_of_le hend _, drained_of_le hb hend⟩
      · rw [rounds, if_neg hend]
        rcases @round_flush f m now count drainEnd hc hcount ha hb with ⟨m', hround, hcut, hempty⟩ | ⟨x, m', hround, hemits⟩
        · refine ⟨[], sweep now m', by simp only [hround], drained_nil (fun e he p ch hp _ => ?_) fun e he p ch _ _ => ?_⟩
          · obtain ⟨e', he', h⟩ := hcut.exists_right he
            have hsame := h.rest p ch
            rw [if_pos hp, Input.sampleAt_nil (hempty e' he')] at hsame
            exact hsame.symm
          · exact Input.sampleAt_nil (hempty e (mem_of_mem_sweep he))
        · have hmeasure : (drainEnd - m'.nextSample).toNat ≤ n := by
            have hnext := hemits.nextSample
            have hlate := hemits.late
            omega
          obtain ⟨out, m'', hrounds, hdrained⟩ := ih (hemits.allAligned ha) (hemits.before hb) hmeasure
          refine ⟨x :: out, m'', ?_, hemits.drained hcount hdrained⟩
          simp only [hround, accept, if_true]
          rw [hrounds]
          rfl

/-! ## 続けて起こること -/

/-- 標本の数がチャンネルの数の倍数であり、位置が決まるまでは標本がない。 -/
structure Valid (f : Format) (m : AudioMixer) : Prop where
  aligned : AllAligned f m
  silent : m.nextSample < 0 → ∀ e ∈ m.inputs, e.2.samples = []

theorem before_latest (hc : 0 < f.channels) (ha : AllAligned f m) : Before f (latest f m.nextSample m.inputs) m := by
  intro e he p ch _ hsome
  have hne : e.2.samples ≠ [] := by
    intro hnil
    rw [Input.sampleAt_nil hnil] at hsome
    cases hsome
  have hlt := Input.lt_end_of_sampleAt hc (ha e he) hsome
  have hle : e.2.endSample f.channels ≤ latest f m.nextSample m.inputs := endSample_le_latest he hne
  omega

theorem drain_flush (now : Int) (hc : 0 < f.channels) (hcount : 0 < count) (h : Valid f m) (n : Nat)
    (hn : (latest f m.nextSample m.inputs - m.nextSample).toNat ≤ n) :
    ∃ out m', drain f n accept now count true m = some (true, out, m') ∧ Drained f count m out m' := by
  unfold drain
  by_cases hidle : m.nextSample < 0 ∨ m.inputs = []
  · have hnone : ∀ e ∈ m.inputs, ∀ p ch, m.nextSample ≤ p → ch < f.channels → e.2.sampleAt f.channels p ch = none := by
      intro e he p ch _ _
      rcases hidle with hneg | hnil
      · exact Input.sampleAt_nil (h.silent hneg e he)
      · simp [hnil] at he
    rw [if_pos hidle]
    exact ⟨[], m, rfl, drained_nil hnone hnone⟩
  · rw [if_neg hidle, if_neg (by simp), if_neg (by omega)]
    exact rounds_flush hc hcount n h.aligned (before_latest hc h.aligned) hn

/-- 新しい列は、どれも元の列の先頭を除いたものである。 -/
def Pops (f : Format) (inputs inputs' : List (String × Input)) : Prop :=
  ∀ e' ∈ inputs', ∃ e ∈ inputs, ∀ I : Input → Prop, (∀ i, I i → I (i.pop f.channels)) → I e.2 → I e'.2

theorem Pops.of_subset (h : inputs' ⊆ inputs) : Pops f inputs inputs' :=
  fun e' he' => ⟨e', h he', fun _ _ hi => hi⟩

theorem Pops.trans (h : Pops f inputs inputs') (h' : Pops f inputs' inputs'') : Pops f inputs inputs'' := by
  intro e'' he''
  obtain ⟨e', he', hpops'⟩ := h' e'' he''
  obtain ⟨e, he, hpops⟩ := h e' he'
  exact ⟨e, he, fun I hpop hi => hpops' I hpop (hpops I hpop hi)⟩

theorem pops_discard : Pops f inputs (inputs.map fun e => (e.1, e.2.discard f.channels next)) := by
  intro e' he'
  obtain ⟨e, he, rfl⟩ := List.mem_map.mp he'
  exact ⟨e, he, fun I hpop hi => Input.popWhile_keeps hpop _ hi⟩

theorem Input.mixInto_keeps {I : Input → Prop} {channels : Nat} (hpop : ∀ i, I i → I (i.pop channels)) (n : Nat) {i : Input}
    {mixed : List Int} (h : I i) : I (i.mixInto channels next bound n mixed).1 := by
  induction n generalizing i mixed with
  | zero => exact h
  | succ n ih =>
      rw [mixInto]
      split
      · exact ih (hpop i h)
      · exact h

theorem pops_mixAll (inputs : List (String × Input)) {mixed : List Int} : Pops f inputs (mixAll f next bound inputs mixed).1 := by
  induction inputs generalizing mixed with
  | nil => exact fun e' he' => absurd he' List.not_mem_nil
  | cons e inputs ih =>
      intro e' he'
      rcases List.mem_cons.mp he' with rfl | he'
      · exact ⟨e, List.mem_cons_self, fun I hpop hi => Input.mixInto_keeps hpop _ hi⟩
      · obtain ⟨e₀, he₀, hpops⟩ := ih e' he'
        exact ⟨e₀, List.mem_cons_of_mem _ he₀, hpops⟩

theorem Valid.of_pops (h : Valid f m) (hnext : m.nextSample ≤ m'.nextSample) (hpops : Pops f m.inputs m'.inputs) :
    Valid f m' := by
  constructor
  · intro e' he'
    obtain ⟨e, he, hpop⟩ := hpops e' he'
    exact hpop (Input.Aligned f.channels) (fun _ => Input.aligned_pop) (h.aligned e he)
  · intro hneg e' he'
    obtain ⟨e, he, hpop⟩ := hpops e' he'
    exact hpop (fun i => i.samples = []) (fun i hi => by simp [Input.pop, hi]) (h.silent (by omega) e he)

def Round.mixer : Round → AudioMixer
  | .done m | .leave m | .emit _ m => m

theorem round_valid {flush : Bool} (hcount : 0 < count) (h : Valid f m) : Valid f (round f now count flush drainEnd m).mixer := by
  have hdiscard : Pops f m.inputs (m.inputs.map fun e => (e.1, e.2.discard f.channels m.nextSample)) := pops_discard
  unfold round
  simp only
  generalize m.inputs.map (fun e => (e.1, e.2.discard f.channels m.nextSample)) = inputs at hdiscard ⊢
  have hle : m.nextSample ≤ startOf f m.nextSample inputs := le_startOf
  split
  · exact h.of_pops le_rfl hdiscard
  · split
    · exact h.of_pops le_rfl hdiscard
    · split
      · exact h.of_pops hle hdiscard
      · split
        · exact h.of_pops hle hdiscard
        · refine h.of_pops ?_ (hdiscard.trans (pops_mixAll _))
          simp only [Round.mixer]
          omega

theorem sweep_valid (h : Valid f m) : Valid f (sweep now m) :=
  h.of_pops le_rfl (.of_subset fun _ => mem_of_mem_sweep)

theorem rounds_valid {consume : Consumer} {flush ok : Bool} {out : List Mix} (hcount : 0 < count)
    (hconsume : ∀ frame m, Valid f m → Valid f (consume frame m).2) (n : Nat) (h : Valid f m)
    (hrun : rounds f consume now count flush drainEnd n m = some (ok, out, m')) : Valid f m' := by
  induction n generalizing m out with
  | zero =>
      rw [rounds] at hrun
      split at hrun
      · cases hrun
        exact sweep_valid h
      · cases hrun
  | succ n ih =>
      have hround : Valid f (round f now count flush drainEnd m).mixer := round_valid hcount h
      rw [rounds] at hrun
      split at hrun
      · cases hrun
        exact sweep_valid h
      · split at hrun
        · rename_i heq
          rw [heq] at hround
          cases hrun
          exact sweep_valid hround
        · rename_i heq
          rw [heq] at hround
          cases hrun
          exact hround
        · rename_i x m₁ heq
          rw [heq] at hround
          have hconsumed := hconsume (x.frame f) m₁ hround
          simp only at hrun
          split at hrun
          · obtain ⟨r, hr, heq'⟩ := Option.map_eq_some_iff.mp hrun
            cases heq'
            exact ih hconsumed hr
          · cases hrun
            exact hconsumed

theorem drain_valid {consume : Consumer} {flush ok : Bool} {out : List Mix} {n : Nat}
    (hconsume : ∀ frame m, Valid f m → Valid f (consume frame m).2) (h : Valid f m)
    (hrun : drain f n consume now count flush m = some (ok, out, m')) : Valid f m' := by
  unfold drain at hrun
  split at hrun
  · cases hrun
    exact h
  · split at hrun
    · cases hrun
      exact h
    · split at hrun
      · cases hrun
        exact h
      · exact rounds_valid (by omega) hconsume n h hrun

variable {userId : String} {frame : AudioFrame} {swr : Swr} {i : Input}

theorem mem_store {e : String × Input} : {inputs : List (String × Input)} → e ∈ store userId i inputs →
    e.2 = i ∨ e ∈ inputs
  | [], h => by
      cases List.mem_singleton.mp h
      exact .inl rfl
  | (user, i') :: inputs, h => by
      unfold store at h
      split at h
      · rcases List.mem_cons.mp h with rfl | h
        · exact .inl rfl
        · exact .inr (List.mem_cons_of_mem _ h)
      · rcases List.mem_cons.mp h with rfl | h
        · exact .inr List.mem_cons_self
        · exact (mem_store h).imp_right (List.mem_cons_of_mem _)

/-- 利用者の列は、置かれたものか、空である。 -/
theorem lookup_cases (userId : String) (inputs : List (String × Input)) :
    lookup userId inputs = {} ∨ ∃ e ∈ inputs, e.2 = lookup userId inputs := by
  unfold lookup
  cases h : inputs.lookup userId with
  | none => exact .inl rfl
  | some i =>
      refine .inr ?_
      induction inputs with
      | nil => simp at h
      | cons e inputs ih =>
          rw [List.lookup_cons] at h
          split at h
          · cases h
            exact ⟨e, List.mem_cons_self, rfl⟩
          · obtain ⟨e', he', heq⟩ := ih h
            exact ⟨e', List.mem_cons_of_mem _ he', heq⟩

theorem aligned_lookup (h : AllAligned f m) : (lookup userId m.inputs).Aligned f.channels := by
  rcases lookup_cases userId m.inputs with hnew | ⟨e, he, heq⟩
  · rw [hnew]
    exact Nat.dvd_zero _
  · rw [← heq]
    exact h e he

theorem openResampler_samples : (openResampler swr frame i).2.samples = i.samples := by
  unfold openResampler
  split
  · rfl
  · split <;> rfl

/-- 変換は、置かれた標本を変えない。 -/
theorem convert_samples : (convert f swr frame i).2.samples = i.samples := by
  unfold convert
  split
  · have hopen : (openResampler swr frame i).2.samples = i.samples := openResampler_samples
    generalize openResampler swr frame i = r at hopen ⊢
    obtain ⟨opened, i'⟩ := r
    cases opened <;> exact hopen
  · rfl

/-- 変換した標本の数は、チャンネルの数の倍数である。 -/
theorem dvd_convert {converted : List Int} (h : (convert f swr frame i).1 = some converted) :
    f.channels ∣ converted.length := by
  unfold convert at h
  split at h
  · simp only at h
    split at h
    · obtain ⟨produced, -, rfl⟩ := Option.map_eq_some_iff.mp h
      rw [List.length_map, List.length_range]
      exact Nat.dvd_mul_left _ _
    · cases h
  · rename_i hsame
    rw [not_or, not_not, not_not] at hsame
    cases h
    rw [hsame.2, Int.toNat_natCast, List.length_take, Nat.min_eq_left (Nat.div_mul_le_self _ _)]
    exact Nat.dvd_mul_left _ _

theorem aligned_append {timestampSample : Int} {converted : List Int} (hi : i.Aligned f.channels)
    (hd : f.channels ∣ converted.length) : (append f timestampSample now converted i).Aligned f.channels := by
  have hre : (reanchor f timestampSample i).Aligned f.channels := by
    unfold reanchor
    split
    · exact Nat.dvd_zero _
    · exact hi
  refine Input.popWhile_keeps (I := Input.Aligned f.channels) (fun _ => Input.aligned_pop) _ ?_
  unfold Input.Aligned at hre ⊢
  rw [List.length_append]
  exact Nat.dvd_add hre hd

theorem push_valid (h : Valid f m) : Valid f (push f now swr frame userId m).2 := by
  have hlookup : (lookup userId m.inputs).Aligned f.channels := aligned_lookup h.aligned
  unfold push
  split
  · exact h
  · split
    · rename_i i hconvert
      have hsame : i.samples = (lookup userId m.inputs).samples :=
        (congrArg (fun r => r.2.samples) hconvert).symm.trans convert_samples
      constructor
      · intro e he
        rcases mem_store he with heq | he
        · rw [heq, Input.Aligned, hsame]
          exact hlookup
        · exact h.aligned e he
      · intro hneg e he
        rcases mem_store he with heq | he
        · rw [heq, hsame]
          rcases lookup_cases userId m.inputs with hnew | ⟨e₀, he₀, heq₀⟩
          · rw [hnew]
          · rw [← heq₀]
            exact h.silent hneg e₀ he₀
        · exact h.silent hneg e he
    · rename_i converted i hconvert
      have hsame : i.samples = (lookup userId m.inputs).samples :=
        (congrArg (fun r => r.2.samples) hconvert).symm.trans convert_samples
      have hdvd : f.channels ∣ converted.length := dvd_convert (congrArg Prod.fst hconvert)
      have haligned : i.Aligned f.channels := by
        rw [Input.Aligned, hsame]
        exact hlookup
      constructor
      · intro e he
        rcases mem_store he with heq | he
        · rw [heq]
          exact aligned_append haligned hdvd
        · exact h.aligned e he
      · intro hneg
        simp only at hneg
        split at hneg
        · exact absurd hneg (by simp)
        · rename_i hnn
          exact absurd hneg hnn

theorem Evolves.valid (h : Evolves f m m') (hm : Valid f m) : Valid f m' := by
  induction h with
  | refl => exact hm
  | push _ _ ih => exact push_valid (ih hm)
  | drain _ _ hrun ih ihconsume => exact drain_valid ihconsume (ih hm) hrun

def monoFrame (timestamp : Nat) (data : List Int) : AudioFrame := ⟨true, data, 1000, 1, timestamp⟩

def silentSwr : Swr := { produced := none, sample := fun _ => 0 }

/-- 二人が続けて渡した状態。 -/
def twoPushed : AudioMixer :=
  (push ⟨1000, 1⟩ 0 silentSwr (monoFrame 1 [10]) "b" (push ⟨1000, 1⟩ 0 silentSwr (monoFrame 0 [1, 2, 3]) "a" {}).2).2

/-- 二人の標本は、同じ位置で足される。 -/
example : (drain ⟨1000, 1⟩ 3 accept 0 2 true twoPushed).map (fun r => r.2.1.map fun x => (x.start, x.mixed)) =
    some [(0, [1, 12]), (2, [3, 0])] := by
  decide

end RtcEgress.Media.AudioMixer
