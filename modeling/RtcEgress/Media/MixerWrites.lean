import RtcEgress.Lib.Rescale
import RtcEgress.Media.MixerInvariant

/-!
# 混合の書き込み

フレームの和を、番号と値の組を順に書いたものとみて、書き込みがフレームからはみ出さないことを示す。
-/

namespace RtcEgress.Media.AudioMixer

open Lib (System)

variable {f : Format} {m m' : AudioMixer} {s : Run} {i : Input} {now : Int}

/-! ## 混合の書き込み -/

/-- 列を混ぜるときに書く、`mixed` の番号と、そこに足す値。 -/
def Input.writes (channels : Nat) (next bound : Int) : (n : Nat) → Input → List (Int × Int)
  | 0, _ => []
  | n + 1, i =>
      if i.samples ≠ [] ∧ i.firstSample < bound then
        ((List.range channels).map fun (ch : Nat) => ((i.firstSample - next) * channels + ch, i.samples.getD ch 0)) ++
          writes channels next bound n (i.pop channels)
      else []

def write (mixed : List Int) (w : Int × Int) : List Int := mixed.modify w.1.toNat (· + w.2)

def writes (f : Format) (next bound : Int) (inputs : List (String × Input)) : List (Int × Int) :=
  inputs.flatMap fun e => e.2.writes f.channels next bound e.2.samples.length

/-- `drain` の一回の繰り返しで、順に行う書き込み。 -/
def roundWrites (f : Format) (now count : Int) (flush : Bool) (drainEnd : Int) (m : AudioMixer) : List (Int × Int) :=
  match round f now count flush drainEnd m with
  | .emit x _ => writes f x.start (x.start + count) (m.inputs.map fun e => (e.1, e.2.discard f.channels m.nextSample))
  | _ => []

variable {next bound : Int} {inputs : List (String × Input)} {count drainEnd : Int} {flush : Bool} {x : Mix}

/-- 一つの位置の標本の書き込みは、`addAt` にあたる。 -/
theorem foldl_write_range {offset : Int} (ho : 0 ≤ offset) (values mixed : List Int) :
    ((List.range values.length).map fun (ch : Nat) => (offset + ch, values.getD ch 0)).foldl write mixed =
      addAt mixed offset.toNat values := by
  induction values generalizing offset mixed with
  | nil => rfl
  | cons v values ih =>
      have hrest : ((List.range values.length).map Nat.succ).map (fun (ch : Nat) => (offset + ch, (v :: values).getD ch 0)) =
          (List.range values.length).map fun (ch : Nat) => (offset + 1 + ch, values.getD ch 0) := by
        rw [List.map_map]
        refine List.map_congr_left fun ch _ => ?_
        simp only [Function.comp_apply, Nat.succ_eq_add_one, List.getD_cons_succ, Prod.mk.injEq, and_true]
        omega
      rw [List.length_cons, List.range_succ_eq_map, List.map_cons, List.foldl_cons, hrest, ih (by omega), addAt]
      congr 1
      · simp [write]
      · omega

theorem mixInto_eq_writes {channels : Nat} (bound : Int) (n : Nat) (ha : i.Aligned channels)
    (hfrom : i.samples = [] ∨ next ≤ i.firstSample) (mixed : List Int) :
    (i.mixInto channels next bound n mixed).2 = (i.writes channels next bound n).foldl write mixed := by
  induction n generalizing i mixed with
  | zero => rfl
  | succ n ih =>
      rw [Input.mixInto, Input.writes]
      split
      · rename_i hmore
        have hnext : next ≤ i.firstSample := hfrom.resolve_left hmore.1
        have hlen : (i.samples.take channels).length = channels := by
          rw [List.length_take]
          exact Nat.min_eq_left (Nat.le_of_dvd (List.length_pos_of_ne_nil hmore.1) ha)
        have hvalues : ((List.range channels).map fun (ch : Nat) =>
            ((i.firstSample - next) * channels + ch, i.samples.getD ch 0)) =
            (List.range (i.samples.take channels).length).map fun (ch : Nat) =>
              ((i.firstSample - next) * channels + ch, (i.samples.take channels).getD ch 0) := by
          rw [hlen]
          refine List.map_congr_left fun ch hch => ?_
          rw [List.getD_eq_getElem?_getD, List.getD_eq_getElem?_getD, List.getElem?_take_of_lt (List.mem_range.mp hch)]
        have hoffset : ((i.firstSample - next).toNat * channels : Nat) = ((i.firstSample - next) * channels).toNat := by
          rw [Int.toNat_mul (by omega) (Int.natCast_nonneg _), Int.toNat_natCast]
        rw [List.foldl_append, hvalues, foldl_write_range (Int.mul_nonneg (by omega) (Int.natCast_nonneg _)), hoffset]
        refine ih (Input.aligned_pop ha) (.inr ?_) _
        simp only [Input.pop]
        omega
      · rfl

theorem mixAll_eq_writes (ha : ∀ e ∈ inputs, e.2.Aligned f.channels)
    (hfrom : ∀ e ∈ inputs, e.2.samples = [] ∨ next ≤ e.2.firstSample) (mixed : List Int) :
    (mixAll f next bound inputs mixed).2 = (writes f next bound inputs).foldl write mixed := by
  induction inputs generalizing mixed with
  | nil => rfl
  | cons e inputs ih =>
      have hmix := mixInto_eq_writes bound e.2.samples.length (ha e List.mem_cons_self) (hfrom e List.mem_cons_self) mixed
      rw [writes, List.flatMap_cons, List.foldl_append, ← hmix]
      exact ih (fun e he => ha e (List.mem_cons_of_mem _ he)) (fun e he => hfrom e (List.mem_cons_of_mem _ he)) _

/-- 書き込みは、`bound` より前の位置の標本である。 -/
theorem mem_writes {channels : Nat} (n : Nat) {w : Int × Int} (hw : w ∈ i.writes channels next bound n) :
    i.samples ≠ [] ∧ ∃ k ch : Nat, ch < channels ∧ i.firstSample + k < bound ∧
      w = ((i.firstSample + k - next) * channels + ch, i.samples.getD (k * channels + ch) 0) := by
  induction n generalizing i with
  | zero => exact absurd hw List.not_mem_nil
  | succ n ih =>
      rw [Input.writes] at hw
      split at hw
      · rename_i hmore
        refine ⟨hmore.1, ?_⟩
        cases List.mem_append.mp hw with
        | inl hw =>
            obtain ⟨ch, hch, rfl⟩ := List.mem_map.mp hw
            refine ⟨0, ch, List.mem_range.mp hch, by simpa using hmore.2, ?_⟩
            rw [Int.natCast_zero, Int.add_zero, Nat.zero_mul, Nat.zero_add]
        | inr hw =>
            obtain ⟨-, k, ch, hch, hlt, rfl⟩ := ih hw
            have hfirst : (i.pop channels).firstSample + k = i.firstSample + (k + 1 : Nat) := by
              simp only [Input.pop]
              omega
            have hindex : channels + (k * channels + ch) = (k + 1) * channels + ch := by
              rw [Nat.succ_mul]
              omega
            refine ⟨k + 1, ch, hch, hfirst ▸ hlt, ?_⟩
            rw [hfirst, Input.pop, List.getD_eq_getElem?_getD, List.getElem?_drop, hindex, List.getD_eq_getElem?_getD]
      · cases hw

theorem writes_within {channels : Nat} (n : Nat) (hfrom : i.samples = [] ∨ next ≤ i.firstSample) :
    ∀ w ∈ i.writes channels next bound n, 0 ≤ w.1 ∧ w.1 < (bound - next) * channels := by
  intro w hw
  obtain ⟨hne, k, ch, hch, hlt, rfl⟩ := mem_writes n hw
  have hnext : next ≤ i.firstSample := hfrom.resolve_left hne
  have hle : (i.firstSample + k - next + 1) * (channels : Int) ≤ (bound - next) * channels :=
    Int.mul_le_mul_of_nonneg_right (by omega) (by omega)
  have hpos : 0 ≤ (i.firstSample + k - next) * (channels : Int) := Int.mul_nonneg (by omega) (by omega)
  rw [Int.add_mul, Int.one_mul] at hle
  simp only
  omega

/-- フレームは、古い標本を捨てた列から作る。 -/
theorem round_emit (hc : 0 < f.channels) (hround : round f now count flush drainEnd m = .emit x m') :
    x.mixed = (mixAll f x.start (x.start + count) (m.inputs.map fun e => (e.1, e.2.discard f.channels m.nextSample))
      (List.replicate (count * f.channels).toNat 0)).2 ∧
    ∀ e ∈ m.inputs.map (fun e => (e.1, e.2.discard f.channels m.nextSample)), e.2.samples = [] ∨ x.start ≤ e.2.firstSample := by
  have hfrom : ∀ e ∈ m.inputs.map (fun e => (e.1, e.2.discard f.channels m.nextSample)),
      e.2.samples = [] ∨ m.nextSample ≤ e.2.firstSample := by
    intro e he
    obtain ⟨e₀, -, rfl⟩ := List.mem_map.mp he
    exact Input.discard_from hc
  have hstart := startOf_le (f := f) hfrom
  unfold round at hround
  simp only at hround
  generalize m.inputs.map (fun e => (e.1, e.2.discard f.channels m.nextSample)) = inputs at *
  split at hround
  · cases hround
  · split at hround
    · cases hround
    · split at hround
      · cases hround
      · split at hround
        · cases hround
        · cases hround
          exact ⟨rfl, hstart⟩

/-- フレームの和は、書き込みを順に行ったものである。 -/
theorem mixed_eq_writes (hc : 0 < f.channels) (ha : AllAligned f m) (hround : round f now count flush drainEnd m = .emit x m') :
    x.mixed = (roundWrites f now count flush drainEnd m).foldl write (List.replicate (count * f.channels).toNat 0) := by
  obtain ⟨hmixed, hfrom⟩ := round_emit hc hround
  have haligned : ∀ e ∈ m.inputs.map (fun e => (e.1, e.2.discard f.channels m.nextSample)), e.2.Aligned f.channels := by
    intro e he
    obtain ⟨e₀, he₀, rfl⟩ := List.mem_map.mp he
    exact Input.aligned_discard (ha e₀ he₀)
  rw [hmixed, roundWrites, hround]
  exact mixAll_eq_writes haligned hfrom _

theorem roundWrites_within (hc : 0 < f.channels) :
    ∀ w ∈ roundWrites f now count flush drainEnd m, 0 ≤ w.1 ∧ w.1 < count * f.channels := by
  intro w hw
  unfold roundWrites at hw
  split at hw
  · rename_i x m' hround
    obtain ⟨-, hfrom⟩ := round_emit hc hround
    obtain ⟨e, he, hw⟩ := List.mem_flatMap.mp hw
    have hwithin := writes_within _ (hfrom e he) w hw
    rwa [show x.start + count - x.start = count by omega] at hwithin
  · cases hw

/-! ## 主張 -/

/-- 時刻は `2 ^ 40` より小さい。 -/
def stamped (f : Format) : (mixing f).Condition
  | .push _ _ frame _, _ => frame.timestamp < 2 ^ 40
  | _, _ => True

/-- その範囲の時刻から求める位置は、64 ビットの `av_rescale_q` の値と同じである。 -/
theorem rescale_eq_of_stamped {timestamp : Nat} (hrate : f.rate < 2 ^ 31) (h : timestamp < 2 ^ 40) :
    Lib.rescale timestamp f.rate 1000 = rescale timestamp f.rate 1000 := by
  have hmul : timestamp * f.rate ≤ 2 ^ 40 * 2 ^ 31 := Nat.mul_le_mul h.le hrate.le
  have hbound : Lib.roundDiv timestamp f.rate 1000 < 2 ^ 63 := by
    rw [Lib.roundDiv]
    omega
  exact Lib.rescale_natCast hbound

structure Represented (f : Format) (s : Run) : Prop where
  multiple : ∀ user, f.channels ∣ (lookup user s.mixer.inputs).samples.length
  bounded : ∀ user, (lookup user s.mixer.inputs).samples.length ≤ f.rate / 2 * f.channels
  /-- 列の `k` 番目にあるのは、位置 `firstSample + k` を得た、ただ一つの待っている標本である。 -/
  placed : ∀ user k, k < (lookup user s.mixer.inputs).samples.length / f.channels →
    ∃ e ∈ s.samples, e.waiting ∧ e.userId = user ∧ e.position = (lookup user s.mixer.inputs).firstSample + k ∧
      e.values = ((lookup user s.mixer.inputs).samples.drop (k * f.channels)).take f.channels ∧
      ∀ e' ∈ s.samples, e'.waiting → e'.userId = user → e'.position = e.position → e' = e
  /-- 待っている標本は列にある。 -/
  kept : ∀ e ∈ s.samples, e.waiting → (lookup e.userId s.mixer.inputs).firstSample ≤ e.position ∧
    e.position < (lookup e.userId s.mixer.inputs).endSample f.channels
  writes : ∀ now count flush drainEnd, 0 < count →
    ∀ w ∈ roundWrites f now count flush drainEnd s.mixer, 0 ≤ w.1 ∧ w.1 < count * f.channels

def RepresentationInvariant : Prop :=
  ∀ f : Format, 2 ≤ f.rate → f.rate ≤ 192000 → 1 ≤ f.channels → ∀ s, (mixing f).Reach (stamped f) {} s →
    Represented f s ∧ ∀ s', (mixing f).Reach (stamped f) s s' → s.mixer.nextSample ≤ s'.mixer.nextSample

theorem Inv.represented (hc : 0 < f.channels) (h : Inv f s) : Represented f s := by
  have hplaced : ∀ user k, k < (lookup user s.mixer.inputs).samples.length / f.channels → ∀ ch, ch < f.channels →
      held f s.mixer user ((lookup user s.mixer.inputs).firstSample + k) ch =
        (((lookup user s.mixer.inputs).samples.drop (k * f.channels)).take f.channels)[ch]? := by
    intro user k hk ch hch
    have hindex : ((lookup user s.mixer.inputs).firstSample + k - (lookup user s.mixer.inputs).firstSample).toNat = k := by omega
    rw [held, Input.sampleAt, if_pos (by omega), hindex, List.getElem?_take_of_lt hch, List.getElem?_drop]
  constructor
  · exact fun user => (lookup_sound h.sound user).1
  · exact fun user => (lookup_sound h.sound user).2.1
  · intro user k hk
    have hle : (k + 1) * f.channels ≤ (lookup user s.mixer.inputs).samples.length :=
      (Nat.mul_le_mul_right _ hk).trans (Nat.div_mul_le_self _ _)
    rw [Nat.add_mul] at hle
    have hheld : held f s.mixer user ((lookup user s.mixer.inputs).firstSample + k) 0 ≠ none := by
      rw [hplaced user k hk 0 hc, List.getElem?_take_of_lt hc, List.getElem?_drop]
      simp only [ne_eq, List.getElem?_eq_none_iff]
      omega
    obtain ⟨e, he, hw, huser, hp⟩ := h.listed.complete user _ hheld
    refine ⟨e, he, hw, huser, hp, List.ext_getElem? fun ch => ?_, fun e' he' hw' huser' hp' => ?_⟩
    · by_cases hch : ch < f.channels
      · rw [← h.listed.exact e he hw ch hch, huser, hp]
        exact hplaced user k hk ch hch
      · rw [List.getElem?_eq_none (by rw [h.listed.length e he]; omega), List.getElem?_eq_none]
        rw [List.length_take]
        omega
    · by_contra hne
      have hapart : Apart e' e :=
        h.listed.once.forall (List.mem_filter.mpr ⟨he', hw'⟩) (List.mem_filter.mpr ⟨he, hw⟩) hne
      exact hapart (huser'.trans huser.symm) hp'
  · intro e he hw
    have hsome : (held f s.mixer e.userId e.position 0).isSome := by
      rw [h.listed.exact e he hw 0 hc]
      simp [h.listed.length e he, hc]
    refine ⟨?_, Input.lt_end_of_sampleAt hc (lookup_sound h.sound e.userId).1 hsome⟩
    unfold held Input.sampleAt at hsome
    split at hsome
    · assumption
    · cases hsome
  · exact fun _ _ _ _ _ => roundWrites_within hc

/-- 二人が続けて渡す列。 -/
def twoPushes : List Op := [.push 0 silentSwr (monoFrame 0 [1, 2, 3]) "a", .push 0 silentSwr (monoFrame 1 [10]) "b"]

end RtcEgress.Media.AudioMixer
