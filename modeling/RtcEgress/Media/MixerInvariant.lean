import RtcEgress.Media.MixerRuns

/-!
# 混合器の表現の不変条件

利用者の列にあるのは、待っている標本を、得た位置の順に並べたものである。列の長さの上限、`nextSample_` の単調さ、混合の
書き込みの範囲とともに、どの実行でも保たれることを示す。
-/

namespace RtcEgress.Media.AudioMixer

open Lib (System)

variable {f : Format} {m m' : AudioMixer} {s : Run} {e : Sample} {fate : Sample → Fate}

/-! ## 標本の行方 -/

theorem waiting_iff : e.waiting = true ↔ e.fate = .waiting := by
  unfold Sample.waiting
  cases e.fate <;> simp

@[simp] theorem settle_userId : (e.settle f m fate).userId = e.userId := by
  unfold Sample.settle
  split <;> rfl

@[simp] theorem settle_position : (e.settle f m fate).position = e.position := by
  unfold Sample.settle
  split <;> rfl

@[simp] theorem settle_values : (e.settle f m fate).values = e.values := by
  unfold Sample.settle
  split <;> rfl

@[simp] theorem settle_due : (e.settle f m fate).due = e.due := by
  unfold Sample.settle
  split <;> rfl

/-- 列に残っている標本だけが、待ち続ける。 -/
theorem settle_waiting (hfate : ∀ e, fate e ≠ .waiting) :
    (e.settle f m fate).waiting = true ↔ e.waiting = true ∧ held f m e.userId e.position 0 ≠ none := by
  unfold Sample.settle
  split
  · rename_i h
    rw [waiting_iff]
    exact iff_of_false (hfate e) fun h' => h'.2 h.2
  · rename_i h
    rw [not_and] at h
    exact ⟨fun hw => ⟨hw, h hw⟩, And.left⟩

/-! ## 不変条件 -/

/-- 二つの標本は、同じ利用者の同じ位置にはない。 -/
def Apart (e e' : Sample) : Prop := e.userId = e'.userId → e.position ≠ e'.position

instance : Std.Symm Apart := ⟨fun _ _ h huser hp => h huser.symm hp.symm⟩

/-- 待っている標本が、列の標本のすべてである。 -/
structure Listed (f : Format) (m : AudioMixer) (samples : List Sample) : Prop where
  length : ∀ e ∈ samples, e.values.length = f.channels
  exact : ∀ e ∈ samples, e.waiting → ∀ ch, ch < f.channels → held f m e.userId e.position ch = e.values[ch]?
  complete : ∀ user p, held f m user p 0 ≠ none → ∃ e ∈ samples, e.waiting ∧ e.userId = user ∧ e.position = p
  once : (samples.filter Sample.waiting).Pairwise Apart
  due : ∀ e ∈ samples, e.waiting → (e.due ↔ m.nextSample ≤ e.position)

structure Sound (f : Format) (m : AudioMixer) : Prop where
  keys : (m.inputs.map Prod.fst).Nodup
  valid : Valid f m
  bounded : ∀ e ∈ m.inputs, e.2.samples.length ≤ f.rate / 2 * f.channels
  anchored : ∀ e ∈ m.inputs, e.2.samples ≠ [] → 0 ≤ e.2.firstSample

structure Inv (f : Format) (s : Run) : Prop where
  sound : Sound f s.mixer
  listed : Listed f s.mixer s.samples
  counted : ∀ d ∈ s.consuming, 0 < d.count

/-! ## 先頭が除かれるとき -/

theorem Sound.of_pops (h : Sound f m) (hkeys : (m'.inputs.map Prod.fst).Nodup) (hnext : m.nextSample ≤ m'.nextSample)
    (hpops : Pops f m.inputs m'.inputs) : Sound f m' := by
  refine ⟨hkeys, h.valid.of_pops hnext hpops, fun e' he' => ?_, fun e' he' => ?_⟩
  · obtain ⟨e, he, hpop⟩ := hpops e' he'
    refine hpop (fun i => i.samples.length ≤ f.rate / 2 * f.channels) (fun i hi => ?_) (h.bounded e he)
    simp only [Input.pop, List.length_drop]
    omega
  · obtain ⟨e, he, hpop⟩ := hpops e' he'
    refine hpop (fun i => i.samples ≠ [] → 0 ≤ i.firstSample) (fun i hi hne => ?_) (h.anchored e he)
    have hold : i.samples ≠ [] := by
      intro hnil
      simp [Input.pop, hnil] at hne
    have := hi hold
    simp only [Input.pop]
    omega

theorem Sound.advance (h : Sound f m) (ha : Advances f m m') : Sound f m' :=
  h.of_pops (ha.keys ▸ h.keys) ha.next ha.pops

variable {now : Int}

theorem Sound.sweep (h : Sound f m) : Sound f (sweep now m) :=
  h.of_pops (h.keys.sublist (List.filter_sublist.map _)) le_rfl (.of_subset fun _ => mem_of_mem_sweep)

variable {samples : List Sample}

theorem pairwise_settle (hfate : ∀ e, fate e ≠ .waiting) (h : (samples.filter Sample.waiting).Pairwise Apart) :
    ((samples.map (Sample.settle f m fate)).filter Sample.waiting).Pairwise Apart := by
  rw [List.filter_map, List.pairwise_map]
  have hsub : List.Sublist (samples.filter (Sample.waiting ∘ Sample.settle f m fate)) (samples.filter Sample.waiting) := by
    refine List.monotone_filter_right _ fun e hw => ?_
    exact ((settle_waiting hfate).mp hw).1
  refine (h.sublist hsub).imp fun {e e'} hapart => ?_
  unfold Apart
  rwa [settle_userId, settle_userId, settle_position, settle_position]

/-- 待っている標本は、除かれた後も待っているならば、同じ値のままである。 -/
theorem Listed.advance (h : Listed f m samples) (ha : Advances f m m')
    (hfate : ∀ e, fate e ≠ .waiting) : Listed f m' (samples.map (Sample.settle f m' fate)) := by
  have hstays : ∀ e ∈ samples, (e.settle f m' fate).waiting = true → e.waiting = true ∧ m'.nextSample ≤ e.position := by
    intro e he hw
    obtain ⟨hwait, hheld⟩ := (settle_waiting hfate).mp hw
    refine ⟨hwait, ?_⟩
    by_contra hlt
    rw [ha.rest, if_neg hlt] at hheld
    exact hheld rfl
  constructor
  · intro e he
    obtain ⟨e₀, he₀, rfl⟩ := List.mem_map.mp he
    rw [settle_values]
    exact h.length e₀ he₀
  · intro e he hw ch hch
    obtain ⟨e₀, he₀, rfl⟩ := List.mem_map.mp he
    obtain ⟨hwait, hle⟩ := hstays e₀ he₀ hw
    rw [settle_userId, settle_position, settle_values, ha.rest, if_pos hle]
    exact h.exact e₀ he₀ hwait ch hch
  · intro user p hheld
    rw [ha.rest] at hheld
    split at hheld
    · rename_i hle
      obtain ⟨e, he, hwait, rfl, rfl⟩ := h.complete user p hheld
      refine ⟨_, List.mem_map_of_mem he, (settle_waiting hfate).mpr ⟨hwait, ?_⟩, settle_userId, settle_position⟩
      rwa [ha.rest, if_pos hle]
    · exact absurd rfl hheld
  · exact pairwise_settle hfate h.once
  · intro e he hw
    obtain ⟨e₀, he₀, rfl⟩ := List.mem_map.mp he
    obtain ⟨hwait, hle⟩ := hstays e₀ he₀ hw
    have hdue := h.due e₀ he₀ hwait
    have hnext := ha.next
    rw [settle_due, settle_position]
    exact ⟨fun _ => hle, fun _ => hdue.mpr (by omega)⟩

theorem Listed.congr (h : Listed f m samples) (hnext : m'.nextSample = m.nextSample)
    (hheld : ∀ user p ch, held f m' user p ch = held f m user p ch) : Listed f m' samples := by
  refine ⟨h.length, fun e he hw ch hch => ?_, fun user p hne => ?_, h.once, fun e he hw => ?_⟩
  · rw [hheld]
    exact h.exact e he hw ch hch
  · rw [hheld] at hne
    exact h.complete user p hne
  · rw [hnext]
    exact h.due e he hw

theorem Listed.sweep (hn : (m.inputs.map Prod.fst).Nodup) (h : Listed f m samples) : Listed f (sweep now m) samples :=
  h.congr rfl fun _ _ _ => held_sweep hn

/-! ## 標本が足されるとき -/

variable {swr : Swr} {frame : AudioFrame} {userId : String} {converted : List Int} {i j : Input} {p : Int} {ch : Nat}

theorem reanchor_same {t : Int} (h : j.Same i) : (reanchor f t j).Same (reanchor f t i) := by
  unfold reanchor
  rw [h.2, h.endSample]
  split
  · exact ⟨rfl, rfl⟩
  · exact h

/-- 合わせ直した列は空であり、合わせ直さなければ元のままである。 -/
theorem sampleAt_reanchor : (reanchor f (timestampSample f frame) i).sampleAt f.channels p ch =
    if Anew f frame i then none else i.sampleAt f.channels p ch := by
  unfold reanchor
  by_cases h : Anew f frame i
  · rw [if_pos h]
    unfold Anew at h
    rw [if_pos h]
    simp [Input.sampleAt]
  · rw [if_neg h]
    unfold Anew at h
    rw [if_neg h]

theorem firstSample_reanchor : 0 ≤ (reanchor f (timestampSample f frame) i).firstSample := by
  have hts : 0 ≤ timestampSample f frame := Int.natCast_nonneg _
  unfold reanchor
  split
  · exact hts
  · rename_i h
    rw [not_or] at h
    omega

/-- 新しい位置は、列の最後より前にはならない。 -/
theorem endSample_le_reanchor (hi : i.samples ≠ [] → 0 ≤ i.firstSample) (hne : i.samples ≠ []) :
    i.endSample f.channels ≤ (reanchor f (timestampSample f frame) i).endSample f.channels := by
  have hfirst := hi hne
  unfold reanchor
  split
  · rename_i h
    have hend : ({ i with samples := [], firstSample := timestampSample f frame } : Input).endSample f.channels =
        timestampSample f frame := by simp [Input.endSample]
    rw [hend]
    omega
  · exact le_rfl

/-- 受け取られた標本の位置。 -/
def pushedAt (f : Format) (frame : AudioFrame) (userId : String) (m : AudioMixer) : Int :=
  (reanchor f (timestampSample f frame) (lookup userId m.inputs)).endSample f.channels

/-- 利用者 `userId` の列に `converted` を足し、`first` より前を除いた。 -/
structure Appends (f : Format) (frame : AudioFrame) (userId : String) (converted : List Int) (first : Int)
    (m m' : AudioMixer) : Prop where
  others : ∀ user p ch, user ≠ userId → held f m' user p ch = held f m user p ch
  mine : ∀ p ch, ch < f.channels → held f m' userId p ch =
    if first ≤ p then
      if p < pushedAt f frame userId m then if Anew f frame (lookup userId m.inputs) then none else held f m userId p ch
      else converted[(p - pushedAt f frame userId m).toNat * f.channels + ch]?
    else none
  ended : ∀ p ch, ch < f.channels → held f m userId p ch ≠ none → p < pushedAt f frame userId m
  next : m.nextSample ≤ m'.nextSample
  same : 0 ≤ m.nextSample → m'.nextSample = m.nextSample

theorem lookup_sound (h : Sound f m) (userId : String) : (lookup userId m.inputs).Aligned f.channels ∧
    (lookup userId m.inputs).samples.length ≤ f.rate / 2 * f.channels ∧
    ((lookup userId m.inputs).samples ≠ [] → 0 ≤ (lookup userId m.inputs).firstSample) := by
  cases lookup_cases userId m.inputs with
  | inl hnew =>
      rw [hnew]
      exact ⟨Nat.dvd_zero _, Nat.zero_le _, fun hne => absurd rfl hne⟩
  | inr hold =>
      obtain ⟨e, he, heq⟩ := hold
      rw [← heq]
      exact ⟨h.valid.aligned e he, h.bounded e he, h.anchored e he⟩

/-- 標本のある列の、置かれた後の位置は負でない。 -/
theorem Sound.next_nonneg (h : Sound f m) {user : String} (hheld : held f m user p ch ≠ none) : 0 ≤ m.nextSample := by
  by_contra hneg
  refine hheld ?_
  unfold held
  cases lookup_cases user m.inputs with
  | inl hnew =>
      rw [hnew]
      exact Input.sampleAt_nil rfl
  | inr hold =>
      obtain ⟨e, he, heq⟩ := hold
      rw [← heq]
      exact Input.sampleAt_nil (h.valid.silent (by omega) e he)

theorem appends_push (hc : 0 < f.channels) (h : Sound f m) (hj : j.Same (lookup userId m.inputs)) (start : Int) :
    Appends f frame userId converted (append f (timestampSample f frame) now converted j).firstSample m
      ⟨store userId (append f (timestampSample f frame) now converted j) m.inputs,
        if m.nextSample < 0 then timestampSample f frame else m.nextSample, start⟩ := by
  obtain ⟨haligned, -, hanchored⟩ := lookup_sound h userId
  have hts : 0 ≤ timestampSample f frame := Int.natCast_nonneg _
  have hjaligned : j.Aligned f.channels := by
    unfold Input.Aligned
    rw [hj.1]
    exact haligned
  have hre : (reanchor f (timestampSample f frame) j).Same
      (reanchor f (timestampSample f frame) (lookup userId m.inputs)) := reanchor_same hj
  refine ⟨fun user p ch hne => ?_, fun p ch hch => ?_, fun p ch hch hheld => ?_, ?_, fun hnn => ?_⟩
  · unfold held
    rw [lookup_store, if_neg hne]
  · have happ := sampleAt_appended now converted p hjaligned hch (rfl : reanchor f (timestampSample f frame) j = _)
    rw [hre.endSample, hre.sampleAt, sampleAt_reanchor] at happ
    unfold held
    rw [lookup_store, if_pos rfl, happ]
    rfl
  · have hne : (lookup userId m.inputs).samples ≠ [] := fun hnil => hheld (Input.sampleAt_nil hnil)
    have hlt := Input.lt_end_of_sampleAt hc haligned (Option.isSome_iff_ne_none.mpr hheld)
    have hle : _ ≤ pushedAt f frame userId m := endSample_le_reanchor hanchored hne
    omega
  · simp only
    split <;> omega
  · simp only
    rw [if_neg (by omega)]

/-- 足される `k` 番目の標本。 -/
def pushedSample (f : Format) (frame : AudioFrame) (userId : String) (converted : List Int) (m m' : AudioMixer) (k : Nat) :
    Sample where
  userId
  position := pushedAt f frame userId m + k
  values := (converted.drop (k * f.channels)).take f.channels
  due := m'.nextSample ≤ pushedAt f frame userId m + k

def pushedSamples (f : Format) (frame : AudioFrame) (userId : String) (converted : List Int) (m m' : AudioMixer) : List Sample :=
  (List.range (converted.length / f.channels)).map (pushedSample f frame userId converted m m')

theorem given_eq (hj : j.Same (lookup userId m.inputs))
    (hconvert : convert f swr frame (lookup userId m.inputs) = (some converted, j)) :
    given f swr frame userId m m' = pushedSamples f frame userId converted m m' := by
  have hend : (reanchor f (timestampSample f frame) j).endSample f.channels = pushedAt f frame userId m :=
    (reanchor_same hj).endSample
  unfold given
  rw [hconvert]
  simp only [hend]
  rfl

theorem length_pushedSample {k : Nat} (hk : k < converted.length / f.channels) :
    (pushedSample f frame userId converted m m' k).values.length = f.channels := by
  have hle : (k + 1) * f.channels ≤ converted.length := (Nat.mul_le_mul_right _ hk).trans (Nat.div_mul_le_self _ _)
  rw [Nat.add_mul] at hle
  rw [pushedSample, List.length_take, List.length_drop]
  omega

theorem apart_pushedSamples : (pushedSamples f frame userId converted m m').Pairwise Apart := by
  refine List.pairwise_map.mpr (List.pairwise_lt_range.imp fun {k k'} hlt _ => ?_)
  simp only [pushedSample]
  omega

theorem forall_mem_settled {P : Sample → Prop} {fate' : Sample → Fate} {samples : List Sample}
    (hold : ∀ e ∈ samples, P (e.settle f m' fate))
    (hnew : ∀ k < converted.length / f.channels, P ((pushedSample f frame userId converted m m' k).settle f m' fate')) :
    ∀ e ∈ samples.map (Sample.settle f m' fate) ++ (pushedSamples f frame userId converted m m').map (Sample.settle f m' fate'),
      P e := by
  intro e he
  cases List.mem_append.mp he with
  | inl he =>
      obtain ⟨e₀, he₀, rfl⟩ := List.mem_map.mp he
      exact hold e₀ he₀
  | inr he =>
      obtain ⟨e₀, he₀, rfl⟩ := List.mem_map.mp he
      obtain ⟨k, hk, rfl⟩ := List.mem_map.mp he₀
      exact hnew k (List.mem_range.mp hk)

variable {first : Int}

namespace Appends

/-- 待っている標本が残るのは、合わせ直さないときだけである。 -/
theorem kept (h : Appends f frame userId converted first m m') (hc : 0 < f.channels) {user : String}
    (hold : held f m user p 0 ≠ none) (hnew : held f m' user p 0 ≠ none) :
    ∀ ch, ch < f.channels → held f m' user p ch = held f m user p ch := by
  intro ch hch
  by_cases hne : user = userId
  · subst hne
    have hlt := h.ended p 0 hc hold
    rw [h.mine p 0 hc, if_pos hlt] at hnew
    rw [h.mine p ch hch, if_pos hlt]
    split at hnew
    · rename_i hfirst
      rw [if_pos hfirst]
      split at hnew
      · exact absurd rfl hnew
      · rename_i hanew
        rw [if_neg hanew]
    · exact absurd rfl hnew
  · exact h.others user p ch hne

/-- 足された標本の値。 -/
theorem fresh (h : Appends f frame userId converted first m m') {k : Nat}
    (hnew : held f m' userId (pushedAt f frame userId m + k) 0 ≠ none) (hch : ch < f.channels) :
    held f m' userId (pushedAt f frame userId m + k) ch = ((converted.drop (k * f.channels)).take f.channels)[ch]? := by
  have hc : 0 < f.channels := by omega
  rw [h.mine _ 0 hc] at hnew
  rw [h.mine _ ch hch]
  split at hnew
  · rename_i hfirst
    have hindex : (pushedAt f frame userId m + k - pushedAt f frame userId m).toNat = k := by omega
    rw [if_pos hfirst, if_neg (by omega), hindex, List.getElem?_take_of_lt hch, List.getElem?_drop]
  · exact absurd rfl hnew

/-- 新しい位置より前の標本は増えない。 -/
theorem older (h : Appends f frame userId converted first m m') (hc : 0 < f.channels) (hlt : p < pushedAt f frame userId m)
    (hold : held f m userId p 0 = none) : held f m' userId p 0 = none := by
  rw [h.mine p 0 hc, if_pos hlt, hold]
  simp

/-- 新しい位置の標本は、いま足されたものである。 -/
theorem exists_index (h : Appends f frame userId converted first m m') (hc : 0 < f.channels)
    (hd : f.channels ∣ converted.length) (hle : pushedAt f frame userId m ≤ p) (hnew : held f m' userId p 0 ≠ none) :
    ∃ k < converted.length / f.channels, p = pushedAt f frame userId m + k := by
  refine ⟨(p - pushedAt f frame userId m).toNat, ?_, by omega⟩
  rw [h.mine p 0 hc] at hnew
  split at hnew
  · rw [if_neg (by omega)] at hnew
    obtain ⟨v, hv⟩ := Option.ne_none_iff_exists'.mp hnew
    obtain ⟨hlt, -⟩ := List.getElem?_eq_some_iff.mp hv
    obtain ⟨n, hn⟩ := hd
    rw [hn, Nat.mul_div_cancel_left n hc]
    refine Nat.lt_of_mul_lt_mul_left (a := f.channels) ?_
    rw [Nat.mul_comm]
    omega
  · exact absurd rfl hnew

end Appends

theorem Listed.held_of_waiting (hc : 0 < f.channels) (h : Listed f m samples) (he : e ∈ samples) (hw : e.waiting) :
    held f m e.userId e.position 0 ≠ none := by
  rw [h.exact e he hw 0 hc]
  simp [h.length e he, hc]

/-- 足した後の列の標本は、前からあるか、いま足されたものである。 -/
theorem Appends.complete {fate' : Sample → Fate} (ha : Appends f frame userId converted first m m') (hc : 0 < f.channels)
    (hd : f.channels ∣ converted.length) (h : Listed f m samples) (hfate : ∀ e, fate e ≠ .waiting)
    (hfate' : ∀ e, fate' e ≠ .waiting) (user : String) (p : Int) (hnew : held f m' user p 0 ≠ none) :
    ∃ e ∈ samples.map (Sample.settle f m' fate) ++ (pushedSamples f frame userId converted m m').map (Sample.settle f m' fate'),
      e.waiting ∧ e.userId = user ∧ e.position = p := by
  by_cases hold : held f m user p 0 ≠ none
  · obtain ⟨e, he, hwait, rfl, rfl⟩ := h.complete user p hold
    exact ⟨_, List.mem_append_left _ (List.mem_map_of_mem he), (settle_waiting hfate).mpr ⟨hwait, hnew⟩, settle_userId,
      settle_position⟩
  · rw [not_not] at hold
    have huser : user = userId := by
      by_contra hne
      rw [ha.others user p 0 hne] at hnew
      exact hnew hold
    subst huser
    have hle : pushedAt f frame user m ≤ p := by
      by_contra hlt
      exact hnew (ha.older hc (by omega) hold)
    obtain ⟨k, hk, rfl⟩ := ha.exists_index hc hd hle hnew
    have hmem : pushedSample f frame user converted m m' k ∈ pushedSamples f frame user converted m m' :=
      List.mem_map_of_mem (List.mem_range.mpr hk)
    exact ⟨_, List.mem_append_right _ (List.mem_map_of_mem hmem), (settle_waiting hfate').mpr ⟨rfl, hnew⟩, settle_userId,
      settle_position⟩

/-- 前からある標本は、いま足される標本より前にある。 -/
theorem Appends.apart (ha : Appends f frame userId converted first m m') (hc : 0 < f.channels)
    (hheld : held f m e.userId e.position 0 ≠ none) (k : Nat) : Apart e (pushedSample f frame userId converted m m' k) := by
  intro huser
  rw [huser] at hheld
  have := ha.ended e.position 0 hc hheld
  simp only [pushedSample]
  omega

/-- 足した後も、待っている標本が列の標本のすべてである。 -/
theorem Listed.append {fate' : Sample → Fate} (hc : 0 < f.channels) (hd : f.channels ∣ converted.length)
    (hs : Sound f m) (h : Listed f m samples) (ha : Appends f frame userId converted first m m')
    (hfate : ∀ e, fate e ≠ .waiting) (hfate' : ∀ e, fate' e ≠ .waiting) :
    Listed f m' (samples.map (Sample.settle f m' fate) ++
      (pushedSamples f frame userId converted m m').map (Sample.settle f m' fate')) := by
  constructor
  · refine forall_mem_settled (fun e he => ?_) fun k hk => ?_
    · rw [settle_values]
      exact h.length e he
    · rw [settle_values]
      exact length_pushedSample hk
  · refine forall_mem_settled (fun e he hw ch hch => ?_) fun k hk hw ch hch => ?_
    · obtain ⟨hwait, hstay⟩ := (settle_waiting hfate).mp hw
      rw [settle_userId, settle_position, settle_values, ha.kept hc (h.held_of_waiting hc he hwait) hstay ch hch]
      exact h.exact e he hwait ch hch
    · obtain ⟨-, hstay⟩ := (settle_waiting hfate').mp hw
      rw [settle_userId, settle_position, settle_values]
      exact ha.fresh hstay hch
  · exact ha.complete hc hd h hfate hfate'
  · rw [List.filter_append, List.pairwise_append]
    refine ⟨pairwise_settle hfate h.once, pairwise_settle hfate' (apart_pushedSamples.filter _), fun e he e' he' => ?_⟩
    obtain ⟨he, hw⟩ := List.mem_filter.mp he
    obtain ⟨he', -⟩ := List.mem_filter.mp he'
    obtain ⟨e₀, he₀, rfl⟩ := List.mem_map.mp he
    obtain ⟨e₁, he₁, rfl⟩ := List.mem_map.mp he'
    obtain ⟨k, -, rfl⟩ := List.mem_map.mp he₁
    have hapart := ha.apart hc (h.held_of_waiting hc he₀ ((settle_waiting hfate).mp hw).1) k
    unfold Apart at hapart ⊢
    rwa [settle_userId, settle_userId, settle_position, settle_position]
  · refine forall_mem_settled (fun e he hw => ?_) fun k hk hw => ?_
    · obtain ⟨hwait, -⟩ := (settle_waiting hfate).mp hw
      rw [settle_due, settle_position, ha.same (hs.next_nonneg (h.held_of_waiting hc he hwait))]
      exact h.due e he hwait
    · rw [settle_due, settle_position]
      exact decide_eq_true_iff

/-! ## 各操作 -/

/-- 列を置くときは、その列が条件を満たせばよい。 -/
theorem Sound.store (h : Sound f m) (hvalid : Valid f m') (hinputs : m'.inputs = store userId i m.inputs)
    (hbound : i.samples.length ≤ f.rate / 2 * f.channels) (hfirst : i.samples ≠ [] → 0 ≤ i.firstSample) : Sound f m' := by
  refine ⟨hinputs ▸ nodup_store h.keys, hvalid, fun e he => ?_, fun e he => ?_⟩
  · rw [hinputs] at he
    cases mem_store he with
    | inl heq => rwa [heq]
    | inr he => exact h.bounded e he
  · rw [hinputs] at he
    cases mem_store he with
    | inl heq => rwa [heq]
    | inr he => exact h.anchored e he

theorem Sound.push (hc : 0 < f.channels) (h : Sound f m) (now : Int) (swr : Swr) (frame : AudioFrame) (userId : String) :
    Sound f (push f now swr frame userId m).2 := by
  have hvalid : Valid f (AudioMixer.push f now swr frame userId m).2 := push_valid h.valid
  obtain ⟨-, hbound, hfirst⟩ := lookup_sound h userId
  cases push_cases f now swr frame userId m with
  | inl hrejected =>
      obtain ⟨m', hpush, hnext, hstart, hinputs⟩ := hrejected
      rw [hpush] at hvalid ⊢
      cases hinputs with
      | inl hsame => exact ⟨hsame ▸ h.keys, hvalid, hsame ▸ h.bounded, hsame ▸ h.anchored⟩
      | inr hstored =>
          obtain ⟨j, hj, hinputs⟩ := hstored
          exact h.store hvalid hinputs (hj.1 ▸ hbound) (hj.1 ▸ hj.2 ▸ hfirst)
  | inr haccepted =>
      obtain ⟨converted, j, m', hpush, -, -, -, rfl⟩ := haccepted
      rw [hpush] at hvalid ⊢
      refine h.store hvalid rfl (Input.length_trim_le hc _) fun _ => ?_
      exact firstSample_reanchor.trans (Input.firstSample_popWhile _ _)

theorem Inv.push (hc : 0 < f.channels) (h : Inv f s) (now : Int) (swr : Swr) (frame : AudioFrame) (userId : String) :
    Inv f (s.push f now swr frame userId) := by
  have hsound := h.sound.push hc now swr frame userId
  unfold Run.push
  cases push_cases f now swr frame userId s.mixer with
  | inl hrejected =>
      obtain ⟨m', hpush, hnext, -, hinputs⟩ := hrejected
      rw [hpush] at hsound ⊢
      refine ⟨hsound, ?_, h.counted⟩
      have hheld : ∀ user p ch, held f m' user p ch = held f s.mixer user p ch := by
        intro user p ch
        unfold held
        cases hinputs with
        | inl hsame => rw [hsame]
        | inr hstored =>
            obtain ⟨j, hj, hinputs⟩ := hstored
            rw [hinputs, lookup_store]
            split
            · rename_i huser
              rw [hj.sampleAt, huser]
            · rfl
      exact h.listed.congr hnext hheld
  | inr haccepted =>
      obtain ⟨converted, j, m', hpush, hconvert, hj, hd, rfl⟩ := haccepted
      rw [hpush] at hsound ⊢
      refine ⟨hsound, ?_, h.counted⟩
      simp only [if_true]
      rw [given_eq hj hconvert]
      refine h.listed.append hc hd h.sound (appends_push hc h.sound hj _) (fun _ => ?_) fun _ => nofun
      split <;> exact nofun

theorem Inv.advance (hc : 0 < f.channels) (h : Inv f s) {d : Draining} (hd : 0 < d.count) : Inv f (s.advance f d) := by
  have hstep := advanced hc hd s
  generalize s.advance f d = s' at hstep ⊢
  cases hstep with
  | ended => exact ⟨h.sound.sweep, h.listed.sweep h.sound.keys, nofun⟩
  | @done m' ha _ =>
      have hsound := h.sound.advance ha
      have hlisted : Listed f m' (s.samples.map (Sample.settle f m' fun _ => .late)) := h.listed.advance ha fun _ => nofun
      exact ⟨hsound.sweep, hlisted.sweep hsound.keys, nofun⟩
  | left ha => exact ⟨h.sound.advance ha, h.listed.advance ha fun _ => nofun, nofun⟩
  | emitted ha =>
      refine ⟨h.sound.advance ha, h.listed.advance ha fun _ => ?_, ?_⟩
      · split <;> exact nofun
      · intro d' hd'
        cases hd'
        exact hd

theorem Inv.step (hc : 0 < f.channels) (op : Op) (h : Inv f s) : Inv f ((mixing f).step op s) := by
  have hadvance : ∀ d : Draining, 0 < d.count → Inv f (s.advance f d) := fun _ hd => h.advance hc hd
  cases op with
  | push now swr frame userId => exact h.push hc now swr frame userId
  | drain now count flush => exact drain_keeps h hadvance
  | consumed ok => exact consumed_keeps h h.counted hadvance ⟨h.sound, h.listed, nofun⟩

theorem inv_empty : Inv f {} := by
  refine ⟨⟨List.nodup_nil, ⟨fun _ he => ?_, fun _ _ he => ?_⟩, fun _ he => ?_, fun _ he => ?_⟩,
    ⟨fun _ he => ?_, fun _ he => ?_, fun user p hheld => ?_, .nil, fun _ he => ?_⟩, nofun⟩
  · cases he
  · cases he
  · cases he
  · cases he
  · cases he
  · cases he
  · exact absurd (Input.sampleAt_nil rfl) hheld
  · cases he

theorem next_advance (hc : 0 < f.channels) {d : Draining} (hd : 0 < d.count) :
    s.mixer.nextSample ≤ (s.advance f d).mixer.nextSample := by
  have hstep := advanced hc hd s
  generalize s.advance f d = s' at hstep ⊢
  cases hstep with
  | ended => exact le_rfl
  | done ha => exact ha.next
  | left ha => exact ha.next
  | emitted ha => exact ha.next

theorem next_push (now : Int) (swr : Swr) (frame : AudioFrame) (userId : String) (s : Run) :
    s.mixer.nextSample ≤ (s.push f now swr frame userId).mixer.nextSample := by
  have hts : 0 ≤ timestampSample f frame := Int.natCast_nonneg _
  unfold Run.push
  cases push_cases f now swr frame userId s.mixer with
  | inl hrejected =>
      obtain ⟨m', hpush, hnext, -⟩ := hrejected
      rw [hpush]
      exact hnext.ge
  | inr haccepted =>
      obtain ⟨converted, j, m', hpush, -, -, -, rfl⟩ := haccepted
      rw [hpush]
      simp only [if_true]
      split <;> omega

/-- `nextSample_` は減らない。 -/
theorem next_step (hc : 0 < f.channels) (op : Op) (h : Inv f s) :
    s.mixer.nextSample ≤ ((mixing f).step op s).mixer.nextSample := by
  have hadvance : ∀ d : Draining, 0 < d.count → s.mixer.nextSample ≤ (s.advance f d).mixer.nextSample :=
    fun _ hd => next_advance hc hd
  cases op with
  | push now swr frame userId => exact next_push now swr frame userId s
  | drain now count flush => exact drain_keeps (P := fun s' => s.mixer.nextSample ≤ s'.mixer.nextSample) le_rfl hadvance
  | consumed ok =>
      exact consumed_keeps (P := fun s' => s.mixer.nextSample ≤ s'.mixer.nextSample) le_rfl h.counted hadvance le_rfl

end RtcEgress.Media.AudioMixer
