import RtcEgress.Lib.System
import RtcEgress.Media.AudioDrain

/-!
# 音声の混合器の実行

`push` と `drain` を重ねた実行を、操作の列とみる。`drain` が `consume` を呼ぶ間はロックが放されるので、フレームを一つ作る
ところで操作を区切り、その間に `push` が入るのを許す。受け取られた標本の一つ一つに、得た位置と、その後の行方を記録する。
-/

namespace RtcEgress.Media.AudioMixer

open Lib (System)

/-! ## 受け取られた標本 -/

inductive Fate where
  /-- 列に置かれている。 -/
  | waiting
  | mixed (x : Mix)
  /-- 半秒の上限で除かれた。 -/
  | evicted
  /-- 位置を合わせ直すときに捨てられた。 -/
  | cleared
  /-- 混合の済んだ位置にあって捨てられた。 -/
  | late

/-- 受け取られた、一つの位置の標本。`due` は、位置が受け取りのときの `nextSample_` 以降であることを表す。 -/
structure Sample where
  userId : String
  position : Int
  values : List Int
  due : Bool
  fate : Fate := .waiting

def Sample.waiting (e : Sample) : Bool :=
  match e.fate with
  | .waiting => true
  | _ => false

variable (f : Format)

/-- 利用者 `userId` の、位置 `p` のチャンネル `ch` の標本。 -/
def held (m : AudioMixer) (userId : String) (p : Int) (ch : Nat) : Option Int :=
  (lookup userId m.inputs).sampleAt f.channels p ch

/-- 列から消えた標本の行方を定める。 -/
def Sample.settle (m : AudioMixer) (fate : Sample → Fate) (e : Sample) : Sample :=
  if e.waiting ∧ held f m e.userId e.position 0 = none then { e with fate := fate e } else e

def timestampSample (frame : AudioFrame) : Int := rescale frame.timestamp f.rate 1000

/-- 位置を時刻に合わせ直す。 -/
def Anew (frame : AudioFrame) (i : Input) : Prop :=
  i.firstSample < 0 ∨ i.endSample f.channels + (f.rate / 10 : Nat) < timestampSample f frame

instance (frame : AudioFrame) (i : Input) : Decidable (Anew f frame i) := inferInstanceAs (Decidable (_ ∨ _))

/-- 変換した標本に、列の最後に続く位置を与える。 -/
def given (swr : Swr) (frame : AudioFrame) (userId : String) (m m' : AudioMixer) : List Sample :=
  match convert f swr frame (lookup userId m.inputs) with
  | (none, _) => []
  | (some converted, i) =>
      let position := (reanchor f (timestampSample f frame) i).endSample f.channels
      (List.range (converted.length / f.channels)).map fun (k : Nat) =>
        { userId, position := position + k, values := (converted.drop (k * f.channels)).take f.channels,
          due := m'.nextSample ≤ position + k }

/-! ## 操作 -/

/-- フレームを作っている `drain` の引数と、始めに求めた `drainEnd`。 -/
structure Draining where
  now : Int
  count : Int
  flush : Bool
  drainEnd : Int

structure Run where
  mixer : AudioMixer := {}
  /-- `consume` の返るのを待つ `drain`。 -/
  consuming : Option Draining := none
  samples : List Sample := []
  emitted : List Mix := []

namespace Run

def push (now : Int) (swr : Swr) (frame : AudioFrame) (userId : String) (s : Run) : Run :=
  let r := AudioMixer.push f now swr frame userId s.mixer
  if r.1 then
    { s with
      mixer := r.2
      samples :=
        s.samples.map (Sample.settle f r.2 fun _ =>
          if Anew f frame (lookup userId s.mixer.inputs) then .cleared else .evicted) ++
        (given f swr frame userId s.mixer r.2).map (Sample.settle f r.2 fun _ => .evicted) }
  else { s with mixer := r.2 }

/-- `drain` の繰り返しの条件を見て、一回を行う。 -/
def advance (d : Draining) (s : Run) : Run :=
  if d.drainEnd ≤ s.mixer.nextSample then { s with mixer := sweep d.now s.mixer, consuming := none }
  else match round f d.now d.count d.flush d.drainEnd s.mixer with
    | .done m =>
        { s with mixer := sweep d.now m, consuming := none, samples := s.samples.map (Sample.settle f m fun _ => .late) }
    | .leave m => { s with mixer := m, consuming := none, samples := s.samples.map (Sample.settle f m fun _ => .late) }
    | .emit x m =>
        { mixer := m
          consuming := some d
          samples := s.samples.map (Sample.settle f m fun e => if x.covers d.count e.position then .mixed x else .late)
          emitted := s.emitted ++ [x] }

def drain (now count : Int) (flush : Bool) (s : Run) : Run :=
  if s.consuming.isSome then s
  else if s.mixer.nextSample < 0 ∨ s.mixer.inputs = [] then s
  else if !flush ∧ now - s.mixer.start < nanos WAIT_MS then s
  else if count ≤ 0 then s
  else s.advance f ⟨now, count, flush, latest f s.mixer.nextSample s.mixer.inputs⟩

/-- `consume` が返った。 -/
def consumed (ok : Bool) (s : Run) : Run :=
  match s.consuming with
  | none => s
  | some d => if ok then s.advance f d else { s with consuming := none }

end Run

inductive Op where
  | push (now : Int) (swr : Swr) (frame : AudioFrame) (userId : String)
  | drain (now count : Int) (flush : Bool)
  | consumed (ok : Bool)

abbrev mixing : System Op where
  State := Run
  step
    | .push now swr frame userId => Run.push f now swr frame userId
    | .drain now count flush => Run.drain f now count flush
    | .consumed ok => Run.consumed f ok

/-! ## 列の先頭を除くこと -/

namespace Input

variable {channels : Nat} {i : Input} {p : Int} {ch : Nat}

/-- 先頭を除いた列は、残った位置では元の列と同じである。 -/
theorem sampleAt_popWhile (more : Input → Bool) (n : Nat) : (i.popWhile channels more n).sampleAt channels p ch =
    if (i.popWhile channels more n).firstSample ≤ p then i.sampleAt channels p ch else none := by
  have hkeeps : ∀ p ch, (i.popWhile channels more n).sampleAt channels p ch =
      if (i.popWhile channels more n).firstSample ≤ p then i.sampleAt channels p ch else none := by
    refine popWhile_keeps (I := fun j => ∀ p ch, j.sampleAt channels p ch =
      if j.firstSample ≤ p then i.sampleAt channels p ch else none) (fun j hj p ch => ?_) n fun p ch => ?_
    · have hfirst : (j.pop channels).firstSample = j.firstSample + 1 := rfl
      rw [sampleAt_pop, hfirst]
      split
      · rw [hj, if_pos (by omega)]
      · rfl
    · split
      · rfl
      · rw [sampleAt, if_neg (by assumption)]
  exact hkeeps p ch

theorem firstSample_popWhile (more : Input → Bool) (n : Nat) : i.firstSample ≤ (i.popWhile channels more n).firstSample :=
  popWhile_keeps (I := fun j => i.firstSample ≤ j.firstSample) (fun _ h => by simp only [pop]; omega) n le_rfl

/-- 標本の数だけ繰り返せば、標本がなくなるか、条件が成り立たなくなる。 -/
theorem popWhile_stops (hc : 0 < channels) (more : Input → Bool) (n : Nat) (hn : i.samples.length ≤ n) :
    (i.popWhile channels more n).samples = [] ∨ more (i.popWhile channels more n) = false := by
  induction n generalizing i with
  | zero => exact .inl (List.length_eq_zero_iff.mp (Nat.le_zero.mp hn))
  | succ n ih =>
      rw [popWhile]
      split
      · by_cases hnil : i.samples = []
        · have hpop : (i.pop channels).samples.length ≤ n := by simp [pop, hnil]
          exact ih hpop
        · have := length_pop_lt hc hnil
          exact ih (by omega)
      · rename_i hmore
        exact .inr (Bool.eq_false_iff.mpr hmore)

theorem length_trim_le (hc : 0 < channels) (limit : Nat) : (i.trim channels limit).samples.length ≤ limit := by
  unfold trim
  cases @popWhile_stops channels i hc (fun j => limit < j.samples.length) i.samples.length le_rfl with
  | inl hnil =>
      rw [hnil]
      exact Nat.zero_le _
  | inr hmore => simpa using hmore

/-- 後ろに足した標本は、最後の位置に続く。 -/
theorem sampleAt_append (ha : i.Aligned channels) (hch : ch < channels) (more : List Int) :
    ({ i with samples := i.samples ++ more } : Input).sampleAt channels p ch =
      if p < i.endSample channels then i.sampleAt channels p ch
      else more[(p - i.endSample channels).toNat * channels + ch]? := by
  obtain ⟨k, hk⟩ := ha
  have hpos : 0 < channels := by omega
  have hend : i.endSample channels = i.firstSample + k := by
    rw [endSample, hk, Nat.mul_div_cancel_left k hpos]
  unfold sampleAt
  simp only
  rw [hend]
  by_cases hp : i.firstSample ≤ p
  · rw [if_pos hp, if_pos hp]
    split
    · have hlt : (p - i.firstSample).toNat * channels + ch < k * channels := index_lt hch (by omega)
      exact List.getElem?_append_left (by rw [hk, Nat.mul_comm channels]; exact hlt)
    · have hindex : (p - i.firstSample).toNat = k + (p - (i.firstSample + k)).toNat := by omega
      rw [hindex, Nat.add_mul, List.getElem?_append_right (by rw [hk, Nat.mul_comm channels]; omega), hk]
      congr 1
      rw [Nat.mul_comm channels]
      omega
  · rw [if_neg hp, if_neg hp]
    split
    · rfl
    · omega

end Input

/-! ## 利用者ごとの列 -/

variable {f : Format} {m m' : AudioMixer} {inputs inputs' : List (String × Input)} {next bound : Int} {i : Input}
  {user userId : String} {p : Int} {ch : Nat}

theorem lookup_cons (user : String) (e : String × Input) (inputs : List (String × Input)) :
    lookup user (e :: inputs) = if user = e.1 then e.2 else lookup user inputs := by
  unfold lookup
  rw [List.lookup_cons]
  by_cases h : user = e.1
  · rw [if_pos h, beq_iff_eq.mpr h]
    rfl
  · rw [if_neg h, beq_eq_false_iff_ne.mpr h]

theorem lookup_store (user userId : String) (i : Input) (inputs : List (String × Input)) :
    lookup user (store userId i inputs) = if user = userId then i else lookup user inputs := by
  induction inputs with
  | nil => rw [store, lookup_cons]
  | cons e inputs ih =>
      unfold store
      split
      · rename_i heq
        rw [lookup_cons, lookup_cons, heq]
        split <;> rfl
      · rename_i hne
        rw [lookup_cons, lookup_cons, ih]
        split
        · rename_i heq
          rw [if_neg (by rw [heq]; exact hne)]
        · rfl

/-- 利用者の名は、置いた利用者のほかは増えない。 -/
theorem keys_store (userId : String) (i : Input) (inputs : List (String × Input)) :
    (store userId i inputs).map Prod.fst =
      if userId ∈ inputs.map Prod.fst then inputs.map Prod.fst else inputs.map Prod.fst ++ [userId] := by
  induction inputs with
  | nil => simp [store]
  | cons e inputs ih =>
      unfold store
      by_cases heq : e.1 = userId
      · simp [heq]
      · have hne : userId ≠ e.1 := Ne.symm heq
        rw [if_neg heq, List.map_cons, ih]
        by_cases hmem : userId ∈ inputs.map Prod.fst
        · rw [if_pos hmem, if_pos (by simp [hmem]), List.map_cons]
        · rw [if_neg hmem, if_neg (by simp [hmem, hne]), List.map_cons, List.cons_append]

theorem nodup_store (hn : (m.inputs.map Prod.fst).Nodup) : ((store userId i m.inputs).map Prod.fst).Nodup := by
  rw [keys_store]
  split
  · exact hn
  · rename_i hmem
    refine List.nodup_append.mpr ⟨hn, List.pairwise_singleton _ _, fun user huser user' huser' heq => ?_⟩
    rw [List.mem_singleton] at huser'
    exact hmem (huser' ▸ heq ▸ huser)

theorem lookup_of_mem (hn : (inputs.map Prod.fst).Nodup) {e : String × Input} (he : e ∈ inputs) : lookup e.1 inputs = e.2 := by
  induction inputs with
  | nil => cases he
  | cons e' inputs ih =>
      rw [List.map_cons, List.nodup_cons] at hn
      rw [lookup_cons]
      cases List.mem_cons.mp he with
      | inl heq => rw [heq, if_pos rfl]
      | inr he =>
          have hne : e.1 ≠ e'.1 := fun heq => hn.1 (heq ▸ List.mem_map_of_mem he)
          rw [if_neg hne, ih hn.2 he]

theorem lookup_of_not_mem (h : user ∉ inputs.map Prod.fst) : lookup user inputs = {} := by
  induction inputs with
  | nil => rfl
  | cons e inputs ih =>
      rw [List.map_cons, List.mem_cons, not_or] at h
      rw [lookup_cons, if_neg h.1, ih h.2]

/-- 切り詰めた列の、利用者ごとの標本。 -/
theorem Cut.held (h : Cut f next m.inputs m'.inputs) (hkeys : m'.inputs.map Prod.fst = m.inputs.map Prod.fst) :
    held f m' user p ch = if next ≤ p then held f m user p ch else none := by
  unfold AudioMixer.held
  generalize m.inputs = inputs at h hkeys ⊢
  generalize m'.inputs = inputs' at h hkeys ⊢
  induction h with
  | nil =>
      have hnone : (lookup user []).sampleAt f.channels p ch = none := Input.sampleAt_nil rfl
      rw [hnone]
      split <;> rfl
  | cons hcut _ ih =>
      rw [List.map_cons, List.map_cons, List.cons.injEq] at hkeys
      rw [lookup_cons, lookup_cons, hkeys.1]
      split
      · exact hcut.rest p ch
      · exact ih hkeys.2

theorem keys_mixAll (inputs : List (String × Input)) (mixed : List Int) :
    (mixAll f next bound inputs mixed).1.map Prod.fst = inputs.map Prod.fst := by
  induction inputs generalizing mixed with
  | nil => rfl
  | cons e inputs ih =>
      rw [mixAll, List.map_cons, List.map_cons]
      congr 1
      exact ih _

/-! ## 一回の繰り返し -/

/-- 混合器は、新しい `nextSample_` より前の標本をなくして進む。 -/
structure Advances (f : Format) (m m' : AudioMixer) : Prop where
  keys : m'.inputs.map Prod.fst = m.inputs.map Prod.fst
  next : m.nextSample ≤ m'.nextSample
  rest : ∀ user p ch, held f m' user p ch = if m'.nextSample ≤ p then held f m user p ch else none
  pops : Pops f m.inputs m'.inputs

theorem keys_discard : (inputs.map fun e => (e.1, e.2.discard f.channels next)).map Prod.fst = inputs.map Prod.fst := by
  rw [List.map_map]
  rfl

variable {now count drainEnd : Int} {flush : Bool}

/-- `bound` までの間に標本がない。 -/
def Passes (f : Format) (m : AudioMixer) (bound : Int) : Prop :=
  ∀ user p ch, m.nextSample ≤ p → ch < f.channels → held f m user p ch ≠ none → bound ≤ p

/-- 列の先頭が `next` 以降にあれば、標本も `next` 以降にある。 -/
theorem le_of_held (hfrom : ∀ e ∈ m.inputs, e.2.samples = [] ∨ next ≤ e.2.firstSample) (hheld : held f m user p ch ≠ none) :
    next ≤ p := by
  unfold held at hheld
  cases lookup_cases user m.inputs with
  | inl hnew =>
      rw [hnew] at hheld
      exact absurd (Input.sampleAt_nil rfl) hheld
  | inr hold =>
      obtain ⟨e, he, heq⟩ := hold
      rw [← heq] at hheld
      cases hfrom e he with
      | inl hnil => exact absurd (Input.sampleAt_nil hnil) hheld
      | inr hle =>
          by_contra hlt
          rw [Input.sampleAt, if_neg (by omega)] at hheld
          exact hheld rfl

/-- 標本のない間だけ先に進んだ。 -/
theorem Advances.skip (hle : m.nextSample ≤ m'.nextSample) (hcut : Cut f m.nextSample m.inputs m'.inputs)
    (hkeys : m'.inputs.map Prod.fst = m.inputs.map Prod.fst) (hpops : Pops f m.inputs m'.inputs)
    (hfrom : ∀ e ∈ m'.inputs, e.2.samples = [] ∨ m'.nextSample ≤ e.2.firstSample) :
    Advances f m m' ∧ Passes f m m'.nextSample := by
  have hheld : ∀ user p ch, held f m' user p ch = if m.nextSample ≤ p then held f m user p ch else none :=
    fun _ _ _ => hcut.held hkeys
  refine ⟨⟨hkeys, hle, fun user p ch => ?_, hpops⟩, fun user p ch hp _ hne => ?_⟩
  · by_cases hp : m'.nextSample ≤ p
    · rw [hheld, if_pos hp, if_pos (by omega)]
    · rw [if_neg hp]
      by_contra hne
      exact hp (le_of_held hfrom hne)
  · refine @le_of_held f m' m'.nextSample user p ch hfrom ?_
    rwa [hheld, if_pos hp]

/-- フレームを作って進んだ。 -/
theorem Advances.emit {x : Mix} (he : Emits f count m x m') (hcount : 0 < count)
    (hkeys : m'.inputs.map Prod.fst = m.inputs.map Prod.fst) (hpops : Pops f m.inputs m'.inputs) :
    Advances f m m' ∧ Passes f m x.start := by
  have hlate := he.late
  have hnext := he.nextSample
  refine ⟨⟨hkeys, by omega, fun user p ch => ?_, hpops⟩, fun user p ch hp hch hne => ?_⟩
  · rw [hnext]
    exact he.cut.held hkeys
  · cases lookup_cases user m.inputs with
    | inl hnew =>
        rw [held, hnew] at hne
        exact absurd (Input.sampleAt_nil rfl) hne
    | inr hold =>
        obtain ⟨e, hmem, heq⟩ := hold
        rw [held, ← heq] at hne
        exact he.start_le hmem hp hch (Option.isSome_iff_ne_none.mpr hne)

theorem round_cases (hc : 0 < f.channels) (hcount : 0 < count) :
    (∃ m', round f now count flush drainEnd m = .done m' ∧ Advances f m m' ∧ Passes f m m'.nextSample) ∨
    (∃ m', round f now count flush drainEnd m = .leave m' ∧ Advances f m m' ∧ Passes f m m'.nextSample) ∨
    ∃ x m', round f now count flush drainEnd m = .emit x m' ∧ (Advances f m m' ∧ Passes f m x.start) ∧
      Emits f count m x m' := by
  have hfrom : ∀ e ∈ m.inputs.map (fun e => (e.1, e.2.discard f.channels m.nextSample)),
      e.2.samples = [] ∨ m.nextSample ≤ e.2.firstSample := by
    intro e he
    obtain ⟨e₀, -, rfl⟩ := List.mem_map.mp he
    exact Input.discard_from hc
  have hcut : Cut f m.nextSample m.inputs (m.inputs.map fun e => (e.1, e.2.discard f.channels m.nextSample)) :=
    cut_discard hc _
  have hdiscard : Pops f m.inputs (m.inputs.map fun e => (e.1, e.2.discard f.channels m.nextSample)) := pops_discard
  have hkeys : (m.inputs.map fun e => (e.1, e.2.discard f.channels m.nextSample)).map Prod.fst = m.inputs.map Prod.fst :=
    keys_discard
  unfold round
  simp only
  generalize m.inputs.map (fun e => (e.1, e.2.discard f.channels m.nextSample)) = inputs at *
  have hstay := @Advances.skip f m { m with inputs } le_rfl hcut hkeys hdiscard hfrom
  have hjump := @Advances.skip f m { m with inputs, nextSample := startOf f m.nextSample inputs } le_startOf hcut hkeys
    hdiscard (startOf_le hfrom)
  split
  · exact .inl ⟨_, rfl, hstay⟩
  · split
    · exact .inl ⟨_, rfl, hstay⟩
    · split
      · exact .inl ⟨_, rfl, hjump⟩
      · split
        · exact .inr (.inl ⟨_, rfl, hjump⟩)
        · have hemits := emits_mixAll hc (next_startOf hcut hfrom) le_startOf hcut hcount (startOf_le hfrom) rfl
          have hadvances := Advances.emit hemits hcount ((keys_mixAll _ _).trans hkeys) (hdiscard.trans (pops_mixAll _))
          exact .inr (.inr ⟨_, _, rfl, hadvances, hemits⟩)

/-- `advance` の結果。フレームを作らないときは、次の位置までの間に標本がない。 -/
inductive Advanced (f : Format) (d : Draining) (s : Run) : Run → Prop where
  | ended (hend : d.drainEnd ≤ s.mixer.nextSample) :
      Advanced f d s { s with mixer := sweep d.now s.mixer, consuming := none }
  | done {m' : AudioMixer} (ha : Advances f s.mixer m') (hp : Passes f s.mixer m'.nextSample) :
      Advanced f d s { s with
        mixer := sweep d.now m', consuming := none, samples := s.samples.map (Sample.settle f m' fun _ => .late) }
  | left {m' : AudioMixer} (ha : Advances f s.mixer m') (hp : Passes f s.mixer m'.nextSample) :
      Advanced f d s { s with mixer := m', consuming := none, samples := s.samples.map (Sample.settle f m' fun _ => .late) }
  | emitted {x : Mix} {m' : AudioMixer} (ha : Advances f s.mixer m') (hp : Passes f s.mixer x.start)
      (hx : Emits f d.count s.mixer x m') :
      Advanced f d s
        { mixer := m'
          consuming := some d
          samples := s.samples.map (Sample.settle f m' fun e => if x.covers d.count e.position then .mixed x else .late)
          emitted := s.emitted ++ [x] }

theorem advanced (hc : 0 < f.channels) {d : Draining} (hd : 0 < d.count) (s : Run) : Advanced f d s (s.advance f d) := by
  have hround := @round_cases f s.mixer d.now d.count d.drainEnd d.flush hc hd
  unfold Run.advance
  split
  · rename_i hend
    exact .ended hend
  · cases hround with
    | inl hdone =>
        obtain ⟨m', hround, ha, hp⟩ := hdone
        rw [hround]
        exact .done ha hp
    | inr hrest =>
        cases hrest with
        | inl hleave =>
            obtain ⟨m', hround, ha, hp⟩ := hleave
            rw [hround]
            exact .left ha hp
        | inr hemit =>
            obtain ⟨x, m', hround, ⟨ha, hp⟩, hx⟩ := hemit
            rw [hround]
            exact .emitted ha hp hx

/-- `drain` は、何もしないか、正の数の標本のフレームを作り始める。 -/
theorem drain_keeps {P : Run → Prop} {s : Run} (hs : P s) (hadvance : ∀ d : Draining, 0 < d.count → P (s.advance f d)) :
    P (s.drain f now count flush) := by
  unfold Run.drain
  split
  · exact hs
  · split
    · exact hs
    · split
      · exact hs
      · split
        · exact hs
        · rename_i hcount
          exact hadvance _ (not_le.mp hcount)

/-- `consume` の返りは、待っていた `drain` を進めるか、やめる。 -/
theorem consumed_keeps {P : Run → Prop} {s : Run} {ok : Bool} (hs : P s) (hcounted : ∀ d ∈ s.consuming, 0 < d.count)
    (hadvance : ∀ d : Draining, 0 < d.count → P (s.advance f d)) (hrejected : P { s with consuming := none }) :
    P (s.consumed f ok) := by
  unfold Run.consumed
  split
  · exact hs
  · rename_i d hd
    split
    · exact hadvance d (hcounted d hd)
    · exact hrejected

/-- 空の列を除いても、標本は変わらない。 -/
theorem held_sweep (hn : (m.inputs.map Prod.fst).Nodup) : held f (sweep now m) user p ch = held f m user p ch := by
  unfold held sweep
  simp only
  generalize m.inputs = inputs at hn ⊢
  induction inputs with
  | nil => rfl
  | cons e inputs ih =>
      rw [List.map_cons, List.nodup_cons] at hn
      rw [lookup_cons, List.filter_cons]
      split
      · rw [lookup_cons]
        split
        · rfl
        · exact ih hn.2
      · rename_i hempty
        simp only [Bool.not_eq_true, Bool.not_eq_false', Bool.and_eq_true, decide_eq_true_eq] at hempty
        rw [ih hn.2]
        split
        · rename_i heq
          rw [heq, lookup_of_not_mem hn.1, Input.sampleAt_nil hempty.1]
          exact Input.sampleAt_nil rfl
        · rfl

/-! ## `push` の一回 -/

/-- 標本と位置が同じである。 -/
def Input.Same (j i : Input) : Prop := j.samples = i.samples ∧ j.firstSample = i.firstSample

theorem Input.Same.sampleAt {j : Input} {channels : Nat} (h : j.Same i) :
    j.sampleAt channels p ch = i.sampleAt channels p ch := by
  unfold Input.sampleAt
  rw [h.1, h.2]

theorem Input.Same.endSample {j : Input} {channels : Nat} (h : j.Same i) : j.endSample channels = i.endSample channels := by
  unfold Input.endSample
  rw [h.1, h.2]

variable {swr : Swr} {frame : AudioFrame}

theorem openResampler_firstSample : (openResampler swr frame i).2.firstSample = i.firstSample := by
  unfold openResampler
  split
  · rfl
  · split <;> rfl

/-- 変換は、列の標本も位置も変えない。 -/
theorem convert_same : (convert f swr frame i).2.Same i := by
  refine ⟨convert_samples, ?_⟩
  unfold convert
  split
  · have hopen : (openResampler swr frame i).2.firstSample = i.firstSample := openResampler_firstSample
    generalize openResampler swr frame i = r at hopen ⊢
    obtain ⟨opened, i'⟩ := r
    cases opened <;> exact hopen
  · rfl

/-- `push` は、拒むときは標本を変えず、受け取るときは変換した標本を利用者の列に足す。 -/
theorem push_cases (f : Format) (now : Int) (swr : Swr) (frame : AudioFrame) (userId : String) (m : AudioMixer) :
    (∃ m', push f now swr frame userId m = (false, m') ∧ m'.nextSample = m.nextSample ∧ m'.start = m.start ∧
      (m'.inputs = m.inputs ∨ ∃ j : Input, j.Same (lookup userId m.inputs) ∧ m'.inputs = store userId j m.inputs)) ∨
    ∃ converted j m', push f now swr frame userId m = (true, m') ∧
      convert f swr frame (lookup userId m.inputs) = (some converted, j) ∧ j.Same (lookup userId m.inputs) ∧
      f.channels ∣ converted.length ∧
      m' = ⟨store userId (append f (timestampSample f frame) now converted j) m.inputs,
        if m.nextSample < 0 then timestampSample f frame else m.nextSample, if m.nextSample < 0 then now else m.start⟩ := by
  have hsame : (convert f swr frame (lookup userId m.inputs)).2.Same (lookup userId m.inputs) := convert_same
  have hdvd : ∀ converted, (convert f swr frame (lookup userId m.inputs)).1 = some converted → f.channels ∣ converted.length :=
    fun _ => dvd_convert
  unfold push
  split
  · exact .inl ⟨m, rfl, rfl, rfl, .inl rfl⟩
  · generalize convert f swr frame (lookup userId m.inputs) = r at hsame hdvd ⊢
    obtain ⟨converted, j⟩ := r
    cases converted with
    | none => exact .inl ⟨_, rfl, rfl, rfl, .inr ⟨j, hsame, rfl⟩⟩
    | some converted =>
        refine .inr ⟨converted, j, _, ?_, rfl, hsame, hdvd converted rfl, rfl⟩
        by_cases hneg : m.nextSample < 0
        · simp only [if_pos hneg, timestampSample]
        · simp only [if_neg hneg, timestampSample]

/-- 足した後の列の標本。`position` から後が、足したものである。 -/
theorem sampleAt_appended (now : Int) (converted : List Int) (p : Int) {timestampSample : Int} (ha : i.Aligned f.channels)
    (hch : ch < f.channels) {r : Input} (hr : r = reanchor f timestampSample i) :
    (append f timestampSample now converted i).sampleAt f.channels p ch =
      if (append f timestampSample now converted i).firstSample ≤ p then
        if p < r.endSample f.channels then r.sampleAt f.channels p ch
        else converted[(p - r.endSample f.channels).toNat * f.channels + ch]?
      else none := by
  have haligned : r.Aligned f.channels := by
    rw [hr, reanchor]
    split
    · exact Nat.dvd_zero _
    · exact ha
  rw [append, ← hr, Input.trim, Input.sampleAt_popWhile]
  congr 1
  exact Input.sampleAt_append (i := { r with lastArrival := now }) haligned hch converted

/-! ## `drain` は操作の列である -/

def Op.IsPush : Op → Prop
  | .push .. => True
  | _ => False

/-- `consume` の間には、`push` だけが行われる。 -/
def Pushing (f : Format) (consume : Consumer) : Prop :=
  ∀ frame m, ∃ ops : List Op, (∀ op ∈ ops, op.IsPush) ∧
    (consume frame m).2 = ((mixing f).run ops ({ mixer := m } : Run)).mixer

theorem push_parts (now : Int) (swr : Swr) (frame : AudioFrame) (userId : String) (s : Run) :
    (s.push f now swr frame userId).mixer = (AudioMixer.push f now swr frame userId s.mixer).2 ∧
    (s.push f now swr frame userId).consuming = s.consuming ∧ (s.push f now swr frame userId).emitted = s.emitted := by
  unfold Run.push
  simp only
  split <;> exact ⟨rfl, rfl, rfl⟩

/-- `push` の列は、混合器のほかに、フレームにも `drain` にも触れない。 -/
theorem run_pushes {ops : List Op} (hops : ∀ op ∈ ops, op.IsPush) (s s₀ : Run) (hs : s.mixer = s₀.mixer) :
    ((mixing f).run ops s).mixer = ((mixing f).run ops s₀).mixer ∧ ((mixing f).run ops s).consuming = s.consuming ∧
      ((mixing f).run ops s).emitted = s.emitted := by
  induction ops generalizing s s₀ with
  | nil => exact ⟨hs, rfl, rfl⟩
  | cons op ops ih =>
      cases op with
      | push now swr frame userId =>
          obtain ⟨hmixer, hconsuming, hemitted⟩ := push_parts (f := f) now swr frame userId s
          obtain ⟨hmixer₀, -⟩ := push_parts (f := f) now swr frame userId s₀
          have hsame : (s.push f now swr frame userId).mixer = (s₀.push f now swr frame userId).mixer := by
            rw [hmixer, hmixer₀, hs]
          obtain ⟨hrun, hrunConsuming, hrunEmitted⟩ := ih (fun op hop => hops op (List.mem_cons_of_mem _ hop)) _ _ hsame
          exact ⟨hrun, hrunConsuming.trans hconsuming, hrunEmitted.trans hemitted⟩
      | drain now count flush => exact (hops _ List.mem_cons_self).elim
      | consumed ok => exact (hops _ List.mem_cons_self).elim

variable {consume : Consumer} {ok : Bool} {out : List Mix} {s : Run} {d : Draining}

/-- `s` から、混合器が `m'` で、作ったフレームが `out` である、`drain` の外の状態に至る。 -/
def Settles (f : Format) (s : Run) (m' : AudioMixer) (out : List Mix) : Prop :=
  ∃ ops, ((mixing f).run ops s).mixer = m' ∧ ((mixing f).run ops s).consuming = none ∧ ((mixing f).run ops s).emitted = out

theorem Settles.already (hm : s.mixer = m') (hc : s.consuming = none) (hout : s.emitted = out) : Settles f s m' out :=
  ⟨[], hm, hc, hout⟩

/-- `consume` の間の `push` のあとで、フレームが受け取られる。 -/
theorem Settles.accepted {pushes : List Op} (hd : ((mixing f).run pushes s).consuming = some d)
    (h : Settles f (((mixing f).run pushes s).advance f d) m' out) : Settles f s m' out := by
  obtain ⟨ops, hops⟩ := h
  refine ⟨pushes ++ .consumed true :: ops, ?_⟩
  have hstep : ((mixing f).run pushes s).consumed f true = ((mixing f).run pushes s).advance f d := by
    unfold Run.consumed
    rw [hd]
    rfl
  have hrun : (mixing f).run (.consumed true :: ops) ((mixing f).run pushes s) =
      (mixing f).run ops (((mixing f).run pushes s).advance f d) := congrArg ((mixing f).run ops) hstep
  rwa [System.run_append, hrun]

theorem Settles.rejected {pushes : List Op} (hd : ((mixing f).run pushes s).consuming = some d)
    (hm : ((mixing f).run pushes s).mixer = m') (hout : ((mixing f).run pushes s).emitted = out) : Settles f s m' out := by
  refine ⟨pushes ++ [.consumed false], ?_⟩
  have hstep : ((mixing f).run pushes s).consumed f false = { (mixing f).run pushes s with consuming := none } := by
    unfold Run.consumed
    rw [hd]
    rfl
  have hrun : (mixing f).run [.consumed false] ((mixing f).run pushes s) =
      { (mixing f).run pushes s with consuming := none } := hstep
  rw [System.run_append, hrun]
  exact ⟨hm, rfl, hout⟩

theorem advance_of_le (hend : d.drainEnd ≤ s.mixer.nextSample) :
    s.advance f d = { s with mixer := sweep d.now s.mixer, consuming := none } := by
  rw [Run.advance, if_pos hend]

theorem advance_emit {x : Mix} (hend : ¬d.drainEnd ≤ s.mixer.nextSample)
    (hround : round f d.now d.count d.flush d.drainEnd s.mixer = .emit x m') :
    (s.advance f d).mixer = m' ∧ (s.advance f d).consuming = some d ∧ (s.advance f d).emitted = s.emitted ++ [x] := by
  rw [Run.advance, if_neg hend]
  simp only [hround, and_self]

/-- `drain` の繰り返しは、`advance` の一回で終わるか、フレームを渡して続く。 -/
theorem rounds_cases {n : Nat} (s : Run)
    (hrun : rounds f consume d.now d.count d.flush d.drainEnd n s.mixer = some (ok, out, m')) :
    ((s.advance f d).mixer = m' ∧ (s.advance f d).consuming = none ∧ (s.advance f d).emitted = s.emitted ++ out) ∨
    ∃ k x m₁, n = k + 1 ∧ (s.advance f d).mixer = m₁ ∧ (s.advance f d).consuming = some d ∧
      (s.advance f d).emitted = s.emitted ++ [x] ∧
      (if (consume (x.frame f) m₁).1 then
          (rounds f consume d.now d.count d.flush d.drainEnd k (consume (x.frame f) m₁).2).map fun r => (r.1, x :: r.2.1, r.2.2)
        else some (false, [x], (consume (x.frame f) m₁).2)) = some (ok, out, m') := by
  have hnil : s.emitted = s.emitted ++ [] := (List.append_nil _).symm
  by_cases hend : d.drainEnd ≤ s.mixer.nextSample
  · have hdone : rounds f consume d.now d.count d.flush d.drainEnd n s.mixer = some (true, [], sweep d.now s.mixer) := by
      cases n with
      | zero => rw [rounds, if_pos hend]
      | succ n => rw [rounds, if_pos hend]
    rw [hdone] at hrun
    cases hrun
    rw [advance_of_le hend]
    exact .inl ⟨rfl, rfl, hnil⟩
  · cases n with
    | zero =>
        rw [rounds, if_neg hend] at hrun
        cases hrun
    | succ n =>
        rw [rounds, if_neg hend] at hrun
        split at hrun
        · rename_i m₁ hround
          cases hrun
          rw [Run.advance, if_neg hend, hround]
          exact .inl ⟨rfl, rfl, hnil⟩
        · rename_i m₁ hround
          cases hrun
          rw [Run.advance, if_neg hend, hround]
          exact .inl ⟨rfl, rfl, hnil⟩
        · rename_i x m₁ hround
          obtain ⟨hmixer, hconsuming, hemitted⟩ := advance_emit hend hround
          exact .inr ⟨n, x, m₁, rfl, hmixer, hconsuming, hemitted, hrun⟩

/-- `drain` は、何もしないか、繰り返しを始める。 -/
theorem drain_cases {n : Nat} (s : Run) (hs : s.consuming = none)
    (hrun : AudioMixer.drain f n consume now count flush s.mixer = some (ok, out, m')) :
    (s.drain f now count flush = s ∧ s.mixer = m' ∧ out = []) ∨
    ∃ d, s.drain f now count flush = s.advance f d ∧
      rounds f consume d.now d.count d.flush d.drainEnd n s.mixer = some (ok, out, m') := by
  unfold AudioMixer.drain at hrun
  unfold Run.drain
  rw [if_neg (by simp [hs])]
  split at hrun
  · rename_i hidle
    cases hrun
    rw [if_pos hidle]
    exact .inl ⟨rfl, rfl, rfl⟩
  · rename_i hidle
    rw [if_neg hidle]
    split at hrun
    · rename_i hwait
      cases hrun
      rw [if_pos hwait]
      exact .inl ⟨rfl, rfl, rfl⟩
    · rename_i hwait
      rw [if_neg hwait]
      split at hrun
      · rename_i hcount
        cases hrun
        rw [if_pos hcount]
        exact .inl ⟨rfl, rfl, rfl⟩
      · rename_i hcount
        rw [if_neg hcount]
        exact .inr ⟨_, rfl, hrun⟩

theorem run_rounds (hp : Pushing f consume) (n : Nat) (s : Run)
    (hrun : rounds f consume d.now d.count d.flush d.drainEnd n s.mixer = some (ok, out, m')) :
    Settles f (s.advance f d) m' (s.emitted ++ out) := by
  induction n generalizing s out with
  | zero =>
      cases rounds_cases s hrun with
      | inl hend => exact .already hend.1 hend.2.1 hend.2.2
      | inr hnext =>
          obtain ⟨k, x, m₁, hk, -⟩ := hnext
          cases hk
  | succ n ih =>
      cases rounds_cases s hrun with
      | inl hend => exact .already hend.1 hend.2.1 hend.2.2
      | inr hnext =>
          obtain ⟨_, x, m₁, hk, hmixer, hconsuming, hemitted, hrun⟩ := hnext
          cases hk
          obtain ⟨pushes, hpushes, hconsume⟩ := hp (x.frame f) m₁
          obtain ⟨hafter, hkeeps, hsame⟩ := run_pushes (f := f) hpushes (s.advance f d) { mixer := m₁ } hmixer
          rw [← hconsume] at hafter
          rw [hconsuming] at hkeeps
          rw [hemitted] at hsame
          split at hrun
          · obtain ⟨r, hr, heq⟩ := Option.map_eq_some_iff.mp hrun
            cases heq
            rw [← hafter] at hr
            have hrest := ih _ hr
            rw [hsame, List.append_assoc] at hrest
            exact .accepted hkeeps hrest
          · cases hrun
            exact .rejected hkeeps hafter hsame

/-- `consume` が `push` だけを行う `drain` は、操作の列である。 -/
theorem run_drain (hp : Pushing f consume) (n : Nat) (s : Run) (hs : s.consuming = none)
    (hrun : AudioMixer.drain f n consume now count flush s.mixer = some (ok, out, m')) :
    Settles f (s.drain f now count flush) m' (s.emitted ++ out) := by
  cases drain_cases s hs hrun with
  | inl hidle =>
      obtain ⟨hsame, hm, rfl⟩ := hidle
      rw [hsame]
      exact .already hm hs (List.append_nil _).symm
  | inr hstarts =>
      obtain ⟨d, hadvance, hrounds⟩ := hstarts
      rw [hadvance]
      exact run_rounds hp n s hrounds

end RtcEgress.Media.AudioMixer
