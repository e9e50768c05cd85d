import Mathlib.Data.List.Basic
import Mathlib.Data.Int.Basic

/-!
# `src/audio_mixer.cpp` の音声の混合

利用者ごとの標本の列は、先頭の標本の位置とともに置かれる。`push` はその後ろに足し、`drain` は同じ位置の標本を足し合わせて
一定の長さのフレームにする。標本の値と位置は整数で、時刻はナノ秒で表す。libswresample は、どのような標本も作り得る引数で
表す。`drain` の `consume` はロックの外で呼ばれるので、その間に他のスレッドが `push` することも、`consume` の作用に含める。
-/

namespace RtcEgress.Media

structure AudioFrame where
  valid : Bool
  data : List Int
  sampleRate : Int
  channels : Int
  timestamp : Nat

/-- 標本はチャンネルの順に並び、先頭の位置は `firstSample` である。 -/
structure AudioMixer.Input where
  samples : List Int := []
  firstSample : Int := -1
  sampleRate : Int := 0
  channels : Int := 0
  resampler : Bool := false
  lastArrival : Int := 0

/-- `configure` のあとでは変わらない設定。 -/
structure AudioMixer.Format where
  rate : Nat
  channels : Nat

structure AudioMixer where
  inputs : List (String × AudioMixer.Input) := []
  nextSample : Int := -1
  start : Int := 0

/-- 標本化の変換の結果。 -/
structure Swr where
  /-- 変換器を確保した。 -/
  allocated : Bool := true
  /-- 変換器の設定と初期化ができた。 -/
  opened : Bool := true
  /-- 作った標本の数。エラーのときは `none` である。 -/
  produced : Option Nat
  sample : Nat → Int

namespace AudioMixer

def WAIT_MS : Int := 40

def nanos (ms : Int) : Int := ms * 1000000

/-- `av_rescale_q` の、負でない値についての計算。もっとも近い整数に丸める。 -/
def rescale (a b c : Nat) : Nat := (a * b + c / 2) / c

/-! ## 標本の列 -/

namespace Input

/-- 先頭の位置の標本をすべてのチャンネルから除く。 -/
def pop (channels : Nat) (i : Input) : Input :=
  { i with samples := i.samples.drop channels, firstSample := i.firstSample + 1 }

/-- `more` の成り立つ間、先頭を除く。一回ごとに標本が減るので、`n` は標本の数でよい。 -/
def popWhile (channels : Nat) (more : Input → Bool) : (n : Nat) → Input → Input
  | 0, i => i
  | n + 1, i => if more i then popWhile channels more n (i.pop channels) else i

/-- 最後の標本の次の位置。 -/
def endSample (channels : Nat) (i : Input) : Int := i.firstSample + (i.samples.length / channels : Nat)

/-- `next` より前の標本を捨てる。 -/
def discard (channels : Nat) (next : Int) (i : Input) : Input :=
  i.popWhile channels (fun i => i.samples ≠ [] && i.firstSample < next) i.samples.length

/-- 標本の数を `limit` までに抑える。 -/
def trim (channels limit : Nat) (i : Input) : Input :=
  i.popWhile channels (fun i => limit < i.samples.length) i.samples.length

end Input

/-- 列 `mixed` の `offset` からに、`values` を順に足す。 -/
def addAt : (mixed : List Int) → (offset : Nat) → (values : List Int) → List Int
  | mixed, _, [] => mixed
  | mixed, offset, v :: values => addAt (mixed.modify offset (· + v)) (offset + 1) values

namespace Input

/-- `end` より前の標本を、`next` から始まる列に足して除く。 -/
def mixInto (channels : Nat) (next bound : Int) : (n : Nat) → Input → List Int → Input × List Int
  | 0, i, mixed => (i, mixed)
  | n + 1, i, mixed =>
      if i.samples ≠ [] ∧ i.firstSample < bound then
        mixInto channels next bound n (i.pop channels)
          (addAt mixed ((i.firstSample - next).toNat * channels) (i.samples.take channels))
      else (i, mixed)

end Input

/-! ## `push` -/

variable (f : Format)

/-- 変換器が使えないか、標本の形が変わったときは作り直す。使えるようになったかと、その後の列を返す。 -/
def openResampler (swr : Swr) (frame : AudioFrame) (i : Input) : Bool × Input :=
  if i.resampler ∧ i.sampleRate = frame.sampleRate ∧ i.channels = frame.channels then (true, i)
  else if swr.opened ∧ swr.allocated then
    (true, { i with resampler := true, sampleRate := frame.sampleRate, channels := frame.channels })
  else (false, { i with resampler := swr.allocated })

/-- フレームの標本を、混合の形にする。できなければ `none` を返す。 -/
def convert (swr : Swr) (frame : AudioFrame) (i : Input) : Option (List Int) × Input :=
  if frame.sampleRate ≠ f.rate ∨ frame.channels ≠ f.channels then
    let (opened, i) := openResampler swr frame i
    if opened then
      (swr.produced.map fun produced => (List.range (produced * f.channels)).map swr.sample, i)
    else (none, i)
  else
    let count := frame.data.length / frame.channels.toNat
    (some (frame.data.take (count * f.channels)), { i with resampler := false })

/-- 間が空いたときは、位置を時刻に合わせ直す。 -/
def reanchor (timestampSample : Int) (i : Input) : Input :=
  if i.firstSample < 0 ∨ i.endSample f.channels + (f.rate / 10 : Nat) < timestampSample then
    { i with samples := [], firstSample := timestampSample }
  else i

def append (timestampSample now : Int) (converted : List Int) (i : Input) : Input :=
  let i := reanchor f timestampSample i
  Input.trim f.channels (f.rate / 2 * f.channels)
    { i with lastArrival := now, samples := i.samples ++ converted }

/-- `inputs_[userId]`。なければ空の列である。 -/
def lookup (userId : String) (inputs : List (String × Input)) : Input := (inputs.lookup userId).getD {}

/-- 利用者の列を置く。 -/
def store (userId : String) (i : Input) : List (String × Input) → List (String × Input)
  | [] => [(userId, i)]
  | (user, i') :: inputs => if user = userId then (user, i) :: inputs else (user, i') :: store userId i inputs

def push (now : Int) (swr : Swr) (frame : AudioFrame) (userId : String) (m : AudioMixer) : Bool × AudioMixer :=
  if !frame.valid ∨ frame.channels < 1 ∨ frame.sampleRate < 1 ∨ frame.data = [] then (false, m)
  else
    match convert f swr frame (lookup userId m.inputs) with
    | (none, i) => (false, { m with inputs := store userId i m.inputs })
    | (some converted, i) =>
        let timestampSample : Int := rescale frame.timestamp f.rate 1000
        let (nextSample, start) := if m.nextSample < 0 then (timestampSample, now) else (m.nextSample, m.start)
        (true, ⟨store userId (append f timestampSample now converted i) m.inputs, nextSample, start⟩)

/-! ## `drain` -/

/-- 足し合わせた標本と、その先頭の位置。 -/
structure Mix where
  start : Int
  mixed : List Int

/-- 大きさを十六ビットに収める。 -/
def limited (mixed : List Int) : List Int :=
  let peak : Int := mixed.foldl (fun peak sample => max peak sample.natAbs) 32767
  mixed.map fun sample => (sample * 32767).tdiv peak

def Mix.frame (x : Mix) : AudioFrame where
  valid := true
  data := limited x.mixed
  sampleRate := f.rate
  channels := f.channels
  timestamp := rescale x.start.toNat 1000 f.rate

/-- すべての利用者の標本を、順に足す。 -/
def mixAll (next bound : Int) : List (String × Input) → List Int → List (String × Input) × List Int
  | [], mixed => ([], mixed)
  | (user, i) :: inputs, mixed =>
      let (i, mixed) := i.mixInto f.channels next bound i.samples.length mixed
      let (inputs, mixed) := mixAll next bound inputs mixed
      ((user, i) :: inputs, mixed)

/-- 標本のある列。 -/
def nonEmpty (inputs : List (String × Input)) : List Input := (inputs.map Prod.snd).filter fun i => i.samples ≠ []

/-- もっとも遅い、最後の標本の次の位置。`next` より前にはならない。 -/
def latest (next : Int) (inputs : List (String × Input)) : Int :=
  ((nonEmpty inputs).map (Input.endSample f.channels)).foldl max next

/-- もっとも早い標本の位置。標本がなければ `none` である。 -/
def earliest (inputs : List (String × Input)) : Option Int := ((nonEmpty inputs).map Input.firstSample).min?

/-- 長く標本のない間は飛ばす。 -/
def startOf (next : Int) (inputs : List (String × Input)) : Int :=
  match earliest inputs with
  | some first => if next + f.rate < first then first else next
  | none => next

/-- 一つの繰り返しの結果。 -/
inductive Round where
  /-- 繰り返しを終える。 -/
  | done (m : AudioMixer)
  /-- すぐに戻る。 -/
  | leave (m : AudioMixer)
  | emit (x : Mix) (m : AudioMixer)

/-- まだ届きそうな利用者がいる。 -/
def awaited (now bound : Int) (inputs : List (String × Input)) : Bool :=
  inputs.any fun e =>
    e.2.firstSample < bound && e.2.endSample f.channels < bound && now - e.2.lastArrival < nanos WAIT_MS

def round (now count : Int) (flush : Bool) (drainEnd : Int) (m : AudioMixer) : Round :=
  let inputs := m.inputs.map fun e => (e.1, e.2.discard f.channels m.nextSample)
  let latest := latest f m.nextSample inputs
  if latest ≤ m.nextSample then .done { m with inputs }
  else if (earliest inputs).all (drainEnd ≤ ·) then .done { m with inputs }
  else
    let next := startOf f m.nextSample inputs
    let bound := next + count
    if !flush ∧ latest < bound then .done { m with inputs, nextSample := next }
    else if !flush ∧ awaited f now bound inputs then .leave { m with inputs, nextSample := next }
    else
      let (inputs, mixed) := mixAll f next bound inputs (List.replicate (count * f.channels).toNat 0)
      .emit ⟨next, mixed⟩ { m with inputs, nextSample := bound }

/-- 一秒のあいだ何も届かない、空の列を除く。 -/
def sweep (now : Int) (m : AudioMixer) : AudioMixer :=
  { m with inputs := m.inputs.filter fun e => !(e.2.samples = [] && nanos 1000 < now - e.2.lastArrival) }

/-- フレームを受け取って、続けるかを返す。その間に混合器も変わる。 -/
abbrev Consumer := AudioFrame → AudioMixer → Bool × AudioMixer

/-- `n` 回まで繰り返す。返り値は、`drain` の返り値、作ったフレーム、混合器である。 -/
def rounds (consume : Consumer) (now count : Int) (flush : Bool) (drainEnd : Int) :
    (n : Nat) → AudioMixer → Option (Bool × List Mix × AudioMixer)
  | 0, m => if drainEnd ≤ m.nextSample then some (true, [], sweep now m) else none
  | n + 1, m =>
      if drainEnd ≤ m.nextSample then some (true, [], sweep now m)
      else match round f now count flush drainEnd m with
        | .done m => some (true, [], sweep now m)
        | .leave m => some (true, [], m)
        | .emit x m =>
            let (consumed, m) := consume (x.frame f) m
            if consumed then
              (rounds consume now count flush drainEnd n m).map fun r => (r.1, x :: r.2.1, r.2.2)
            else some (false, [x], m)

def drain (n : Nat) (consume : Consumer) (now count : Int) (flush : Bool) (m : AudioMixer) :
    Option (Bool × List Mix × AudioMixer) :=
  if m.nextSample < 0 ∨ m.inputs = [] then some (true, [], m)
  else if !flush ∧ now - m.start < nanos WAIT_MS then some (true, [], m)
  else if count ≤ 0 then some (false, [], m)
  else rounds f consume now count flush (latest f m.nextSample m.inputs) n m

end AudioMixer

end RtcEgress.Media
