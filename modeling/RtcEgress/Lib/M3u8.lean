import Mathlib.Algebra.Group.Nat.Defs
import Mathlib.Data.Rat.Defs
import RtcEgress.Lib.Lines

/-!
# HLS のメディア再生リスト

改行で区切った行を読む。`#EXTINF` の長さは、続く名前の行に付く。空の行と、知らない `#` の行は読み飛ばす。
-/

namespace RtcEgress.Lib.M3u8

/-! ## 数 -/

def readNat (cs : List Char) : Option Nat :=
  if cs ≠ [] ∧ cs.all Char.isDigit then some (Nat.ofDigitChars 10 cs 0) else none

/-- 符号のない十進の数。 -/
def readDecimal (cs : List Char) : Option Rat :=
  match cs.splitOn '.' with
  | [whole] => (readNat whole).map fun n => (n : Rat)
  | [whole, frac] => do
      let n ← readNat whole
      let f ← readNat frac
      return (n : Rat) + (f : Rat) / ((10 ^ frac.length : Nat) : Rat)
  | _ => none

theorem readNat_replicate_append (k n : Nat) :
    readNat (List.replicate k '0' ++ Nat.toDigits 10 n) = some n := by
  have hne : List.replicate k '0' ++ Nat.toDigits 10 n ≠ [] := by simp [Nat.toDigits_ne_nil]
  have hall : (List.replicate k '0' ++ Nat.toDigits 10 n).all Char.isDigit = true := by
    rw [List.all_eq_true]
    intro c hc
    cases List.mem_append.mp hc with
    | inl hzero =>
        rw [List.eq_of_mem_replicate hzero]
        decide
    | inr hdigit => exact Nat.isDigit_of_mem_toDigits (by decide) (by decide) hdigit
  rw [readNat, if_pos ⟨hne, hall⟩, Nat.ofDigitChars_append, Nat.ofDigitChars_replicate_zero, Nat.mul_zero,
    Nat.ofDigitChars_ten_toDigits]

theorem readNat_toDigits (n : Nat) : readNat (Nat.toDigits 10 n) = some n := readNat_replicate_append 0 n

theorem notMem_of_isDigit {c : Char} {cs : List Char} (hc : c.isDigit = false) (h : cs.all Char.isDigit = true) : c ∉ cs := by
  intro hmem
  rw [List.all_eq_true.mp h c hmem] at hc
  cases hc

theorem readNat_eq_some {cs : List Char} {n : Nat} (h : readNat cs = some n) : cs.all Char.isDigit = true := by
  unfold readNat at h
  split at h
  next hcs => exact hcs.2
  · cases h

theorem readDecimal_fixed {whole frac : List Char} {n f : Nat} (hn : readNat whole = some n) (hf : readNat frac = some f) :
    readDecimal (whole ++ '.' :: frac) = some ((n : Rat) + (f : Rat) / ((10 ^ frac.length : Nat) : Rat)) := by
  have hwhole : '.' ∉ whole := notMem_of_isDigit (by decide) (readNat_eq_some hn)
  have hfrac : '.' ∉ frac := notMem_of_isDigit (by decide) (readNat_eq_some hf)
  rw [readDecimal, List.splitOn_append_cons_self_of_not_mem hwhole, List.splitOn_eq_singleton hfrac]
  simp [hn, hf]

/-! ## 行 -/

inductive Line where
  | version (n : Nat) | targetDuration (n : Nat) | mediaSequence (n : Nat) | inf (duration : Rat) | endList
  | uri (name : List Char) | skipped

/-- 欄の名前のあとの値。 -/
def value? (tag line : List Char) : Option (List Char) :=
  if tag.isPrefixOf line then some (line.drop tag.length) else none

def readInf (rest : List Char) : Option Line := (readDecimal (rest.takeWhile (· != ','))).map .inf

/-- 値を読む欄。 -/
def fields : List (List Char × (List Char → Option Line)) :=
  [("#EXTINF:".toList, readInf), ("#EXT-X-VERSION:".toList, fun rest => (readNat rest).map .version),
    ("#EXT-X-TARGETDURATION:".toList, fun rest => (readNat rest).map .targetDuration),
    ("#EXT-X-MEDIA-SEQUENCE:".toList, fun rest => (readNat rest).map .mediaSequence)]

/-- 値を読む欄でない行。 -/
def readOther (line : List Char) : Line :=
  if line = "#EXT-X-ENDLIST".toList then .endList
  else if line = [] ∨ line.head? = some '#' then .skipped
  else .uri line

def readField (line : List Char) : List (List Char × (List Char → Option Line)) → Option Line
  | [] => some (readOther line)
  | (tag, read) :: rest =>
      match value? tag line with
      | some value => read value
      | none => readField line rest

def readLine (line : List Char) : Option Line := readField line fields

theorem value?_append (tag rest : List Char) : value? tag (tag ++ rest) = some rest := by
  simp [value?]

/-- どの欄の名前でも始まらない行。 -/
theorem readField_of_none {line : List Char} {fs : List (List Char × (List Char → Option Line))}
    (h : ∀ field ∈ fs, value? field.1 line = none) : readField line fs = some (readOther line) := by
  induction fs with
  | nil => rfl
  | cons field fs ih =>
      simp only [readField, h field List.mem_cons_self]
      exact ih fun other hother => h other (List.mem_cons_of_mem field hother)

/-- `#` で始まらない行は、名前である。 -/
theorem readLine_uri {line : List Char} {c : Char} (hhead : line.head? = some c) (hc : c ≠ '#') :
    readLine line = some (.uri line) := by
  have hne : line ≠ [] := by
    rintro rfl
    cases hhead
  have hnone : ∀ field ∈ fields, value? field.1 line = none := by
    intro field hfield
    have htag : field.1.head? = some '#' := by
      have hall : ∀ field ∈ fields, field.1.head? = some '#' := by simp [fields]
      exact hall field hfield
    cases htail : field.1 with
    | nil => simp [htail] at htag
    | cons d tag =>
        cases line with
        | nil => cases hhead
        | cons c' line =>
            rw [htail] at htag
            cases htag
            cases hhead
            simp [value?, List.isPrefixOf, Ne.symm hc]
  have hend : line ≠ "#EXT-X-ENDLIST".toList := by
    rintro rfl
    cases hhead
    exact hc rfl
  have hhash : line.head? ≠ some '#' := by
    rw [hhead]
    exact fun heq => hc (Option.some.inj heq)
  rw [readLine, readField_of_none hnone]
  simp only [readOther, hend, hne, hhash, if_false, or_self]

theorem readLine_inf {rest value : List Char} {d : Rat} (hcomma : ',' ∉ value) (hd : readDecimal value = some d) :
    readLine ("#EXTINF:".toList ++ (value ++ ',' :: rest)) = some (.inf d) := by
  have htake : (value ++ ',' :: rest).takeWhile (· != ',') = value := by
    have hvalue : ∀ c ∈ value, (c != ',') = true := by
      intro c hc
      rw [bne_iff_ne]
      rintro rfl
      exact hcomma hc
    rw [List.takeWhile_append_of_pos hvalue]
    simp
  simp only [readLine, fields, readField, value?_append, readInf, htake, hd, Option.map_some]

theorem readLine_targetDuration {rest : List Char} {n : Nat} (hn : readNat rest = some n) :
    readLine ("#EXT-X-TARGETDURATION:".toList ++ rest) = some (.targetDuration n) := by
  have hinf : value? "#EXTINF:".toList ("#EXT-X-TARGETDURATION:".toList ++ rest) = none := rfl
  have hversion : value? "#EXT-X-VERSION:".toList ("#EXT-X-TARGETDURATION:".toList ++ rest) = none := rfl
  simp only [readLine, fields, readField, hinf, hversion, value?_append, hn, Option.map_some]

/-! ## 再生リスト -/

structure MediaPlaylist where
  version : Nat := 1
  targetDuration : Option Nat := none
  mediaSequence : Nat := 0
  segments : List (Rat × List Char) := []
  ended : Bool := false

/-- `duration` は、まだ名前の行が続いていない長さである。 -/
structure Reader where
  playlist : MediaPlaylist := {}
  duration : Option Rat := none

def Reader.next (r : Reader) : Line → Option Reader
  | .version n => some { r with playlist := { r.playlist with version := n } }
  | .targetDuration n => some { r with playlist := { r.playlist with targetDuration := some n } }
  | .mediaSequence n => some { r with playlist := { r.playlist with mediaSequence := n } }
  | .inf duration => some { r with duration := some duration }
  | .endList => some { r with playlist := { r.playlist with ended := true } }
  | .skipped => some r
  | .uri name => r.duration.map fun duration =>
      { playlist := { r.playlist with segments := r.playlist.segments ++ [(duration, name)] }, duration := none }

/-- 長さに続く名前と、目標の長さとを欠いてはならない。 -/
def Reader.finish (r : Reader) : Option MediaPlaylist :=
  if r.duration.isSome ∨ r.playlist.targetDuration.isNone then none else some r.playlist

def readLines (r : Reader) : List (List Char) → Option Reader
  | [] => some r
  | line :: lines => do
      let l ← readLine line
      let r ← r.next l
      readLines r lines

def read (text : List Char) : Option MediaPlaylist :=
  match text.splitOn '\n' with
  | [] => none
  | first :: lines => if first = "#EXTM3U".toList then (readLines {} lines).bind Reader.finish else none

theorem readLines_append (xs ys : List (List Char)) (r : Reader) :
    readLines r (xs ++ ys) = (readLines r xs).bind fun r => readLines r ys := by
  induction xs generalizing r with
  | nil => rfl
  | cons line xs ih =>
      simp only [List.cons_append, readLines]
      cases readLine line with
      | none => rfl
      | some l =>
          cases hnext : r.next l with
          | none => simp [hnext]
          | some r' => simp [hnext, ih]

/-- 長さと名前の行の組を、順に読む。 -/
theorem readLines_segments {β : Type} (inf uri : β → List Char) (segment : β → Rat × List Char) {xs : List β}
    (h : ∀ x ∈ xs, readLine (inf x) = some (.inf (segment x).1) ∧ readLine (uri x) = some (.uri (segment x).2))
    (playlist : MediaPlaylist) :
    readLines { playlist } (xs.flatMap fun x => [inf x, uri x]) =
      some { playlist := { playlist with segments := playlist.segments ++ xs.map segment } } := by
  induction xs generalizing playlist with
  | nil => simp [readLines]
  | cons x xs ih =>
      obtain ⟨hinf, huri⟩ := h x List.mem_cons_self
      have hrest := ih (fun y hy => h y (List.mem_cons_of_mem x hy))
      simp only [List.flatMap_cons, List.cons_append, List.nil_append, readLines, hinf, huri, Reader.next, Option.map_some,
        Option.bind_eq_bind, Option.bind_some, hrest]
      simp

end RtcEgress.Lib.M3u8
