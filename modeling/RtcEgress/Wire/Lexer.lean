import RtcEgress.Lib.Decimal
import RtcEgress.Queue.Task
import RtcEgress.Wire.LineMessageBuffer

/-!
# `src/nlohmann/json.hpp` の字句

`lexer` が返す字句と、残りの列である。字句の誤りは、構文の誤りと同じく例外になるので、残りの列を持たない。`0` のバイトは、
入力の終わりとみなされる。
-/

namespace RtcEgress.Wire.Lexer

open RtcEgress.Lib RtcEgress.Lib.Json
open RtcEgress.Queue (Json)

/-! ## 文字列 -/

/-- `get_codepoint` の四桁。 -/
def getCodepoint : Bytes → Option (Nat × Bytes)
  | h₁ :: h₂ :: h₃ :: h₄ :: s => do
      let d₁ ← unhex h₁
      let d₂ ← unhex h₂
      let d₃ ← unhex h₃
      let d₄ ← unhex h₄
      return (((d₁ * 16 + d₂) * 16 + d₃) * 16 + d₄, s)
  | _ => none

/-- 符号位置のバイト。 -/
def codepointBytes (codepoint : Nat) : Bytes := String.utf8EncodeChar (Char.ofNat codepoint)

/-- 代用対の表す符号位置。 -/
def joined (codepoint1 codepoint2 : Nat) : Nat := codepoint1 * 0x400 + codepoint2 - 0x35FDC00

/-- `\u` の後。加えるバイトと残りを返す。 -/
def scanUnicode (s : Bytes) : Option (Bytes × Bytes) := do
  let (codepoint1, s) ← getCodepoint s
  if 0xD800 ≤ codepoint1 ∧ codepoint1 ≤ 0xDBFF then
    if [0x5C, 0x75].isPrefixOf s then
      let (codepoint2, s) ← getCodepoint (s.drop 2)
      if 0xDC00 ≤ codepoint2 ∧ codepoint2 ≤ 0xDFFF then
        return (codepointBytes (joined codepoint1 codepoint2), s)
      else none
    else none
  else if 0xDC00 ≤ codepoint1 ∧ codepoint1 ≤ 0xDFFF then none
  else return (codepointBytes codepoint1, s)

/-- 逆斜線の後。 -/
def scanEscape : Bytes → Option (Bytes × Bytes)
  | [] => none
  | e :: s =>
      if e ∈ [0x62, 0x66, 0x6E, 0x72, 0x74, 0x5C, 0x2F, 0x22] then some (codepointBytes (simpleEscape e).toNat, s)
      else if e = 0x75 then scanUnicode s
      else none

/-- 先頭のバイトに続くバイトの範囲。文字を始めないバイトは `none` である。 -/
def ranges (current : Nat) : Option (List (Nat × Nat)) :=
  if current < 0x20 then none
  else if current < 0x80 then some []
  else if current < 0xC2 then none
  else if current ≤ 0xDF then some [(0x80, 0xBF)]
  else if current = 0xE0 then some [(0xA0, 0xBF), (0x80, 0xBF)]
  else if current = 0xED then some [(0x80, 0x9F), (0x80, 0xBF)]
  else if current ≤ 0xEF then some [(0x80, 0xBF), (0x80, 0xBF)]
  else if current = 0xF0 then some [(0x90, 0xBF), (0x80, 0xBF), (0x80, 0xBF)]
  else if current ≤ 0xF3 then some [(0x80, 0xBF), (0x80, 0xBF), (0x80, 0xBF)]
  else if current = 0xF4 then some [(0x80, 0x8F), (0x80, 0xBF), (0x80, 0xBF)]
  else none

def nextByteInRange : List (Nat × Nat) → Bytes → Option (Bytes × Bytes)
  | [], s => some ([], s)
  | _ :: _, [] => none
  | (lo, hi) :: rs, b :: s =>
      if lo ≤ b.toNat ∧ b.toNat ≤ hi then (nextByteInRange rs s).map fun p => (b :: p.1, p.2) else none

/-- 引用符でない `b` から始まる一文字。 -/
def scanChar (b : UInt8) (s : Bytes) : Option (Bytes × Bytes) :=
  if b = 0x5C then scanEscape s
  else do
    let rs ← ranges b.toNat
    let (added, s) ← nextByteInRange rs s
    return (b :: added, s)

theorem nextByteInRange_length {rs : List (Nat × Nat)} {s added rest : Bytes}
    (h : nextByteInRange rs s = some (added, rest)) : rest.length ≤ s.length := by
  induction rs generalizing s added with
  | nil =>
      cases h
      exact Nat.le_refl _
  | cons r rs ih =>
      cases s with
      | nil => cases h
      | cons b s =>
          rw [nextByteInRange] at h
          split at h
          · obtain ⟨⟨added', rest'⟩, hnext, heq⟩ := Option.map_eq_some_iff.mp h
            cases heq
            exact Nat.le_succ_of_le (ih hnext)
          · cases h

theorem getCodepoint_length {s rest : Bytes} {n : Nat} (h : getCodepoint s = some (n, rest)) : rest.length ≤ s.length := by
  unfold getCodepoint at h
  split at h
  · simp only [Option.bind_eq_bind, Option.bind_eq_some_iff] at h
    obtain ⟨_, -, _, -, _, -, _, -, heq⟩ := h
    cases heq
    simp only [List.length_cons]
    omega
  · cases h

theorem scanUnicode_length {s added rest : Bytes} (h : scanUnicode s = some (added, rest)) : rest.length ≤ s.length := by
  rw [scanUnicode, Option.bind_eq_bind, Option.bind_eq_some_iff] at h
  obtain ⟨⟨codepoint1, s₁⟩, hfirst, h⟩ := h
  have hle := getCodepoint_length hfirst
  dsimp only at h
  split_ifs at h
  · rw [Option.bind_eq_some_iff] at h
    obtain ⟨⟨codepoint2, s₂⟩, hsecond, h⟩ := h
    have hdrop := getCodepoint_length hsecond
    rw [List.length_drop] at hdrop
    dsimp only at h
    split_ifs at h
    obtain ⟨-, rfl⟩ := Prod.mk.inj (Option.some.inj h)
    omega
  · obtain ⟨-, rfl⟩ := Prod.mk.inj (Option.some.inj h)
    exact hle

theorem scanChar_length {b : UInt8} {s added rest : Bytes} (h : scanChar b s = some (added, rest)) :
    rest.length ≤ s.length := by
  unfold scanChar at h
  split at h
  · unfold scanEscape at h
    split at h
    · cases h
    · split_ifs at h
      · cases h
        exact Nat.le_succ _
      · exact Nat.le_succ_of_le (scanUnicode_length h)
  · simp only [Option.bind_eq_bind, Option.bind_eq_some_iff] at h
    obtain ⟨rs, -, ⟨added', rest'⟩, hnext, heq⟩ := h
    cases heq
    exact nextByteInRange_length hnext

/-- `scan_string` の、始めの引用符の後。文字列のバイトと残りを返す。 -/
def scanString (s : Bytes) : Option (Bytes × Bytes) :=
  match s with
  | [] => none
  | b :: t =>
      if b = 0x22 then some ([], t)
      else
        match _h : scanChar b t with
        | none => none
        | some (added, rest) => (scanString rest).map fun p => (added ++ p.1, p.2)
termination_by s.length
decreasing_by
  have := scanChar_length _h
  simp only [List.length_cons]
  omega

/-! ## 数 -/

inductive NumberState where
  | minus | zero | any1 | decimal1 | decimal2 | exponent | sign | any2
  deriving DecidableEq

def isExponent (b : UInt8) : Bool := b = 0x65 || b = 0x45

/-- 続く一バイトで移る位置。 -/
def NumberState.next (q : NumberState) (b : UInt8) : Option NumberState :=
  match q with
  | .minus => if b = 0x30 then some .zero else if isDigit b then some .any1 else none
  | .zero => if b = 0x2E then some .decimal1 else if isExponent b then some .exponent else none
  | .any1 =>
      if isDigit b then some .any1
      else if b = 0x2E then some .decimal1
      else if isExponent b then some .exponent
      else none
  | .decimal1 => if isDigit b then some .decimal2 else none
  | .decimal2 => if isDigit b then some .decimal2 else if isExponent b then some .exponent else none
  | .exponent => if b = 0x2B ∨ b = 0x2D then some .sign else if isDigit b then some .any2 else none
  | .sign => if isDigit b then some .any2 else none
  | .any2 => if isDigit b then some .any2 else none

/-- 数がそこで終わってよい位置。 -/
def NumberState.isDone : NumberState → Bool
  | .zero | .any1 | .decimal2 | .any2 => true
  | _ => false

def NumberState.start (b : UInt8) : NumberState := if b = 0x2D then .minus else if b = 0x30 then .zero else .any1

def scanNumberFrom (q : NumberState) : Bytes → Option (Bytes × Bytes)
  | [] => if q.isDone then some ([], []) else none
  | b :: s =>
      match q.next b with
      | some q' => (scanNumberFrom q' s).map fun p => (b :: p.1, p.2)
      | none => if q.isDone then some ([], b :: s) else none

def scanNumber (b : UInt8) (s : Bytes) : Option (Bytes × Bytes) :=
  (scanNumberFrom (.start b) s).map fun p => (b :: p.1, p.2)

/-- `strtoull` と `strtoll`。範囲を超えれば `none` である。 -/
def integerOf (buffer : Bytes) : Option Int :=
  if buffer.head? = some 0x2D then
    let n : Int := -(Decimal.natOf buffer.tail)
    if -2 ^ 63 ≤ n then some n else none
  else
    let n : Int := Decimal.natOf buffer
    if n < 2 ^ 64 then some n else none

/-- 数の値。`float64` の有限の値に収まらなければ `none` である。 -/
def numberOf (buffer : Bytes) : Option Rat :=
  let float := Decimal.nearest (Decimal.valueOf buffer)
  if buffer.any fun b => b = 0x2E || isExponent b then float
  else
    match integerOf buffer with
    | some n => some n
    | none => float

/-! ## 字句 -/

inductive Token where
  | beginArray | endArray | beginObject | endObject | nameSeparator | valueSeparator
  | literal (v : Json)
  | valueString (s : String)
  | valueNumber (q : Rat)
  | endOfInput
  | parseError

def scanLiteral (word : Bytes) (v : Json) (s : Bytes) : Token × Bytes :=
  if word.isPrefixOf s then (.literal v, s.drop word.length) else (.parseError, [])

/-- `scan_string` が調べたバイトの文字列。 -/
def text (buffer : Bytes) : String := (String.fromUTF8? buffer.toByteArray).getD ""

def stringToken : Option (Bytes × Bytes) → Token × Bytes
  | some (buffer, rest) => (.valueString (text buffer), rest)
  | none => (.parseError, [])

/-- 有限でない数は、構文の解析が誤りにする。 -/
def numberToken : Option (Bytes × Bytes) → Token × Bytes
  | some (buffer, rest) =>
      match numberOf buffer with
      | some q => (.valueNumber q, rest)
      | none => (.parseError, [])
  | none => (.parseError, [])

/-- `b` から始まる字句。 -/
def tokenFrom (b : UInt8) (t : Bytes) : Token × Bytes :=
  if b = 0x5B then (.beginArray, t)
  else if b = 0x5D then (.endArray, t)
  else if b = 0x7B then (.beginObject, t)
  else if b = 0x7D then (.endObject, t)
  else if b = 0x3A then (.nameSeparator, t)
  else if b = 0x2C then (.valueSeparator, t)
  else if b = 0x74 then scanLiteral [0x72, 0x75, 0x65] (.bool true) t
  else if b = 0x66 then scanLiteral [0x61, 0x6C, 0x73, 0x65] (.bool false) t
  else if b = 0x6E then scanLiteral [0x75, 0x6C, 0x6C] .null t
  else if b = 0x22 then stringToken (scanString t)
  else if b = 0x2D ∨ isDigit b = true then numberToken (scanNumber b t)
  else if b = 0 then (.endOfInput, t)
  else (.parseError, [])

def scan (s : Bytes) : Token × Bytes :=
  match skipSpace s with
  | [] => (.endOfInput, [])
  | b :: t => tokenFrom b t

def skipBom (s : Bytes) : Option Bytes :=
  if s.head? = some 0xEF then
    if [0xEF, 0xBB, 0xBF].isPrefixOf s then some (s.drop 3) else none
  else some s

theorem scan_cons {b : UInt8} (h : isSpace b = false) (t : Bytes) : scan (b :: t) = tokenFrom b t := by
  rw [scan, skipSpace_cons h]

/-! ## 残りの長さ -/

theorem scanString_length {s buffer rest : Bytes} (h : scanString s = some (buffer, rest)) : rest.length < s.length := by
  induction s using scanString.induct generalizing buffer with
  | case1 => simp [scanString] at h
  | case2 t =>
      rw [scanString, if_pos rfl] at h
      cases h
      exact Nat.lt_succ_self _
  | case3 b t hb hnone =>
      rw [scanString, if_neg hb] at h
      split at h
      · cases h
      · next hsome => rw [hnone] at hsome; cases hsome
  | case4 b t hb added rest' hnext ih =>
      rw [scanString, if_neg hb] at h
      split at h
      · cases h
      · next hsome =>
          cases hnext.symm.trans hsome
          obtain ⟨p, hrest, heq⟩ := Option.map_eq_some_iff.mp h
          obtain ⟨-, rfl⟩ := Prod.mk.inj heq
          have hlt := ih hrest
          have hle := scanChar_length hnext
          simp only [List.length_cons]
          omega

theorem scanNumberFrom_length {q : NumberState} {s buffer rest : Bytes} (h : scanNumberFrom q s = some (buffer, rest)) :
    rest.length ≤ s.length := by
  induction s generalizing q buffer with
  | nil =>
      rw [scanNumberFrom] at h
      split at h
      · cases h
        exact Nat.le_refl _
      · cases h
  | cons b s ih =>
      rw [scanNumberFrom] at h
      cases hnext : q.next b with
      | none =>
          simp only [hnext] at h
          split at h
          · cases h
            exact Nat.le_refl _
          · cases h
      | some q' =>
          simp only [hnext] at h
          obtain ⟨⟨buffer', rest'⟩, hrest, heq⟩ := Option.map_eq_some_iff.mp h
          cases heq
          exact Nat.le_succ_of_le (ih hrest)

/-- 終わりでも誤りでもない字句。 -/
def Token.weight : Token → Nat
  | .endOfInput | .parseError => 0
  | _ => 1

/-- 字句の分だけ、残りが短い。 -/
def Within (n : Nat) (p : Token × Bytes) : Prop := p.2.length + p.1.weight ≤ n

section
variable {b : UInt8} {t : Bytes}

theorem within_single {tok : Token} : Within (t.length + 1) (tok, t) := by
  unfold Within Token.weight
  split <;> simp

theorem within_error {n : Nat} : Within n (.parseError, []) := Nat.zero_le n

theorem within_literal (word : Bytes) (v : Json) : Within (t.length + 1) (scanLiteral word v t) := by
  unfold scanLiteral
  split
  · simp [Within, Token.weight]
  · exact within_error

theorem within_string : Within (t.length + 1) (stringToken (scanString t)) := by
  cases hscan : scanString t with
  | none => exact within_error
  | some p =>
      have hlt := scanString_length hscan
      simp only [Within, stringToken, Token.weight]
      omega

theorem within_number : Within (t.length + 1) (numberToken (scanNumber b t)) := by
  cases hscan : scanNumber b t with
  | none => exact within_error
  | some p =>
      obtain ⟨⟨buffer, rest⟩, hrest, rfl⟩ := Option.map_eq_some_iff.mp hscan
      have hle := scanNumberFrom_length hrest
      simp only [numberToken]
      split
      · simp only [Within, Token.weight]
        omega
      · exact within_error

theorem within_tokenFrom (b : UInt8) (t : Bytes) : Within (t.length + 1) (tokenFrom b t) := by
  unfold tokenFrom
  refine iteInduction (fun _ => within_single) fun _ => ?_
  refine iteInduction (fun _ => within_single) fun _ => ?_
  refine iteInduction (fun _ => within_single) fun _ => ?_
  refine iteInduction (fun _ => within_single) fun _ => ?_
  refine iteInduction (fun _ => within_single) fun _ => ?_
  refine iteInduction (fun _ => within_single) fun _ => ?_
  refine iteInduction (fun _ => within_literal _ _) fun _ => ?_
  refine iteInduction (fun _ => within_literal _ _) fun _ => ?_
  refine iteInduction (fun _ => within_literal _ _) fun _ => ?_
  refine iteInduction (fun _ => within_string) fun _ => ?_
  refine iteInduction (fun _ => within_number) fun _ => ?_
  exact iteInduction (fun _ => within_single) fun _ => within_error

end

theorem within_scan (s : Bytes) : Within s.length (scan s) := by
  have hskip : (skipSpace s).length ≤ s.length := (List.dropWhile_suffix _).length_le
  unfold scan
  split
  · exact Nat.zero_le _
  next b t hs =>
    rw [hs, List.length_cons] at hskip
    exact Nat.le_trans (within_tokenFrom b t) hskip

/-! ## 書いた文字列 -/

/-- 範囲にあるバイトは、そのまま加える。 -/
theorem nextByteInRange_ofNat {lo hi n : Nat} {rs : List (Nat × Nat)} {l t : Bytes} (hlo : lo ≤ n) (hhi : n ≤ hi)
    (hbyte : hi < 256) (h : nextByteInRange rs (l ++ t) = some (l, t)) :
    nextByteInRange ((lo, hi) :: rs) ((.ofNat n :: l) ++ t) = some (.ofNat n :: l, t) := by
  have hn : (UInt8.ofNat n).toNat = n := UInt8.toNat_ofNat_of_lt' (Nat.lt_of_le_of_lt hhi hbyte)
  rw [List.cons_append, nextByteInRange, hn, if_pos ⟨hlo, hhi⟩, h, Option.map_some]

/-- 一文字の UTF-8 は、先頭のバイトの後が範囲にある。 -/
theorem nextByteInRange_utf8EncodeChar {c : Char} (h : 0x20 ≤ c.toNat) : ∃ n l rs,
    String.utf8EncodeChar c = .ofNat n :: l ∧ n < 256 ∧ (n = c.toNat ∨ 0xC2 ≤ n) ∧ ranges n = some rs ∧
      ∀ t, nextByteInRange rs (l ++ t) = some (l, t) := by
  have hvalid : c.toNat < 0xD800 ∨ 0xDFFF < c.toNat ∧ c.toNat < 0x110000 := c.valid
  have hc : c.val.toNat = c.toNat := rfl
  rw [String.utf8EncodeChar, hc]
  generalize c.toNat = v at h hvalid
  have htail (k : Nat) (t : Bytes) : nextByteInRange [(0x80, 0xBF)] ([.ofNat (k % 64 + 0x80)] ++ t) =
      some ([.ofNat (k % 64 + 0x80)], t) :=
    nextByteInRange_ofNat (by omega) (by omega) (by omega) rfl
  have htail₂ (j k : Nat) (t : Bytes) :
      nextByteInRange [(0x80, 0xBF), (0x80, 0xBF)] ([.ofNat (j % 64 + 0x80), .ofNat (k % 64 + 0x80)] ++ t) =
        some ([.ofNat (j % 64 + 0x80), .ofNat (k % 64 + 0x80)], t) :=
    nextByteInRange_ofNat (by omega) (by omega) (by omega) (htail k t)
  split
  · refine ⟨v, [], [], rfl, by omega, .inl rfl, ?_, fun t => rfl⟩
    rw [ranges, if_neg (by omega), if_pos (by omega)]
  split
  · refine ⟨v / 64 % 32 + 0xC0, _, [(0x80, 0xBF)], rfl, by omega, .inr (by omega), ?_, htail v⟩
    rw [ranges, if_neg (by omega), if_neg (by omega), if_neg (by omega), if_pos (by omega)]
  split
  · have hbyte : v / 4096 % 16 + 0xE0 < 256 := by omega
    by_cases he0 : v / 4096 = 0
    · refine ⟨v / 4096 % 16 + 0xE0, _, [(0xA0, 0xBF), (0x80, 0xBF)], rfl, hbyte, .inr (by omega), ?_, fun t =>
        nextByteInRange_ofNat (by omega) (by omega) (by omega) (htail v t)⟩
      rw [he0]
      rfl
    by_cases hed : v / 4096 = 13
    · refine ⟨v / 4096 % 16 + 0xE0, _, [(0x80, 0x9F), (0x80, 0xBF)], rfl, hbyte, .inr (by omega), ?_, fun t =>
        nextByteInRange_ofNat (by omega) (by omega) (by omega) (htail v t)⟩
      rw [hed]
      rfl
    · refine ⟨v / 4096 % 16 + 0xE0, _, [(0x80, 0xBF), (0x80, 0xBF)], rfl, hbyte, .inr (by omega), ?_, htail₂ _ v⟩
      rw [ranges, if_neg (by omega), if_neg (by omega), if_neg (by omega), if_neg (by omega), if_neg (by omega),
        if_neg (by omega), if_pos (by omega)]
  · have hbyte : v / 262144 % 8 + 0xF0 < 256 := by omega
    by_cases hf0 : v / 262144 = 0
    · refine ⟨v / 262144 % 8 + 0xF0, _, [(0x90, 0xBF), (0x80, 0xBF), (0x80, 0xBF)], rfl, hbyte, .inr (by omega), ?_,
        fun t => nextByteInRange_ofNat (by omega) (by omega) (by omega) (htail₂ _ v t)⟩
      rw [hf0]
      rfl
    by_cases hf4 : v / 262144 = 4
    · refine ⟨v / 262144 % 8 + 0xF0, _, [(0x80, 0x8F), (0x80, 0xBF), (0x80, 0xBF)], rfl, hbyte, .inr (by omega), ?_,
        fun t => nextByteInRange_ofNat (by omega) (by omega) (by omega) (htail₂ _ v t)⟩
      rw [hf4]
      rfl
    · refine ⟨v / 262144 % 8 + 0xF0, _, [(0x80, 0xBF), (0x80, 0xBF), (0x80, 0xBF)], rfl, hbyte, .inr (by omega), ?_,
        fun t => nextByteInRange_ofNat (by omega) (by omega) (by omega) (htail₂ _ v t)⟩
      rw [ranges, if_neg (by omega), if_neg (by omega), if_neg (by omega), if_neg (by omega), if_neg (by omega),
        if_neg (by omega), if_neg (by omega), if_neg (by omega), if_pos (by omega)]

theorem scanString_quote (t : Bytes) : scanString (0x22 :: t) = some ([], t) := by
  rw [scanString, if_pos rfl]

/-- 一文字を読み、続きを読む。 -/
theorem scanString_cons {b : UInt8} {t added rest : Bytes} (hb : b ≠ 0x22) (h : scanChar b t = some (added, rest)) :
    scanString (b :: t) = (scanString rest).map fun p => (added ++ p.1, p.2) := by
  rw [scanString, if_neg hb]
  split
  · next hnone =>
      rw [h] at hnone
      cases hnone
  · next hsome =>
      cases h.symm.trans hsome
      rfl

/-- `l` は、一文字 `c` として読める。 -/
def Reads (l : Bytes) (c : Char) : Prop :=
  ∀ t, scanString (l ++ t) = (scanString t).map fun p => (String.utf8EncodeChar c ++ p.1, p.2)

theorem reads_utf8EncodeChar {c : Char} (hcontrol : 0x20 ≤ c.toNat) (hquote : c.toNat ≠ 0x22) (hback : c.toNat ≠ 0x5C) :
    Reads (String.utf8EncodeChar c) c := by
  intro t
  obtain ⟨n, l, rs, henc, hlt, hn, hrs, hnext⟩ := nextByteInRange_utf8EncodeChar hcontrol
  have hbyte : (UInt8.ofNat n).toNat = n := UInt8.toNat_ofNat_of_lt' hlt
  have hne (k : UInt8) (hk : k.toNat ≠ c.toNat) (hk' : k.toNat < 0xC2) : UInt8.ofNat n ≠ k := by
    rintro rfl
    rw [hbyte] at hk hk'
    omega
  have hscan : scanChar (.ofNat n) (l ++ t) = some (.ofNat n :: l, t) := by
    rw [scanChar, if_neg (hne 0x5C (Ne.symm hback) (by decide)), hbyte, hrs]
    simp [hnext t]
  rw [henc, List.cons_append, scanString_cons (hne 0x22 (Ne.symm hquote) (by decide)) hscan]

theorem reads_escape {c : Char} {l : Bytes} (h : ∀ t, scanEscape (l ++ t) = some (String.utf8EncodeChar c, t)) :
    Reads (0x5C :: l) c := by
  intro t
  have hscan : scanChar 0x5C (l ++ t) = some (String.utf8EncodeChar c, t) := by rw [scanChar, if_pos rfl, h]
  rw [List.cons_append, scanString_cons (by decide) hscan]

theorem codepointBytes_toNat (c : Char) : codepointBytes c.toNat = String.utf8EncodeChar c := by
  rw [codepointBytes, Char.ofNat_toNat]

theorem getCodepoint_hexDigit {n : Nat} (h : n < 0x10000) (t : Bytes) :
    getCodepoint (hexDigit (n / 4096 % 16) :: hexDigit (n / 256 % 16) :: hexDigit (n / 16 % 16) :: hexDigit (n % 16) :: t) =
      some (n, t) := by
  have hhex (k : Nat) : unhex (hexDigit (k % 16)) = some (k % 16) := unhex_hexDigit (Nat.mod_lt _ (by decide))
  simp only [getCodepoint, hhex, Option.bind_eq_bind, Option.bind_some, Option.pure_def, Option.some.injEq, Prod.mk.injEq,
    and_true]
  omega

theorem reads_unicodeEscape {c : Char} (h : c.toNat < 0x10000) : Reads (unicodeEscape c.toNat) c := by
  have hvalid : c.toNat < 0xD800 ∨ 0xDFFF < c.toNat ∧ c.toNat < 0x110000 := c.valid
  refine reads_escape fun t => ?_
  have he : (0x75 : UInt8) ∉ [0x62, 0x66, 0x6E, 0x72, 0x74, 0x5C, 0x2F, 0x22] := by decide
  rw [List.cons_append, scanEscape, if_neg he, if_pos rfl, scanUnicode]
  simp only [List.cons_append, List.nil_append, getCodepoint_hexDigit h, Option.bind_eq_bind, Option.bind_some]
  rw [if_neg (by omega), if_neg (by omega), codepointBytes_toNat]
  rfl

theorem reads_escChar (c : Char) : Reads (escChar c) c := by
  refine escChar_cases c (fun e he hsimple => ?_) (fun hcontrol => ?_) fun hquote hback hcontrol => ?_
  · refine reads_escape fun t => ?_
    rw [List.singleton_append, scanEscape, if_pos he, hsimple, Char.ofNat_toNat, codepointBytes_toNat]
  · have hunicode : [0x5C, 0x75, 0x30, 0x30, hexDigit (c.toNat / 16), hexDigit (c.toNat % 16)] = unicodeEscape c.toNat := by
      have h₁ : c.toNat / 4096 % 16 = 0 := by omega
      have h₂ : c.toNat / 256 % 16 = 0 := by omega
      have h₃ : c.toNat / 16 % 16 = c.toNat / 16 := by omega
      rw [unicodeEscape, h₁, h₂, h₃]
      rfl
    rw [hunicode]
    exact reads_unicodeEscape (by omega)
  · exact reads_utf8EncodeChar (Nat.le_of_not_lt hcontrol) hquote hback

theorem reads_marshalChar (c : Char) : Reads (marshalChar c) c := by
  unfold marshalChar
  split
  case isTrue hunsafe =>
    refine reads_unicodeEscape ?_
    simp only [isHTMLUnsafe, List.mem_cons, List.not_mem_nil, or_false, decide_eq_true_eq] at hunsafe
    rcases hunsafe with rfl | rfl | rfl | rfl | rfl <;> decide
  · exact reads_escChar c

theorem scanString_flatMap (cs : List Char) (t : Bytes) :
    scanString (cs.flatMap marshalChar ++ 0x22 :: t) = some (cs.flatMap String.utf8EncodeChar, t) := by
  induction cs with
  | nil => exact scanString_quote t
  | cons c cs ih =>
      rw [List.flatMap_cons, List.append_assoc, reads_marshalChar c, ih, Option.map_some, List.flatMap_cons]

theorem text_utf8 (s : String) : text (utf8 s) = s := by
  have hbytes : (utf8 s).toByteArray = s.toByteArray := ByteArray.ext (by simp [utf8])
  have hvalid : s.toByteArray.IsValidUTF8 := s.isValidUTF8
  simp [text, hbytes, String.fromUTF8?, hvalid, String.fromUTF8]

/-- 書いた文字列の字句。 -/
theorem scan_marshalString (s : String) (t : Bytes) : scan (marshalString s ++ t) = (.valueString s, t) := by
  have hstring : scanString (s.toList.flatMap marshalChar ++ 0x22 :: t) = some (utf8 s, t) := by
    rw [scanString_flatMap, utf8_eq_flatMap]
  have hcons : marshalString s ++ t = 0x22 :: (s.toList.flatMap marshalChar ++ 0x22 :: t) := by simp [marshalString]
  have htoken : tokenFrom 0x22 (s.toList.flatMap marshalChar ++ 0x22 :: t) =
      stringToken (scanString (s.toList.flatMap marshalChar ++ 0x22 :: t)) := rfl
  rw [hcons, scan_cons (by decide), htoken, hstring, stringToken, text_utf8]

/-! ## 書いた整数 -/

/-- 整数の表記の続きにならない列。 -/
def Delimited (t : Bytes) : Prop := ∀ b ∈ t.head?, NumberState.any1.next b = none

theorem next_zero {b : UInt8} (h : NumberState.any1.next b = none) : NumberState.zero.next b = none := by
  simp only [NumberState.next] at h ⊢
  split_ifs at h ⊢
  rfl

theorem scanNumberFrom_nil {q : NumberState} {t : Bytes} (hdone : q.isDone = true) (h : ∀ b ∈ t.head?, q.next b = none) :
    scanNumberFrom q t = some ([], t) := by
  cases t with
  | nil => rw [scanNumberFrom, if_pos hdone]
  | cons b t =>
      have hb : q.next b = none := h b rfl
      rw [scanNumberFrom, hb]
      exact if_pos hdone

theorem scanNumberFrom_any1 {l t : Bytes} (hl : ∀ b ∈ l, isDigit b = true) (ht : Delimited t) :
    scanNumberFrom .any1 (l ++ t) = some (l, t) := by
  induction l with
  | nil => exact scanNumberFrom_nil rfl ht
  | cons b l ih =>
      rw [List.forall_mem_cons] at hl
      have hnext : NumberState.any1.next b = some .any1 := if_pos hl.1
      rw [List.cons_append, scanNumberFrom, hnext]
      simp only [ih hl.2, Option.map_some]

/-- 始めの数字の後。符号の有無は、後に影響しない。 -/
theorem scanNumberFrom_digits {n : Nat} {b : UInt8} {l t : Bytes} (hdigits : Decimal.digits n = b :: l) (ht : Delimited t) :
    scanNumberFrom (if b = 0x30 then .zero else .any1) (l ++ t) = some (l, t) := by
  have hmem : ∀ b' ∈ l, isDigit b' = true := fun b' hb' =>
    Decimal.isDigit_of_mem_digits (hdigits ▸ List.mem_cons_of_mem b hb')
  rcases Decimal.digits_eq n with ⟨-, hzero⟩ | ⟨b', l', hl', hb'⟩
  · obtain ⟨rfl, rfl⟩ := List.cons.inj (hdigits.symm.trans hzero)
    rw [if_pos rfl]
    exact scanNumberFrom_nil rfl fun b hb => next_zero (ht b hb)
  · obtain ⟨rfl, rfl⟩ := List.cons.inj (hdigits.symm.trans hl')
    rw [if_neg hb']
    exact scanNumberFrom_any1 hmem ht

theorem integerOf_marshalInt {n : Int} (h : inInt64 n = true) : integerOf (marshalInt n) = some n := by
  simp only [inInt64, Bool.and_eq_true, decide_eq_true_eq] at h
  rw [Decimal.marshalInt_eq]
  split
  · have hvalue : -(n.natAbs : Int) = n := by omega
    rw [integerOf, if_pos List.head?_cons, List.tail_cons, Decimal.natOf_digits, hvalue]
    exact if_pos h.1
  · have hvalue : (n.natAbs : Int) = n := by omega
    have hhead : (Decimal.digits n.natAbs).head? ≠ some 0x2D := by
      intro hhead
      have hdigit := Decimal.isDigit_of_mem_digits (List.mem_of_mem_head? hhead)
      cases hdigit
    rw [integerOf, if_neg hhead, Decimal.natOf_digits, hvalue]
    exact if_pos (by omega)

theorem numberOf_marshalInt {n : Int} (h : inInt64 n = true) : numberOf (marshalInt n) = some (n : Rat) := by
  have hfloat {b : UInt8} (hb : b = 0x2D ∨ isDigit b = true) : (b = 0x2E || isExponent b) = false := by
    rw [Bool.eq_false_iff]
    intro hfloat
    simp only [isExponent, Bool.or_eq_true, decide_eq_true_eq] at hfloat
    rcases hfloat with rfl | rfl | rfl <;> revert hb <;> decide
  have hint : ((marshalInt n).any fun b => b = 0x2E || isExponent b) = false := by
    rw [List.any_eq_false]
    intro b hb
    rw [Decimal.marshalInt_eq] at hb
    rw [Bool.not_eq_true]
    split at hb
    · rcases List.mem_cons.mp hb with hsign | hb
      · exact hfloat (.inl hsign)
      · exact hfloat (.inr (Decimal.isDigit_of_mem_digits hb))
    · exact hfloat (.inr (Decimal.isDigit_of_mem_digits hb))
  simp [numberOf, hint, integerOf_marshalInt h]

/-- 始めの一文字から、表記の全体を読む。 -/
theorem scanNumber_marshalInt (n : Int) {t : Bytes} (ht : Delimited t) : ∃ b l, marshalInt n = b :: l ∧
    (b = 0x2D ∨ isDigit b = true) ∧ scanNumber b (l ++ t) = some (marshalInt n, t) := by
  obtain ⟨d, l, hdigits⟩ := List.exists_cons_of_ne_nil (Decimal.digits_ne_nil n.natAbs)
  have hdigit : isDigit d = true := Decimal.isDigit_of_mem_digits (hdigits ▸ List.mem_cons_self)
  have hscan := scanNumberFrom_digits hdigits ht
  rw [Decimal.marshalInt_eq, hdigits]
  split
  · have hminus : NumberState.minus.next d = some (if d = 0x30 then .zero else .any1) := by
      simp only [NumberState.next, hdigit, if_true]
      split <;> rfl
    refine ⟨0x2D, d :: l, rfl, .inl rfl, ?_⟩
    rw [scanNumber, NumberState.start, if_pos rfl, List.cons_append, scanNumberFrom, hminus]
    simp only [hscan, Option.map_some]
  · have hsign : d ≠ 0x2D := by
      rintro rfl
      cases hdigit
    refine ⟨d, l, rfl, .inr hdigit, ?_⟩
    rw [scanNumber, NumberState.start, if_neg hsign, hscan, Option.map_some]

/-- 書いた整数の字句。 -/
theorem scan_marshalInt {n : Int} (h : inInt64 n = true) {t : Bytes} (ht : Delimited t) :
    scan (marshalInt n ++ t) = (.valueNumber n, t) := by
  obtain ⟨b, l, hmarshal, hb, hscan⟩ := scanNumber_marshalInt n ht
  have hne (k : UInt8) (hk : ¬(k = 0x2D ∨ isDigit k = true)) : b ≠ k := by
    rintro rfl
    exact hk hb
  have htoken : tokenFrom b (l ++ t) = numberToken (scanNumber b (l ++ t)) := by
    simp only [tokenFrom, hne 0x5B (by decide), hne 0x5D (by decide), hne 0x7B (by decide), hne 0x7D (by decide),
      hne 0x3A (by decide), hne 0x2C (by decide), hne 0x74 (by decide), hne 0x66 (by decide), hne 0x6E (by decide),
      hne 0x22 (by decide), hb, if_true, if_false]
  have hspace : isSpace b = false := by
    simp [isSpace, hne 0x20 (by decide), hne 0x09 (by decide), hne 0x0A (by decide), hne 0x0D (by decide)]
  rw [hmarshal, List.cons_append, scan_cons hspace, htoken, hscan]
  simp only [numberToken, numberOf_marshalInt h]

end RtcEgress.Wire.Lexer
