import Mathlib.Data.List.Infix
import Mathlib.Data.List.TakeWhile

/-!
# バイトの列としての JSON

文字列を JSON の文字列に書き出す関数と、Go の `encoding/json` と同じ構文を受け入れる読み取りを定める。
読み取りは、文字列の範囲を調べる段階と、範囲の中のエスケープを戻す段階とに分かれる。
-/

namespace RtcEgress.Lib.Json

/-! ## 書き出し -/

/-- 十六進の数字。英字は小文字である。 -/
def hexDigit (n : Nat) : UInt8 := if n < 10 then .ofNat (0x30 + n) else .ofNat (0x57 + n)

/-- 一文字の書き出し。制御文字、引用符、逆斜線をエスケープし、その他は UTF-8 のまま書く。 -/
def escChar (c : Char) : List UInt8 :=
  if c.toNat = 0x08 then [0x5C, 0x62]
  else if c.toNat = 0x09 then [0x5C, 0x74]
  else if c.toNat = 0x0A then [0x5C, 0x6E]
  else if c.toNat = 0x0C then [0x5C, 0x66]
  else if c.toNat = 0x0D then [0x5C, 0x72]
  else if c.toNat = 0x22 then [0x5C, 0x22]
  else if c.toNat = 0x5C then [0x5C, 0x5C]
  else if c.toNat < 0x20 then [0x5C, 0x75, 0x30, 0x30, hexDigit (c.toNat / 16), hexDigit (c.toNat % 16)]
  else String.utf8EncodeChar c

def esc (s : String) : List UInt8 := s.toList.flatMap escChar

/-- 引用符で囲んだ文字列。 -/
def quote (s : String) : List UInt8 := 0x22 :: (esc s ++ [0x22])

/-- 文字列だけを値に持つ、始めの `{` を除いたオブジェクト。 -/
def membersText : List (String × String) → List UInt8
  | [] => [0x7D]
  | [(k, v)] => quote k ++ 0x3A :: (quote v ++ [0x7D])
  | (k, v) :: ms => quote k ++ 0x3A :: (quote v ++ 0x2C :: membersText ms)

def objectText (ms : List (String × String)) : List UInt8 := 0x7B :: membersText ms

/-! ## 読み取り -/

def isSpace (b : UInt8) : Bool := b == 0x20 || b == 0x09 || b == 0x0A || b == 0x0D

def isDigit (b : UInt8) : Bool := 0x30 ≤ b && b ≤ 0x39

/-- 十六進の数字の値。 -/
def unhex (b : UInt8) : Option Nat :=
  if isDigit b then some (b.toNat - 0x30)
  else if 0x61 ≤ b && b ≤ 0x66 then some (b.toNat - 0x57)
  else if 0x41 ≤ b && b ≤ 0x46 then some (b.toNat - 0x37)
  else none

def skipSpace (s : List UInt8) : List UInt8 := s.dropWhile isSpace

/-- 文字列の中の位置。`hex n` は、`\u` のあとの残り `n + 1` 桁である。 -/
inductive StringState where
  | plain | escape | hex (n : Nat)
  deriving DecidableEq

/-- 閉じる引用符のほかの一バイトで移る位置。 -/
def StringState.next (q : StringState) (b : UInt8) : Option StringState :=
  match q with
  | .plain => if b < 0x20 then none else if b = 0x5C then some .escape else some .plain
  | .escape =>
      if b ∈ [0x62, 0x66, 0x6E, 0x72, 0x74, 0x5C, 0x2F, 0x22] then some .plain
      else if b = 0x75 then some (.hex 3)
      else none
  | .hex n =>
      if (unhex b).isSome then
        match n with
        | 0 => some .plain
        | n + 1 => some (.hex n)
      else none

/-- 文字列の範囲。位置 `q` から、閉じる引用符までの中身と、そのあとを返す。 -/
def scanFrom : StringState → List UInt8 → Option (List UInt8 × List UInt8)
  | _, [] => none
  | q, b :: s =>
      if q = .plain ∧ b = 0x22 then some ([], s)
      else (q.next b).bind fun q => (scanFrom q s).map fun p => (b :: p.1, p.2)

def scanString (s : List UInt8) : Option (List UInt8 × List UInt8) := scanFrom .plain s

/-- 一つ以上の数字を読み飛ばす。 -/
def skipDigits (s : List UInt8) : Option (List UInt8) :=
  match s with
  | [] => none
  | d :: t => if isDigit d then some (t.dropWhile isDigit) else none

def scanExponent (s : List UInt8) : Option (List UInt8) :=
  match s with
  | e :: t =>
      if e = 0x65 ∨ e = 0x45 then
        match t with
        | sign :: u => if sign = 0x2B ∨ sign = 0x2D then skipDigits u else skipDigits t
        | [] => none
      else some s
  | [] => some s

def scanFraction (s : List UInt8) : Option (List UInt8) :=
  match s with
  | dot :: t => if dot = 0x2E then skipDigits t else some s
  | [] => some s

/-- 数の範囲。残りを返す。 -/
def scanNumber (s : List UInt8) : Option (List UInt8) := do
  let s := if s.head? = some 0x2D then s.tail else s
  let s ← if s.head? = some 0x30 then some s.tail else skipDigits s
  scanExponent (← scanFraction s)

/-- 読み取った値。受け取る側が区別するものだけを分け、文字列は範囲のまま持つ。 -/
inductive Value where
  | null
  | string (raw : List UInt8)
  | object (members : List (List UInt8 × Value))
  | other

/-- 決まった綴り。 -/
def literal (word : List UInt8) (v : Value) (s : List UInt8) : Option (Value × List UInt8) :=
  if word.isPrefixOf s then some (v, s.drop word.length) else none

mutual
/-- 値を一つ読む。要る `fuel` は読むバイトの数を超えない。 -/
def parseValue : Nat → List UInt8 → Option (Value × List UInt8)
  | 0, _ => none
  | n + 1, s =>
      match s with
      | [] => none
      | b :: t =>
          if b = 0x7B then (parseObject n (skipSpace t)).map fun p => (.object p.1, p.2)
          else if b = 0x5B then
            if (skipSpace t).head? = some 0x5D then some (.other, (skipSpace t).tail)
            else (parseElements n (skipSpace t)).map fun r => (.other, r)
          else if b = 0x22 then (scanString t).map fun p => (.string p.1, p.2)
          else if b = 0x6E then literal [0x75, 0x6C, 0x6C] .null t
          else if b = 0x74 then literal [0x72, 0x75, 0x65] .other t
          else if b = 0x66 then literal [0x61, 0x6C, 0x73, 0x65] .other t
          else (scanNumber s).map fun r => (.other, r)

/-- `{` と空白のあと。 -/
def parseObject : Nat → List UInt8 → Option (List (List UInt8 × Value) × List UInt8)
  | 0, _ => none
  | n + 1, s => if s.head? = some 0x7D then some ([], s.tail) else parseMembers n s

/-- 一つ以上の組と `}`。 -/
def parseMembers : Nat → List UInt8 → Option (List (List UInt8 × Value) × List UInt8)
  | 0, _ => none
  | n + 1, s => do
      if s.head? ≠ some 0x22 then none
      let (key, s) ← scanString s.tail
      let s := skipSpace s
      if s.head? ≠ some 0x3A then none
      let (value, s) ← parseValue n (skipSpace s.tail)
      let s := skipSpace s
      if s.head? = some 0x7D then some ([(key, value)], s.tail)
      else if s.head? = some 0x2C then
        let (members, s) ← parseMembers n (skipSpace s.tail)
        some ((key, value) :: members, s)
      else none

/-- 一つ以上の値と `]`。 -/
def parseElements : Nat → List UInt8 → Option (List UInt8)
  | 0, _ => none
  | n + 1, s => do
      let (_, s) ← parseValue n s
      let s := skipSpace s
      if s.head? = some 0x5D then some s.tail
      else if s.head? = some 0x2C then parseElements n (skipSpace s.tail)
      else none
end

/-- 列の全体を一つの値として読む。 -/
def parse (s : List UInt8) : Option Value := do
  let (v, rest) ← parseValue (s.length + 1) (skipSpace s)
  if skipSpace rest ≠ [] then none else some v

/-! ## エスケープを戻す -/

def replacementChar : Char := Char.ofNat 0xFFFD

/-- 先頭の一文字とその長さ。UTF-8 でない一バイトは置換文字になる。 -/
def decodeRune (s : List UInt8) : Char × Nat :=
  match s.toByteArray.utf8DecodeChar? 0 with
  | some c => (c, c.utf8Size)
  | none => (replacementChar, 1)

/-- `\uXXXX` の値と残り。 -/
def getu4 : List UInt8 → Option (Nat × List UInt8)
  | a :: b :: h₁ :: h₂ :: h₃ :: h₄ :: s => do
      if a ≠ 0x5C ∨ b ≠ 0x75 then none
      let d₁ ← unhex h₁
      let d₂ ← unhex h₂
      let d₃ ← unhex h₃
      let d₄ ← unhex h₄
      some (((d₁ * 16 + d₂) * 16 + d₃) * 16 + d₄, s)
  | _ => none

/-- `\u` に続く一文字。代用対は合わせて一文字にし、対にならないものは置換文字にする。 -/
def unquoteUnicode (s : List UInt8) : Char × List UInt8 :=
  match getu4 s with
  | none => (replacementChar, [])
  | some (r, s) =>
      if 0xD800 ≤ r ∧ r < 0xE000 then
        match getu4 s with
        | some (r', s') =>
            if r < 0xDC00 ∧ 0xDC00 ≤ r' ∧ r' < 0xE000 then
              (Char.ofNat ((r - 0xD800) * 0x400 + (r' - 0xDC00) + 0x10000), s')
            else (replacementChar, s)
        | none => (replacementChar, s)
      else (Char.ofNat r, s)

def simpleEscape (e : UInt8) : Char :=
  if e = 0x62 then Char.ofNat 0x08
  else if e = 0x66 then Char.ofNat 0x0C
  else if e = 0x6E then Char.ofNat 0x0A
  else if e = 0x72 then Char.ofNat 0x0D
  else if e = 0x74 then Char.ofNat 0x09
  else Char.ofNat e.toNat

/-- 範囲の中のエスケープを戻した文字。 -/
def unquoteN : Nat → List UInt8 → List Char
  | 0, _ => []
  | n + 1, s =>
      match s with
      | [] => []
      | b :: t =>
          if b = 0x5C then
            match t with
            | [] => []
            | e :: u =>
                if e = 0x75 then (unquoteUnicode s).1 :: unquoteN n (unquoteUnicode s).2
                else simpleEscape e :: unquoteN n u
          else if b < 0x80 then Char.ofNat b.toNat :: unquoteN n t
          else (decodeRune s).1 :: unquoteN n (s.drop (decodeRune s).2)

def unquote (raw : List UInt8) : String := String.ofList (unquoteN raw.length raw)

/-! ## 書き出した文字列の読み取り -/

theorem le_of_mem_utf8EncodeChar {c : Char} (h : 0x80 ≤ c.toNat) {b : UInt8} (hb : b ∈ String.utf8EncodeChar c) :
    0x80 ≤ b := by
  have hc : c.val.toNat = c.toNat := rfl
  have hmod (n k m : Nat) (hk : 0x80 ≤ k) (hm : k + m ≤ 0x100) (hn : n < m) : 0x80 ≤ UInt8.ofNat (n + k) := by
    rw [UInt8.le_iff_toNat_le, UInt8.toNat_ofNat_of_lt' (by change n + k < 256; omega)]
    change 128 ≤ n + k
    omega
  simp only [String.utf8EncodeChar, hc] at hb
  split at hb
  · omega
  · split at hb
    · simp only [List.mem_cons, List.not_mem_nil, or_false] at hb
      rcases hb with rfl | rfl
      · exact hmod _ 0xC0 0x20 (by omega) (by omega) (Nat.mod_lt _ (by omega))
      · exact hmod _ 0x80 0x40 (by omega) (by omega) (Nat.mod_lt _ (by omega))
    · split at hb
      · simp only [List.mem_cons, List.not_mem_nil, or_false] at hb
        rcases hb with rfl | rfl | rfl
        · exact hmod _ 0xE0 0x10 (by omega) (by omega) (Nat.mod_lt _ (by omega))
        · exact hmod _ 0x80 0x40 (by omega) (by omega) (Nat.mod_lt _ (by omega))
        · exact hmod _ 0x80 0x40 (by omega) (by omega) (Nat.mod_lt _ (by omega))
      · simp only [List.mem_cons, List.not_mem_nil, or_false] at hb
        rcases hb with rfl | rfl | rfl | rfl
        · exact hmod _ 0xF0 0x08 (by omega) (by omega) (Nat.mod_lt _ (by omega))
        · exact hmod _ 0x80 0x40 (by omega) (by omega) (Nat.mod_lt _ (by omega))
        · exact hmod _ 0x80 0x40 (by omega) (by omega) (Nat.mod_lt _ (by omega))
        · exact hmod _ 0x80 0x40 (by omega) (by omega) (Nat.mod_lt _ (by omega))

theorem utf8EncodeChar_of_lt {c : Char} (h : c.toNat < 0x80) : String.utf8EncodeChar c = [.ofNat c.toNat] := by
  have hc : c.val.toNat = c.toNat := rfl
  rw [String.utf8EncodeChar, hc, if_pos (by omega)]

/-- 閉じる引用符が見つかれば、後に何が続いても同じところで閉じる。 -/
theorem scanFrom_append {q : StringState} {s raw rest : List UInt8} (h : scanFrom q s = some (raw, rest))
    (t : List UInt8) : scanFrom q (s ++ t) = some (raw, rest ++ t) := by
  induction s generalizing q raw with
  | nil => simp [scanFrom] at h
  | cons b s ih =>
      rw [List.cons_append]
      by_cases hb : q = .plain ∧ b = 0x22
      · simp only [scanFrom, hb, and_self, if_true, Option.some.injEq, Prod.mk.injEq] at h ⊢
        exact ⟨h.1, by rw [h.2]⟩
      · simp only [scanFrom, hb, if_false, Option.bind_eq_some_iff, Option.map_eq_some_iff] at h ⊢
        obtain ⟨q', hq, p, hp, heq⟩ := h
        obtain ⟨rfl, rfl⟩ := Prod.mk.inj heq
        exact ⟨q', hq, _, ih hp, rfl⟩

/-- 位置をそのままに読み進められる列。 -/
def Passes (l : List UInt8) : Prop :=
  ∀ t, scanFrom .plain (l ++ t) = (scanFrom .plain t).map fun p => (l ++ p.1, p.2)

theorem Passes.nil : Passes [] := by
  intro t
  cases h : scanFrom .plain t <;> simp [h]

theorem Passes.append {l l' : List UInt8} (h : Passes l) (h' : Passes l') : Passes (l ++ l') := by
  intro t
  rw [List.append_assoc, h, h']
  cases scanFrom .plain t <;> simp

theorem passes_of_plain {b : UInt8} (h₁ : b ≠ 0x22) (h₂ : ¬b < 0x20) (h₃ : b ≠ 0x5C) : Passes [b] := by
  intro t
  simp [scanFrom, StringState.next, h₁, h₂, h₃]

theorem passes_of_forall {l : List UInt8} (h : ∀ b ∈ l, Passes [b]) : Passes l := by
  induction l with
  | nil => exact .nil
  | cons b l ih =>
      simp only [List.forall_mem_cons] at h
      exact h.1.append (ih h.2)

theorem passes_escape {e : UInt8} (h : e ∈ [0x62, 0x66, 0x6E, 0x72, 0x74, 0x5C, 0x2F, 0x22]) : Passes [0x5C, e] := by
  intro t
  have h₁ : StringState.next .plain 0x5C = some .escape := by decide
  have h₂ : StringState.next .escape e = some .plain := if_pos h
  have h₃ : (0x5C : UInt8) ≠ 0x22 := by decide
  cases hs : scanFrom .plain t <;> simp [scanFrom, h₁, h₂, h₃, hs]

theorem unhex_hexDigit {n : Nat} (h : n < 16) : unhex (hexDigit n) = some n := by
  revert n
  decide

theorem passes_unicode {n : Nat} (h : n < 0x20) : Passes [0x5C, 0x75, 0x30, 0x30, hexDigit (n / 16), hexDigit (n % 16)] := by
  intro t
  have hh (k : Nat) (hk : k < 16) (m : Nat) : StringState.next (.hex m) (hexDigit k) =
      match m with
      | 0 => some .plain
      | m + 1 => some (.hex m) := by
    simp only [StringState.next, unhex_hexDigit hk, Option.isSome_some, if_true]
  have h₁ : StringState.next .plain 0x5C = some .escape := by decide
  have h₂ : StringState.next .escape 0x75 = some (.hex 3) := by decide
  have h₃ : (0x5C : UInt8) ≠ 0x22 := by decide
  have h₄ (m : Nat) : StringState.next (.hex (m + 1)) 0x30 = some (.hex m) := by
    simp [StringState.next, unhex, isDigit]
  have h₅ := hh (n / 16) (by omega) 1
  have h₆ := hh (n % 16) (by omega) 0
  cases hs : scanFrom .plain t <;> simp [scanFrom, h₁, h₂, h₃, h₄, h₅, h₆, hs]

theorem passes_utf8EncodeChar {c : Char} (h₁ : c.toNat ≠ 0x22) (h₂ : c.toNat ≠ 0x5C) (h₃ : ¬c.toNat < 0x20) :
    Passes (String.utf8EncodeChar c) := by
  apply passes_of_forall
  intro b hb
  by_cases hlt : c.toNat < 0x80
  · rw [utf8EncodeChar_of_lt hlt, List.mem_singleton] at hb
    have hn : b.toNat = c.toNat := by
      rw [hb, UInt8.toNat_ofNat_of_lt' (Nat.lt_trans hlt (by decide))]
    apply passes_of_plain
    · rintro rfl
      exact h₁ hn.symm
    · rw [UInt8.lt_iff_toNat_lt, hn]
      exact h₃
    · rintro rfl
      exact h₂ hn.symm
  · have hb := UInt8.le_iff_toNat_le.mp (le_of_mem_utf8EncodeChar (by omega) hb)
    change 0x80 ≤ b.toNat at hb
    apply passes_of_plain
    · rintro rfl
      exact absurd hb (by decide)
    · rw [UInt8.lt_iff_toNat_lt]
      change ¬b.toNat < 0x20
      omega
    · rintro rfl
      exact absurd hb (by decide)

/-- 一文字の書き出しは、短いエスケープ、制御文字のエスケープ、UTF-8 のいずれかである。 -/
@[elab_as_elim]
theorem escChar_cases {motive : List UInt8 → Prop} (c : Char)
    (simple : ∀ e ∈ [0x62, 0x66, 0x6E, 0x72, 0x74, 0x5C, 0x2F, 0x22], simpleEscape e = Char.ofNat c.toNat → motive [0x5C, e])
    (control : c.toNat < 0x20 →
      motive [0x5C, 0x75, 0x30, 0x30, hexDigit (c.toNat / 16), hexDigit (c.toNat % 16)])
    (utf8 : c.toNat ≠ 0x22 → c.toNat ≠ 0x5C → ¬c.toNat < 0x20 → motive (String.utf8EncodeChar c)) :
    motive (escChar c) := by
  unfold escChar
  refine iteInduction (fun h₁ => simple _ (by decide) (by rw [h₁]; rfl)) fun _ => ?_
  refine iteInduction (fun h₂ => simple _ (by decide) (by rw [h₂]; rfl)) fun _ => ?_
  refine iteInduction (fun h₃ => simple _ (by decide) (by rw [h₃]; rfl)) fun _ => ?_
  refine iteInduction (fun h₄ => simple _ (by decide) (by rw [h₄]; rfl)) fun _ => ?_
  refine iteInduction (fun h₅ => simple _ (by decide) (by rw [h₅]; rfl)) fun _ => ?_
  refine iteInduction (fun h₆ => simple _ (by decide) (by rw [h₆]; rfl)) fun h₆ => ?_
  refine iteInduction (fun h₇ => simple _ (by decide) (by rw [h₇]; rfl)) fun h₇ => ?_
  exact iteInduction control (utf8 h₆ h₇)

theorem passes_escChar (c : Char) : Passes (escChar c) :=
  escChar_cases c (fun _ he _ => passes_escape he) passes_unicode passes_utf8EncodeChar

theorem passes_esc (s : String) : Passes (esc s) := by
  rw [esc]
  induction s.toList with
  | nil => exact .nil
  | cons c l ih => exact (passes_escChar c).append ih

theorem scanString_esc (s : String) (t : List UInt8) : scanString (esc s ++ 0x22 :: t) = some (esc s, t) := by
  rw [scanString, passes_esc]
  simp [scanFrom]

/-- 閉じる引用符のない始めの部分は、文字列ではない。 -/
theorem scanString_cut {s : String} {p q t raw rest : List UInt8} (h : p ++ q = esc s ++ 0x22 :: t)
    (hscan : scanString p = some (raw, rest)) : raw = esc s ∧ rest ++ q = t := by
  have happ := scanFrom_append hscan q
  rw [h] at happ
  have hfull := scanString_esc s t
  rw [scanString, happ] at hfull
  simpa using hfull

/-! ## エスケープの往復 -/

theorem decodeRune_utf8EncodeChar (c : Char) (t : List UInt8) :
    decodeRune (String.utf8EncodeChar c ++ t) = (c, c.utf8Size) := by
  rw [decodeRune, List.toByteArray_append, ByteArray.utf8DecodeChar?_utf8EncodeChar_append]

theorem unquoteN_simple {e : UInt8} (he : e ≠ 0x75) (n : Nat) (t : List UInt8) :
    unquoteN (n + 1) (0x5C :: e :: t) = simpleEscape e :: unquoteN n t := by
  simp [unquoteN, he]

theorem unquoteUnicode_control {k : Nat} (hk : k < 0x20) (t : List UInt8) :
    unquoteUnicode (0x5C :: 0x75 :: 0x30 :: 0x30 :: hexDigit (k / 16) :: hexDigit (k % 16) :: t) =
      (Char.ofNat k, t) := by
  have h₀ : unhex 0x30 = some 0 := by decide
  have hu : getu4 (0x5C :: 0x75 :: 0x30 :: 0x30 :: hexDigit (k / 16) :: hexDigit (k % 16) :: t) = some (k, t) := by
    simp only [getu4, h₀, unhex_hexDigit (show k / 16 < 16 by omega), unhex_hexDigit (show k % 16 < 16 by omega)]
    simp
    omega
  have hs : ¬(0xD800 ≤ k ∧ k < 0xE000) := by omega
  simp only [unquoteUnicode, hu, hs, if_false]

theorem unquoteN_utf8EncodeChar {c : Char} (h : c.toNat ≠ 0x5C) (n : Nat) (t : List UInt8) :
    unquoteN (n + 1) (String.utf8EncodeChar c ++ t) = c :: unquoteN n t := by
  by_cases hlt : c.toNat < 0x80
  · have hn : (UInt8.ofNat c.toNat).toNat = c.toNat := UInt8.toNat_ofNat_of_lt' (Nat.lt_trans hlt (by decide))
    have h₁ : UInt8.ofNat c.toNat ≠ 0x5C := by
      intro h'
      rw [h'] at hn
      exact h hn.symm
    have h₂ : UInt8.ofNat c.toNat < 0x80 := by
      rw [UInt8.lt_iff_toNat_lt, hn]
      exact hlt
    simp [utf8EncodeChar_of_lt hlt, unquoteN, h₁, h₂, hn]
  · have hlen := String.length_utf8EncodeChar c
    cases henc : String.utf8EncodeChar c with
    | nil =>
        rw [henc] at hlen
        exact absurd hlen.symm (Nat.ne_of_gt c.utf8Size_pos)
    | cons b l =>
        have hc : 0x80 ≤ c.toNat := by omega
        have hb : 0x80 ≤ b := le_of_mem_utf8EncodeChar hc (by rw [henc]; simp)
        have h₁ : b ≠ 0x5C := by
          rintro rfl
          exact absurd hb (by decide)
        have h₂ : ¬b < 0x80 := by simpa using hb
        have hdec := decodeRune_utf8EncodeChar c t
        rw [henc, List.cons_append] at hdec
        have hdrop : (b :: (l ++ t)).drop c.utf8Size = t := by
          rw [henc] at hlen
          rw [← hlen, ← List.cons_append, List.drop_left]
        simp [unquoteN, h₁, h₂, hdec, hdrop]

theorem unquoteN_escChar (c : Char) (n : Nat) (t : List UInt8) :
    unquoteN (n + 1) (escChar c ++ t) = c :: unquoteN n t := by
  have hc : Char.ofNat c.toNat = c := Char.ofNat_toNat c
  refine escChar_cases c (fun e he hsimple => ?_) (fun hcontrol => ?_) fun _ hback _ => ?_
  · have hne : e ≠ 0x75 := by
      rintro rfl
      exact absurd he (by decide)
    rw [List.cons_append, List.cons_append, List.nil_append, unquoteN_simple hne, hsimple, hc]
  · simp only [List.cons_append, List.nil_append]
    rw [unquoteN]
    simp [unquoteUnicode_control hcontrol, hc]
  · exact unquoteN_utf8EncodeChar hback n t

theorem unquoteN_flatMap (l : List Char) {n : Nat} (h : l.length ≤ n) : unquoteN n (l.flatMap escChar) = l := by
  induction l generalizing n with
  | nil => cases n <;> simp [unquoteN]
  | cons c l ih =>
      cases n with
      | zero => simp at h
      | succ n =>
          rw [List.flatMap_cons, unquoteN_escChar, ih (by simpa using h)]

theorem escChar_ne_nil (c : Char) : escChar c ≠ [] := by
  refine escChar_cases c (fun _ _ _ => by simp) (fun _ => by simp) fun _ _ _ => ?_
  rw [ne_eq, ← List.length_eq_zero_iff, String.length_utf8EncodeChar]
  exact Nat.ne_of_gt c.utf8Size_pos

theorem length_le_flatMap (l : List Char) : l.length ≤ (l.flatMap escChar).length := by
  induction l with
  | nil => simp
  | cons c l ih =>
      have := List.length_pos_of_ne_nil (escChar_ne_nil c)
      simp only [List.length_cons, List.flatMap_cons, List.length_append]
      omega

/-- 書き出した文字列は、もとの文字列に戻る。 -/
theorem unquote_esc (s : String) : unquote (esc s) = s := by
  rw [unquote, esc, unquoteN_flatMap _ (length_le_flatMap _), String.ofList_toList]

/-! ## オブジェクトの読み取り -/

theorem skipSpace_cons {b : UInt8} (h : isSpace b = false) (s : List UInt8) : skipSpace (b :: s) = b :: s := by
  simp [skipSpace, h]

theorem parseValue_quote (n : Nat) (t : List UInt8) :
    parseValue (n + 1) (0x22 :: t) = (scanString t).map fun p => (.string p.1, p.2) := by
  simp [parseValue]

theorem parseObject_quote (n : Nat) (t : List UInt8) :
    parseObject (n + 1) (0x22 :: t) = parseMembers n (0x22 :: t) := by
  simp [parseObject]

/-- 組の読み取りが成り立つときの、始めの組と残り。 -/
theorem parseMembers_inv {n : Nat} {s rest : List UInt8} {ms : List (List UInt8 × Value)}
    (h : parseMembers n s = some (ms, rest)) :
    ∃ n' t key s₁ s₂ v s₃, n = n' + 1 ∧ s = 0x22 :: t ∧ scanString t = some (key, s₁) ∧
      skipSpace s₁ = 0x3A :: s₂ ∧ parseValue n' (skipSpace s₂) = some (v, s₃) ∧
      (skipSpace s₃ = 0x7D :: rest ∧ ms = [(key, v)] ∨
        ∃ s₄ ms', skipSpace s₃ = 0x2C :: s₄ ∧ parseMembers n' (skipSpace s₄) = some (ms', rest) ∧
          ms = (key, v) :: ms') := by
  have cons_of_head {l : List UInt8} {b : UInt8} (hl : l.head? = some b) : l = b :: l.tail := by
    cases l <;> simp_all
  cases n with
  | zero => simp [parseMembers] at h
  | succ n =>
      simp only [parseMembers, Option.bind_eq_bind] at h
      by_cases hquote : s.head? ≠ some 0x22
      · rw [if_pos hquote] at h
        cases h
      · rw [if_neg hquote] at h
        have hquote := cons_of_head (not_not.mp hquote)
        simp only [Option.bind_eq_some_iff] at h
        obtain ⟨⟨key, s₁⟩, hkey, h⟩ := h
        split at h
        · simp at h
        · next hcolon =>
            have hcolon := cons_of_head (not_not.mp hcolon)
            simp only [Option.bind_eq_some_iff] at h
            obtain ⟨⟨v, s₃⟩, hv, h⟩ := h
            refine ⟨n, s.tail, key, s₁, _, v, s₃, rfl, hquote, hkey, hcolon, hv, ?_⟩
            split at h
            · next hclose =>
                simp only [Option.some.injEq, Prod.mk.injEq] at h
                exact .inl ⟨by rw [← h.2]; exact cons_of_head hclose, h.1.symm⟩
            · split at h
              · next hcomma =>
                  simp only [Option.bind_eq_some_iff, Option.some.injEq, Prod.mk.injEq] at h
                  obtain ⟨⟨ms', s₅⟩, hms, rfl, rfl⟩ := h
                  exact .inr ⟨_, ms', cons_of_head hcomma, hms, rfl⟩
              · cases h

/-- 組を一つ読んだあとの続き。 -/
theorem parseMembers_step {n : Nat} {t key s₂ s₃ : List UInt8} {v : Value}
    (hkey : scanString t = some (key, 0x3A :: s₂)) (hv : parseValue n (skipSpace s₂) = some (v, s₃)) :
    parseMembers (n + 1) (0x22 :: t) =
      if (skipSpace s₃).head? = some 0x7D then some ([(key, v)], (skipSpace s₃).tail)
      else if (skipSpace s₃).head? = some 0x2C then
        (parseMembers n (skipSpace (skipSpace s₃).tail)).map fun p => ((key, v) :: p.1, p.2)
      else none := by
  have hcolon : skipSpace (0x3A :: s₂) = 0x3A :: s₂ := skipSpace_cons (by decide) s₂
  simp only [parseMembers, List.head?_cons, List.tail_cons, hkey, hcolon, hv, Option.bind_eq_bind, Option.bind_some,
    ne_eq, not_true_eq_false, if_false]
  cases parseMembers n (skipSpace (skipSpace s₃).tail) <;> rfl

theorem membersText_head {ms : List (String × String)} (hne : ms ≠ []) : ∃ u, membersText ms = 0x22 :: u := by
  match ms with
  | [(k, v)] => exact ⟨_, rfl⟩
  | (k, v) :: m :: ms => exact ⟨_, rfl⟩

theorem parseMembers_text (ms : List (String × String)) (hne : ms ≠ []) {n : Nat} (hn : ms.length < n)
    (t : List UInt8) :
    parseMembers n (membersText ms ++ t) = some (ms.map fun m => (esc m.1, .string (esc m.2)), t) := by
  induction ms generalizing n with
  | nil => exact absurd rfl hne
  | cons m ms ih =>
      obtain ⟨k, v⟩ := m
      obtain ⟨n, rfl⟩ : ∃ n', n = n' + 2 := ⟨n - 2, by simp at hn; omega⟩
      have hval (y : List UInt8) : parseValue (n + 1) (skipSpace (0x22 :: (esc v ++ 0x22 :: y))) =
          some (.string (esc v), y) := by
        rw [skipSpace_cons (by decide), parseValue_quote, scanString_esc]
        rfl
      cases ms with
      | nil =>
          have htext : membersText [(k, v)] ++ t =
              0x22 :: (esc k ++ 0x22 :: 0x3A :: 0x22 :: (esc v ++ 0x22 :: 0x7D :: t)) := by
            simp [membersText, quote]
          rw [htext, parseMembers_step (scanString_esc k _) (hval _), skipSpace_cons (by decide)]
          rfl
      | cons m ms =>
          obtain ⟨u, hu⟩ := membersText_head (List.cons_ne_nil m ms)
          have ih := ih (by simp) (n := n + 1) (by simpa using hn)
          have htext : membersText ((k, v) :: m :: ms) ++ t =
              0x22 :: (esc k ++ 0x22 :: 0x3A :: 0x22 :: (esc v ++ 0x22 :: 0x2C :: (membersText (m :: ms) ++ t))) := by
            simp [membersText, quote]
          have hskip : skipSpace (membersText (m :: ms) ++ t) = membersText (m :: ms) ++ t := by
            rw [hu]
            exact skipSpace_cons (by decide) _
          rw [htext, parseMembers_step (scanString_esc k _) (hval _), skipSpace_cons (by decide)]
          simp only [List.head?_cons, List.tail_cons, hskip, ih]
          rfl

/-- 空でない始めの部分は、もとの列と同じ字で始まる。 -/
theorem skipSpace_cut {s q y : List UInt8} {b : UInt8} (h : s ++ q = b :: y) (hs : s ≠ [])
    (hb : isSpace b = false) : ∃ s', skipSpace s = b :: s' ∧ s' ++ q = y := by
  rcases List.append_eq_cons_iff.mp h with ⟨rfl, -⟩ | ⟨s', rfl, hy⟩
  · exact absurd rfl hs
  · exact ⟨s', skipSpace_cons hb s', hy.symm⟩

/-- 終わりの欠けた組の列は読めない。 -/
theorem parseMembers_cut (ms : List (String × String)) {n : Nat} {p q : List UInt8} (hne : ms ≠ [])
    (h : p ++ q = membersText ms) (hq : q ≠ []) : parseMembers n p = none := by
  rw [Option.eq_none_iff_forall_ne_some]
  rintro ⟨members, rest⟩ hparse
  induction ms generalizing n p members with
  | nil => exact absurd rfl hne
  | cons m ms ih =>
      obtain ⟨k, v⟩ := m
      obtain ⟨n, t, key, s₁, s₂, x, s₃, rfl, rfl, hkey, hcolon, hval, hend⟩ := parseMembers_inv hparse
      obtain ⟨y, hy, hlast⟩ : ∃ y, membersText ((k, v) :: ms) =
          0x22 :: (esc k ++ 0x22 :: 0x3A :: 0x22 :: (esc v ++ 0x22 :: y)) ∧
          (y = [0x7D] ∨ ms ≠ [] ∧ y = 0x2C :: membersText ms) := by
        cases ms <;> simp [membersText, quote]
      rw [hy, List.cons_append] at h
      obtain ⟨-, h₁⟩ := scanString_cut (List.cons.inj h).2 hkey
      have hs₁ : s₁ ≠ [] := by
        rintro rfl
        simp [skipSpace] at hcolon
      obtain ⟨_, heq, h₂⟩ := skipSpace_cut h₁ hs₁ (by decide)
      rw [hcolon] at heq
      obtain rfl := (List.cons.inj heq).2
      have hs₂ : s₂ ≠ [] := by
        rintro rfl
        cases n <;> simp [skipSpace, parseValue] at hval
      obtain ⟨s, heq, h₂⟩ := skipSpace_cut h₂ hs₂ (by decide)
      rw [heq] at hval
      have h₃ : s₃ ++ q = y := by
        cases n with
        | zero => simp [parseValue] at hval
        | succ n =>
            rw [parseValue_quote, Option.map_eq_some_iff] at hval
            obtain ⟨⟨raw, s⟩, hscan, heq⟩ := hval
            obtain ⟨-, rfl⟩ := Prod.mk.inj heq
            exact (scanString_cut h₂ hscan).2
      have hs₃ : s₃ ≠ [] := by
        rintro rfl
        simp [skipSpace] at hend
      rcases hlast with rfl | ⟨hms, rfl⟩
      · obtain ⟨_, -, h₃⟩ := skipSpace_cut h₃ hs₃ (by decide)
        exact hq (List.append_eq_nil_iff.mp h₃).2
      · obtain ⟨s, heq, h₃⟩ := skipSpace_cut h₃ hs₃ (by decide)
        rw [heq] at hend
        rcases hend with ⟨hend, -⟩ | ⟨s₄, ms', hend, hrest, -⟩
        · simp at hend
        · obtain rfl := (List.cons.inj hend).2
          obtain ⟨u, hu⟩ := membersText_head hms
          have hs : s ≠ [] := by
            rintro rfl
            cases n <;> simp [skipSpace, parseMembers] at hrest
          rw [hu] at h₃
          obtain ⟨s', heq, h₄⟩ := skipSpace_cut h₃ hs (by decide)
          rw [heq] at hrest
          exact ih hms (by rw [hu, List.cons_append, h₄]) _ hrest

theorem le_hexDigit {n : Nat} (h : n < 16) : 0x20 ≤ hexDigit n := by
  revert n
  decide

theorem le_of_mem_escChar {c : Char} {b : UInt8} : b ∈ escChar c → 0x20 ≤ b := by
  refine escChar_cases c (fun e he _ hb => ?_) (fun hcontrol hb => ?_) fun _ _ hcontrol hb => ?_
  · simp only [List.mem_cons, List.not_mem_nil, or_false] at he hb
    rcases hb with rfl | rfl
    · decide
    · rcases he with rfl | rfl | rfl | rfl | rfl | rfl | rfl | rfl <;> decide
  · simp only [List.mem_cons, List.not_mem_nil, or_false] at hb
    rcases hb with rfl | rfl | rfl | rfl | rfl | rfl
    iterate 4 decide
    · exact le_hexDigit (by omega)
    · exact le_hexDigit (by omega)
  · by_cases hlt : c.toNat < 0x80
    · rw [utf8EncodeChar_of_lt hlt, List.mem_singleton] at hb
      rw [hb, UInt8.le_iff_toNat_le, UInt8.toNat_ofNat_of_lt' (Nat.lt_trans hlt (by decide))]
      change 0x20 ≤ c.toNat
      omega
    · exact UInt8.le_trans (by decide) (le_of_mem_utf8EncodeChar (by omega) hb)

theorem le_of_mem_quote {s : String} {b : UInt8} (hb : b ∈ quote s) : 0x20 ≤ b := by
  simp only [quote, List.mem_cons, List.mem_append, List.not_mem_nil, or_false] at hb
  rcases hb with rfl | hb | rfl
  · decide
  · obtain ⟨c, -, hb⟩ := List.mem_flatMap.mp hb
    exact le_of_mem_escChar hb
  · decide

theorem le_of_mem_membersText (ms : List (String × String)) {b : UInt8} (hb : b ∈ membersText ms) : 0x20 ≤ b := by
  induction ms with
  | nil =>
      rw [membersText, List.mem_singleton] at hb
      rw [hb]
      decide
  | cons m ms ih =>
      obtain ⟨k, v⟩ := m
      cases ms with
      | nil =>
          simp only [membersText, List.mem_append, List.mem_cons, List.not_mem_nil, or_false] at hb
          rcases hb with hb | rfl | hb | rfl
          · exact le_of_mem_quote hb
          · decide
          · exact le_of_mem_quote hb
          · decide
      | cons m ms =>
          simp only [membersText, List.mem_append, List.mem_cons] at hb
          rcases hb with hb | rfl | hb | rfl | hb
          · exact le_of_mem_quote hb
          · decide
          · exact le_of_mem_quote hb
          · decide
          · exact ih hb

/-- 書き出したオブジェクトに制御文字は現れない。 -/
theorem le_of_mem_objectText {ms : List (String × String)} {b : UInt8} (hb : b ∈ objectText ms) : 0x20 ≤ b := by
  rcases List.mem_cons.mp hb with rfl | hb
  · decide
  · exact le_of_mem_membersText ms hb

theorem getLast?_membersText (ms : List (String × String)) : (membersText ms).getLast? = some 0x7D := by
  induction ms with
  | nil => rfl
  | cons m ms ih =>
      cases ms with
      | nil => simp [membersText, quote, List.getLast?_cons]
      | cons m ms => simp [membersText, quote, List.getLast?_append, List.getLast?_cons, ih]

theorem length_lt_membersText (ms : List (String × String)) : ms.length < (membersText ms).length := by
  induction ms with
  | nil => simp [membersText]
  | cons m ms ih =>
      cases ms with
      | nil => simp [membersText]; omega
      | cons m ms =>
          simp only [membersText, List.length_append, List.length_cons] at ih ⊢
          omega

/-- 書き出したオブジェクトの読み取り。 -/
theorem parse_objectText {ms : List (String × String)} (hne : ms ≠ []) :
    parse (objectText ms) = some (.object (ms.map fun m => (esc m.1, .string (esc m.2)))) := by
  have hlen := length_lt_membersText ms
  have htext := parseMembers_text ms hne hlen []
  rw [List.append_nil] at htext
  obtain ⟨u, hu⟩ := membersText_head hne
  have hobject : parseObject ((membersText ms).length + 1) (skipSpace (membersText ms)) =
      parseMembers (membersText ms).length (membersText ms) := by
    rw [hu, skipSpace_cons (by decide), parseObject_quote]
  have hvalue : parseValue ((objectText ms).length + 1) (skipSpace (objectText ms)) =
      some (.object (ms.map fun m => (esc m.1, .string (esc m.2))), []) := by
    rw [objectText, skipSpace_cons (by decide), List.length_cons, parseValue]
    simp only [if_true, hobject, htext, Option.map_some]
  rw [parse, hvalue]
  rfl

/-! ## 値の途中から始まる列 -/

/-- 引用符の直前には必ず逆斜線がある。 -/
def Guarded (l : List UInt8) : Prop := ∀ a b, l = a ++ 0x22 :: b → a.getLast? = some 0x5C

theorem Guarded.append {l l' : List UInt8} (h : Guarded l) (h' : Guarded l') : Guarded (l ++ l') := by
  intro a b heq
  rcases List.append_eq_append_iff.mp heq with ⟨c, rfl, hc⟩ | ⟨c, rfl, hc⟩
  · have hlast := h' c b hc
    rw [List.getLast?_append, hlast, Option.some_or]
  · cases c with
    | nil =>
        have hlast := h' [] b (by simpa using hc.symm)
        simp at hlast
    | cons x c =>
        obtain ⟨rfl, -⟩ := List.cons.inj hc
        exact h a c rfl

theorem guarded_of_notMem {l : List UInt8} (h : 0x22 ∉ l) : Guarded l := by
  rintro a b rfl
  simp at h

theorem quote_notMem_utf8EncodeChar {c : Char} (h : c.toNat ≠ 0x22) : 0x22 ∉ String.utf8EncodeChar c := by
  intro hmem
  by_cases hlt : c.toNat < 0x80
  · rw [utf8EncodeChar_of_lt hlt, List.mem_singleton] at hmem
    have hn : (UInt8.ofNat c.toNat).toNat = c.toNat := UInt8.toNat_ofNat_of_lt' (Nat.lt_trans hlt (by decide))
    rw [← hmem] at hn
    exact h hn.symm
  · exact absurd (le_of_mem_utf8EncodeChar (by omega) hmem) (by decide)

theorem hexDigit_ne_quote {n : Nat} (h : n < 16) : hexDigit n ≠ 0x22 := by
  revert n
  decide

theorem guarded_escChar (c : Char) : Guarded (escChar c) := by
  refine escChar_cases c (fun e _ _ a b h => ?_) (fun hcontrol => ?_) fun hquote _ _ => ?_
  · match a with
    | [] => simp at h
    | [x] =>
        obtain ⟨rfl, -⟩ := List.cons.inj h
        rfl
    | x :: y :: a =>
        have := congrArg List.length h
        simp at this
  · have hhigh := hexDigit_ne_quote (n := c.toNat / 16) (by omega)
    have hlow := hexDigit_ne_quote (n := c.toNat % 16) (by omega)
    exact guarded_of_notMem (by simp [hhigh.symm, hlow.symm])
  · exact guarded_of_notMem (quote_notMem_utf8EncodeChar hquote)

theorem guarded_esc (s : String) : Guarded (esc s) := by
  rw [esc]
  induction s.toList with
  | nil => exact guarded_of_notMem (by simp)
  | cons c l ih => exact (guarded_escChar c).append ih

/-- 値のあとに続く列。最後の値か、次の組の始まりである。 -/
def Follows (F : List UInt8) : Prop :=
  F = [0x7D] ∨ ∃ b l, F = 0x2C :: 0x22 :: b :: l ∧ isSpace b = false ∧ b ≠ 0x3A

theorem not_colon_of_scanString {F t q key s₁ s₂ : List UInt8} (hF : Follows F) (h : t ++ q = F)
    (hkey : scanString t = some (key, s₁)) : skipSpace s₁ ≠ 0x3A :: s₂ := by
  have happ := scanFrom_append hkey q
  rw [h] at happ
  rcases hF with rfl | ⟨b, l, rfl, hb, hne⟩
  · simp [scanFrom, StringState.next] at happ
  · have hscan : scanFrom .plain (0x2C :: 0x22 :: b :: l) = some ([0x2C], b :: l) := by
      simp [scanFrom, StringState.next]
    rw [hscan] at happ
    obtain ⟨-, hs⟩ := Prod.mk.inj (Option.some.inj happ)
    intro hcolon
    have hs₁ : s₁ ≠ [] := by
      rintro rfl
      simp [skipSpace] at hcolon
    obtain ⟨s, heq, -⟩ := skipSpace_cut hs.symm hs₁ hb
    rw [hcolon] at heq
    exact hne (List.cons.inj heq).1.symm

/-- 値の途中の `{` から読めるのは、空のオブジェクトだけである。 -/
theorem parseObject_inner {s : String} {a R F p q rest : List UInt8} {n : Nat} {members : List (List UInt8 × Value)}
    (hF : Follows F) (hR : esc s = a ++ 0x7B :: R) (h : p ++ q = R ++ 0x22 :: F)
    (hparse : parseObject n (skipSpace p) = some (members, rest)) : members = [] := by
  cases n with
  | zero => simp [parseObject] at hparse
  | succ n =>
      rw [parseObject] at hparse
      split at hparse
      · exact (Prod.mk.inj (Option.some.inj hparse)).1.symm
      · obtain ⟨_, t, key, s₁, s₂, _, _, -, hquote, hkey, hcolon, -⟩ := parseMembers_inv hparse
        have hp : p = p.takeWhile isSpace ++ 0x22 :: t := by
          rw [← hquote, skipSpace, List.takeWhile_append_dropWhile]
        have hspace : ∀ b ∈ p.takeWhile isSpace, isSpace b = true := fun b hb => List.mem_takeWhile_imp hb
        generalize p.takeWhile isSpace = w at hp hspace
        rw [hp, List.append_assoc, List.cons_append] at h
        -- 最初の引用符は、値を閉じる引用符である。
        have ht : t ++ q = F := by
          rcases List.append_eq_append_iff.mp h with ⟨c, rfl, hc⟩ | ⟨c, rfl, hc⟩
          · cases c with
            | nil => exact (List.cons.inj hc).2
            | cons b c =>
                obtain ⟨rfl, -⟩ := List.cons.inj hc
                have hlast := guarded_esc s (a ++ 0x7B :: w) c (by simp [hR])
                rw [List.getLast?_append] at hlast
                have hmem : (0x5C : UInt8) ∈ (0x7B : UInt8) :: w := by
                  apply List.mem_of_getLast?
                  simpa using hlast
                rcases List.mem_cons.mp hmem with hmem | hmem
                · exact absurd hmem (by decide)
                · exact absurd (hspace _ hmem) (by decide)
          · cases c with
            | nil => exact (List.cons.inj hc).2.symm
            | cons b c =>
                obtain ⟨rfl, -⟩ := List.cons.inj hc
                exact absurd (hspace 0x22 (by simp)) (by decide)
        exact absurd hcolon (not_colon_of_scanString hF ht hkey)

/-- 空白やコロンで始まらず、`{` を含まない鍵。 -/
def PlainKey (k : String) : Prop := ∃ b l, esc k = b :: l ∧ isSpace b = false ∧ b ≠ 0x3A ∧ 0x7B ∉ esc k

theorem exists_of_append_cons {x y a z : List UInt8} {c : UInt8} (hc : c ∉ x) (h : x ++ y = a ++ c :: z) :
    ∃ a', y = a' ++ c :: z := by
  rcases List.append_eq_append_iff.mp h with ⟨d, -, hd⟩ | ⟨d, rfl, hd⟩
  · exact ⟨d, hd⟩
  · cases d with
    | nil => exact ⟨[], hd.symm⟩
    | cons b d =>
        obtain ⟨rfl, -⟩ := List.cons.inj hd
        simp at hc

/-- 始めの `{` のほかの `{` は、どれも値の中にある。 -/
theorem membersText_brace (ms : List (String × String)) (hne : ms ≠ []) (hkeys : ∀ m ∈ ms, PlainKey m.1)
    {a z : List UInt8} (h : membersText ms = a ++ 0x7B :: z) :
    ∃ s a' R F, Follows F ∧ esc s = a' ++ 0x7B :: R ∧ z = R ++ 0x22 :: F := by
  induction ms generalizing a with
  | nil => exact absurd rfl hne
  | cons m ms ih =>
      obtain ⟨k, v⟩ := m
      obtain ⟨⟨_, _, -, -, -, hk⟩, hrest⟩ := List.forall_mem_cons.mp hkeys
      obtain ⟨y, hy, hF, hnext⟩ : ∃ y, membersText ((k, v) :: ms) =
          (0x22 :: (esc k ++ [0x22, 0x3A, 0x22])) ++ (esc v ++ 0x22 :: y) ∧ Follows y ∧
          (∀ a', y = a' ++ 0x7B :: z → ∃ a'', ms ≠ [] ∧ membersText ms = a'' ++ 0x7B :: z) := by
        cases ms with
        | nil =>
            have hout (a' : List UInt8) (h' : [0x7D] = a' ++ 0x7B :: z) : False := by
              have hmem : (0x7B : UInt8) ∈ [0x7D] := by rw [h']; simp
              simp at hmem
            exact ⟨[0x7D], by simp [membersText, quote], .inl rfl, fun a' h' => (hout a' h').elim⟩
        | cons m ms =>
            obtain ⟨b, l, hb, hspace, hcolon, -⟩ := hkeys m (by simp)
            have hF : Follows (0x2C :: membersText (m :: ms)) := by
              cases ms <;> exact .inr ⟨b, _, by simp [membersText, quote, hb]; rfl, hspace, hcolon⟩
            exact ⟨_, by simp [membersText, quote], hF, fun a' h' =>
              (exists_of_append_cons (x := [0x2C]) (by decide) h').imp fun _ h => ⟨by simp, h⟩⟩
      rw [hy] at h
      obtain ⟨a', h⟩ := exists_of_append_cons (by simp [hk]) h
      rcases List.append_eq_append_iff.mp h with ⟨c, -, hc⟩ | ⟨c, hv, hc⟩
      · obtain ⟨a'', hc⟩ := exists_of_append_cons (x := [0x22]) (by decide) hc
        obtain ⟨_, hms, hz⟩ := hnext a'' hc
        exact ih hms hrest hz
      · cases c with
        | nil => simp at hc
        | cons b R =>
            obtain ⟨rfl, hz⟩ := List.cons.inj hc
            exact ⟨v, a', R, y, hF, hv, hz⟩

theorem parseValue_object {n : Nat} {s rest : List UInt8} {members : List (List UInt8 × Value)}
    (h : parseValue n s = some (.object members, rest)) :
    ∃ n' t, s = 0x7B :: t ∧ parseObject n' (skipSpace t) = some (members, rest) := by
  cases n with
  | zero => simp [parseValue] at h
  | succ n =>
      cases s with
      | nil => simp [parseValue] at h
      | cons b t =>
          rw [parseValue] at h
          split_ifs at h with hb <;> simp [literal] at h
          subst hb
          exact ⟨n, t, rfl, h⟩

/-- オブジェクトの一部から読めるオブジェクトは、空でなければ全体である。 -/
theorem parse_part {ms : List (String × String)} (hne : ms ≠ []) (hkeys : ∀ m ∈ ms, PlainKey m.1)
    {p : List UInt8} (h : p <:+: objectText ms) {members : List (List UInt8 × Value)}
    (hparse : parse p = some (.object members)) (hmembers : members ≠ []) : p = objectText ms := by
  obtain ⟨a, q, h⟩ := h
  obtain ⟨⟨v, rest⟩, hv, hend⟩ := Option.bind_eq_some_iff.mp hparse
  obtain rfl : v = .object members := by
    dsimp only at hend
    split at hend
    · cases hend
    · exact Option.some.inj hend
  obtain ⟨n, t, ht, hobject⟩ := parseValue_object hv
  have hp : p = p.takeWhile isSpace ++ 0x7B :: t := by
    rw [← ht, skipSpace, List.takeWhile_append_dropWhile]
  generalize p.takeWhile isSpace = w at hp
  have hsplit : (a ++ w) ++ 0x7B :: (t ++ q) = 0x7B :: membersText ms := by
    rw [← objectText, ← h, hp]
    simp
  cases haw : a ++ w with
  | nil =>
      obtain ⟨rfl, rfl⟩ := List.append_eq_nil_iff.mp haw
      have htext : t ++ q = membersText ms := by simpa using hsplit
      obtain ⟨u, hu⟩ := membersText_head hne
      cases n with
      | zero => simp [parseObject] at hobject
      | succ n =>
          rcases List.append_eq_cons_iff.mp (htext.trans hu) with ⟨rfl, -⟩ | ⟨t', rfl, -⟩
          · cases n <;> simp [skipSpace, parseObject, parseMembers] at hobject
          · rw [skipSpace_cons (by decide), parseObject_quote] at hobject
            by_cases hq : q = []
            · rw [hp, objectText, ← htext, hq]
              simp
            · rw [parseMembers_cut ms hne htext hq] at hobject
              cases hobject
  | cons b c =>
      rw [haw, List.cons_append] at hsplit
      obtain ⟨-, hsplit⟩ := List.cons.inj hsplit
      obtain ⟨s, a', R, F, hF, hs, hz⟩ := membersText_brace ms hne hkeys hsplit.symm
      exact absurd (parseObject_inner hF hs hz hobject) hmembers

end RtcEgress.Lib.Json
