import RtcEgress.Wire.Lexer
import RtcEgress.Wire.Marshal

/-!
# `src/nlohmann/json.hpp` の構文

`parser::sax_parse_internal` と `json_sax_dom_parser` を、途中の配列とオブジェクトを積む一つの機械として写す。積んだものは、
始まりでなく終わりで親に入れるが、例外が出れば値はどこにも残らない。`Json.marshal` の書いた列を、この機械は値に戻す。
-/

namespace RtcEgress.Wire.SaxDom

open RtcEgress.Lib RtcEgress.Lib.Json
open RtcEgress.Queue (Json Payload)
open Lexer (Token Delimited)

/-! ## 機械 -/

/-- `std::map` の `operator[]` への代入。 -/
def assign (fields : Payload) (key : String) (v : Json) : Payload :=
  match fields with
  | [] => [(key, v)]
  | field :: rest =>
      if field.1 = key then (key, v) :: rest
      else if key < field.1 then (key, v) :: field :: rest
      else field :: assign rest key v

/-- 途中の配列と、鍵の値を待つオブジェクト。 -/
inductive Frame where
  | array (items : List Json)
  | object (fields : Payload) (key : String)

/-- `evaluate` は、値を一つ読み終えた後である。 -/
inductive Config where
  | value (last : Token) (stack : List Frame) (input : Bytes)
  | evaluate (v : Json) (stack : List Frame) (input : Bytes)

/-- 次の字句から値を読む。 -/
def next (stack : List Frame) (s : Bytes) : Config := .value (Lexer.scan s).1 stack (Lexer.scan s).2

/-- 鍵の字句と `:`。 -/
def readKey (fields : Payload) (stack : List Frame) (last : Token) (s : Bytes) : Option Config :=
  match last with
  | .valueString key =>
      match Lexer.scan s with
      | (.nameSeparator, s) => some (next (.object fields key :: stack) s)
      | _ => none
  | _ => none

/-- 一つの繰り返し。構文の誤りは `none` である。 -/
def step : Config → Option Config
  | .value .beginObject stack s =>
      match Lexer.scan s with
      | (.endObject, s) => some (.evaluate (.obj []) stack s)
      | (last, s) => readKey [] stack last s
  | .value .beginArray stack s =>
      match Lexer.scan s with
      | (.endArray, s) => some (.evaluate (.arr []) stack s)
      | (last, s) => some (.value last (.array [] :: stack) s)
  | .value (.literal v) stack s => some (.evaluate v stack s)
  | .value (.valueString v) stack s => some (.evaluate (.str v) stack s)
  | .value (.valueNumber q) stack s => some (.evaluate (.num q) stack s)
  | .value _ _ _ => none
  | .evaluate v (.array items :: stack) s =>
      match Lexer.scan s with
      | (.valueSeparator, s) => some (next (.array (items ++ [v]) :: stack) s)
      | (.endArray, s) => some (.evaluate (.arr (items ++ [v])) stack s)
      | _ => none
  | .evaluate v (.object fields key :: stack) s =>
      match Lexer.scan s with
      | (.valueSeparator, s) => readKey (assign fields key v) stack (Lexer.scan s).1 (Lexer.scan s).2
      | (.endObject, s) => some (.evaluate (.obj (assign fields key v)) stack s)
      | _ => none
  | .evaluate _ [] _ => none

/-- 繰り返しごとに減る長さ。 -/
def Config.size : Config → Nat
  | .value last _ s => 2 * s.length + last.weight
  | .evaluate _ _ s => 2 * s.length

theorem length_of_scan {s s' : Bytes} {last : Token} (h : Lexer.scan s = (last, s')) :
    s'.length + last.weight ≤ s.length := by
  have hle := Lexer.within_scan s
  rwa [h] at hle

theorem size_next_le (stack : List Frame) (s : Bytes) : (next stack s).size ≤ 2 * s.length := by
  have hle : (Lexer.scan s).2.length + (Lexer.scan s).1.weight ≤ s.length := Lexer.within_scan s
  simp only [next, Config.size]
  omega

theorem size_readKey_le {fields : Payload} {stack : List Frame} {last : Token} {s : Bytes} {c : Config}
    (h : readKey fields stack last s = some c) : c.size ≤ 2 * s.length := by
  unfold readKey at h
  split at h
  next key =>
    split at h
    next s' hscan =>
      cases h
      have hle : s'.length + 1 ≤ s.length := length_of_scan hscan
      have hnext := size_next_le (.object fields key :: stack) s'
      omega
    · cases h
  · cases h

/-- どの入力でも、繰り返しは終わる。 -/
theorem size_step_lt {c c' : Config} (h : step c = some c') : c'.size < c.size := by
  cases c with
  | value last stack s =>
      cases last
      case beginObject =>
        change c'.size < 2 * s.length + 1
        simp only [step] at h
        split at h
        next s' hscan =>
          cases h
          have hle : s'.length + 1 ≤ s.length := length_of_scan hscan
          change 2 * s'.length < _
          omega
        next last s' _ hscan =>
          have hle := length_of_scan hscan
          have hkey := size_readKey_le h
          omega
      case beginArray =>
        change c'.size < 2 * s.length + 1
        simp only [step] at h
        split at h
        next s' hscan =>
          cases h
          have hle : s'.length + 1 ≤ s.length := length_of_scan hscan
          change 2 * s'.length < _
          omega
        next last s' _ hscan =>
          cases h
          have hle := length_of_scan hscan
          change 2 * s'.length + last.weight < _
          omega
      case literal | valueString | valueNumber =>
        cases h
        exact Nat.lt_succ_self _
      all_goals cases h
  | evaluate v stack s =>
      change c'.size < 2 * s.length
      cases stack with
      | nil => cases h
      | cons frame stack =>
          cases frame with
          | array items =>
              simp only [step] at h
              split at h
              next s' hscan =>
                cases h
                have hle : s'.length + 1 ≤ s.length := length_of_scan hscan
                have hnext := size_next_le (.array (items ++ [v]) :: stack) s'
                omega
              next s' hscan =>
                cases h
                have hle : s'.length + 1 ≤ s.length := length_of_scan hscan
                change 2 * s'.length < _
                omega
              · cases h
          | object fields key =>
              simp only [step] at h
              split at h
              next s' hscan =>
                have hle : s'.length + 1 ≤ s.length := length_of_scan hscan
                have hle' : (Lexer.scan s').2.length + (Lexer.scan s').1.weight ≤ s'.length := Lexer.within_scan s'
                have hkey := size_readKey_le h
                omega
              next s' hscan =>
                cases h
                have hle : s'.length + 1 ≤ s.length := length_of_scan hscan
                change 2 * s'.length < _
                omega
              · cases h

/-- 積んだものがなくなるまで繰り返す。 -/
def run (c : Config) : Option (Json × Bytes) :=
  match _h : step c with
  | some c' => run c'
  | none =>
      match c with
      | .evaluate v [] s => some (v, s)
      | _ => none
termination_by c.size
decreasing_by exact size_step_lt _h

/-- `json::parse`。値の後に字句があれば誤りである。 -/
def parse (s : Bytes) : Option Json := do
  let s ← Lexer.skipBom s
  let (v, rest) ← run (next [] s)
  match (Lexer.scan rest).1 with
  | .endOfInput => some v
  | _ => none

/-! ## 書いた列の読み取り -/

mutual
/-- 読んだ値。オブジェクトの欄は、鍵の順に並ぶ。 -/
def stored : Json → Json
  | .null => .null
  | .bool b => .bool b
  | .num q => .num q
  | .str s => .str s
  | .arr xs => .arr (storedItems xs)
  | .obj fields => .obj (storedFields [] fields)

def storedItems : List Json → List Json
  | [] => []
  | x :: xs => stored x :: storedItems xs

def storedFields (acc : Payload) : List (String × Json) → Payload
  | [] => acc
  | (name, value) :: fields => storedFields (assign acc name (stored value)) fields
end

mutual
/-- 数は、64 ビットの整数である。 -/
def Integral : Json → Prop
  | .num q => (q.num : Rat) = q ∧ inInt64 q.num = true
  | .arr xs => IntegralItems xs
  | .obj fields => IntegralFields fields
  | _ => True

def IntegralItems : List Json → Prop
  | [] => True
  | x :: xs => Integral x ∧ IntegralItems xs

def IntegralFields : List (String × Json) → Prop
  | [] => True
  | (_, value) :: fields => Integral value ∧ IntegralFields fields
end

theorem run_step {c c' : Config} (h : step c = some c') : run c = run c' := by
  rw [run]
  split
  next hstep =>
    cases h.symm.trans hstep
    rfl
  next hstep => cases h.symm.trans hstep

theorem run_finished (v : Json) (s : Bytes) : run (.evaluate v [] s) = some (v, s) := by
  rw [run]
  rfl

section
variable {stack : List Frame} {t : Bytes}

theorem delimited_cons {b : UInt8} (h : Lexer.NumberState.any1.next b = none) : Delimited (b :: t) := by
  intro b' hb'
  cases hb'
  exact h

/-- 書いた列の始めの字句から、書いた値を読み終える。 -/
structure Parsed (j : Json) (t : Bytes) (last : Token) (s : Bytes) : Prop where
  token : Lexer.scan (encode j ++ t) = (last, s)
  ne_endArray : last ≠ .endArray
  run_eq : ∀ stack, run (.value last stack s) = run (.evaluate (stored j) stack t)

/-- 途中の配列に、残りの値を加え終える。 -/
structure ParsedItems (xs : List Json) (t : Bytes) (last : Token) (s : Bytes) : Prop where
  token : Lexer.scan (encodeItems xs ++ t) = (last, s)
  ne_endArray : last ≠ .endArray
  run_eq : ∀ items stack, run (.value last (.array items :: stack) s) =
    run (.evaluate (.arr (items ++ storedItems xs)) stack t)

/-- 途中のオブジェクトに、残りの欄を加え終える。 -/
structure ParsedFields (fields : Payload) (t : Bytes) (last : Token) (s : Bytes) : Prop where
  token : Lexer.scan (encodeFields fields ++ t) = (last, s)
  ne_endObject : last ≠ .endObject
  run_eq : ∀ acc stack, ∃ c, readKey acc stack last s = some c ∧
    run c = run (.evaluate (.obj (storedFields acc fields)) stack t)

theorem run_beginArray {last : Token} {s s' : Bytes} (hscan : Lexer.scan s = (last, s')) (hne : last ≠ .endArray) :
    run (.value .beginArray stack s) = run (.value last (.array [] :: stack) s') := by
  apply run_step
  simp only [step, hscan]

theorem run_beginObject {last : Token} {s s' : Bytes} {c : Config} (hscan : Lexer.scan s = (last, s'))
    (hne : last ≠ .endObject) (hkey : readKey [] stack last s' = some c) : run (.value .beginObject stack s) = run c := by
  apply run_step
  simp only [step, hscan]
  exact hkey

theorem run_separator {v : Json} {items : List Json} {s : Bytes} :
    run (.evaluate v (.array items :: stack) (0x2C :: s)) = run (next (.array (items ++ [v]) :: stack) s) :=
  run_step rfl

theorem run_endArray {v : Json} {items : List Json} {s : Bytes} :
    run (.evaluate v (.array items :: stack) (0x5D :: s)) = run (.evaluate (.arr (items ++ [v])) stack s) :=
  run_step rfl

/-- 区切りの後の鍵を読む。 -/
theorem run_nextField {v : Json} {fields : Payload} {key : String} {last : Token} {s s' : Bytes} {c : Config}
    (hscan : Lexer.scan s = (last, s')) (hkey : readKey (assign fields key v) stack last s' = some c) :
    run (.evaluate v (.object fields key :: stack) (0x2C :: s)) = run c := by
  have hstep : step (.evaluate v (.object fields key :: stack) (0x2C :: s)) =
      readKey (assign fields key v) stack (Lexer.scan s).1 (Lexer.scan s).2 := rfl
  rw [hscan] at hstep
  exact run_step (hstep.trans hkey)

theorem readKey_colon {fields : Payload} {key : String} {last : Token} {s s' : Bytes} (hscan : Lexer.scan s = (last, s')) :
    readKey fields stack (.valueString key) (0x3A :: s) = some (.value last (.object fields key :: stack) s') := by
  have hkey : readKey fields stack (.valueString key) (0x3A :: s) = some (next (.object fields key :: stack) s) := rfl
  rw [hkey, next, hscan]

theorem run_endObject {v : Json} {fields : Payload} {key : String} {s : Bytes} :
    run (.evaluate v (.object fields key :: stack) (0x7D :: s)) = run (.evaluate (.obj (assign fields key v)) stack s) :=
  run_step rfl

mutual
theorem exists_parsed (j : Json) (hj : Integral j) {t : Bytes} (ht : Delimited t) : ∃ last s, Parsed j t last s := by
  match j with
  | .null => exact ⟨.literal .null, t, rfl, by simp, fun stack => run_step rfl⟩
  | .bool true => exact ⟨.literal (.bool true), t, rfl, by simp, fun stack => run_step rfl⟩
  | .bool false => exact ⟨.literal (.bool false), t, rfl, by simp, fun stack => run_step rfl⟩
  | .str s => exact ⟨.valueString s, t, Lexer.scan_marshalString s t, by simp, fun stack => run_step rfl⟩
  | .num q =>
      have hscan : Lexer.scan (encode (.num q) ++ t) = (.valueNumber q, t) := by
        rw [encode, Lexer.scan_marshalInt hj.2 ht, hj.1]
      exact ⟨.valueNumber q, t, hscan, by simp, fun stack => run_step rfl⟩
  | .arr [] => exact ⟨.beginArray, 0x5D :: t, rfl, by simp, fun stack => run_step rfl⟩
  | .arr (x :: xs) =>
      obtain ⟨last, s, h⟩ := exists_parsedItems (x :: xs) (by simp) hj t
      refine ⟨.beginArray, encodeItems (x :: xs) ++ t, rfl, by simp, fun stack => ?_⟩
      rw [run_beginArray h.token h.ne_endArray, h.run_eq, List.nil_append, stored]
  | .obj [] => exact ⟨.beginObject, 0x7D :: t, rfl, by simp, fun stack => run_step rfl⟩
  | .obj (field :: fields) =>
      obtain ⟨last, s, h⟩ := exists_parsedFields (field :: fields) (by simp) hj t
      refine ⟨.beginObject, encodeFields (field :: fields) ++ t, rfl, by simp, fun stack => ?_⟩
      obtain ⟨c, hkey, hrun⟩ := h.run_eq [] stack
      rw [run_beginObject h.token h.ne_endObject hkey, hrun, stored]

theorem exists_parsedItems (xs : List Json) (hne : xs ≠ []) (hxs : IntegralItems xs) (t : Bytes) :
    ∃ last s, ParsedItems xs t last s := by
  match xs with
  | [] => exact absurd rfl hne
  | [x] =>
      have ht : Delimited (0x5D :: t) := delimited_cons rfl
      obtain ⟨last, s, h⟩ := exists_parsed x hxs.1 ht
      refine ⟨last, s, ?_, h.ne_endArray, fun items stack => ?_⟩
      · rw [← h.token]
        simp [encodeItems]
      · rw [h.run_eq, run_endArray, storedItems, storedItems]
  | x :: y :: ys =>
      have ht : Delimited (0x2C :: (encodeItems (y :: ys) ++ t)) := delimited_cons rfl
      obtain ⟨last, s, h⟩ := exists_parsed x hxs.1 ht
      obtain ⟨last', s', h'⟩ := exists_parsedItems (y :: ys) (by simp) hxs.2 t
      refine ⟨last, s, ?_, h.ne_endArray, fun items stack => ?_⟩
      · rw [← h.token]
        simp [encodeItems]
      · have hnext : next (.array (items ++ [stored x]) :: stack) (encodeItems (y :: ys) ++ t) =
            .value last' (.array (items ++ [stored x]) :: stack) s' := by
          rw [next, h'.token]
        rw [h.run_eq, run_separator, hnext, h'.run_eq, List.append_assoc, List.singleton_append]
        rfl

theorem exists_parsedFields (fields : Payload) (hne : fields ≠ []) (hfields : IntegralFields fields) (t : Bytes) :
    ∃ last s, ParsedFields fields t last s := by
  match fields with
  | [] => exact absurd rfl hne
  | [(name, value)] =>
      have ht : Delimited (0x7D :: t) := delimited_cons rfl
      obtain ⟨last, s, h⟩ := exists_parsed value hfields.1 ht
      refine ⟨.valueString name, 0x3A :: (encode value ++ 0x7D :: t), ?_, by simp, fun acc stack => ?_⟩
      · rw [← Lexer.scan_marshalString]
        simp [encodeFields]
      · refine ⟨_, readKey_colon h.token, ?_⟩
        rw [h.run_eq, run_endObject]
        rfl
  | (name, value) :: field :: rest =>
      have ht : Delimited (0x2C :: (encodeFields (field :: rest) ++ t)) := delimited_cons rfl
      obtain ⟨last, s, h⟩ := exists_parsed value hfields.1 ht
      obtain ⟨last', s', h'⟩ := exists_parsedFields (field :: rest) (by simp) hfields.2 t
      refine ⟨.valueString name, 0x3A :: (encode value ++ 0x2C :: (encodeFields (field :: rest) ++ t)), ?_, by simp,
        fun acc stack => ?_⟩
      · rw [← Lexer.scan_marshalString]
        simp [encodeFields]
      · obtain ⟨c, hkey, hrun⟩ := h'.run_eq (assign acc name (stored value)) stack
        refine ⟨_, readKey_colon h.token, ?_⟩
        rw [h.run_eq, run_nextField h'.token hkey, hrun]
        rfl
end

end

theorem skipBom_encode (j : Json) : Lexer.skipBom (encode j) = some (encode j) := by
  have hhead : (encode j).head? ≠ some 0xEF := by
    cases j with
    | null => decide
    | bool b => cases b <;> decide
    | num q =>
        intro hhead
        obtain ⟨b, l, hmarshal, hb, -⟩ := Lexer.scanNumber_marshalInt q.num (t := []) (by simp [Delimited])
        rw [encode, hmarshal] at hhead
        cases hhead
        revert hb
        decide
    | str s => simp [encode, marshalString]
    | arr xs => simp [encode]
    | obj fields => simp [encode]
  rw [Lexer.skipBom, if_neg hhead]

/-- 主な結果。書いた列は、書いた値に戻る。 -/
theorem parse_encode {j : Json} (h : Integral j) : parse (encode j) = some (stored j) := by
  obtain ⟨last, s, hparsed⟩ := exists_parsed j h (t := []) (by simp [Delimited])
  have hnext : next [] (encode j) = .value last [] s := by
    rw [next, ← List.append_nil (encode j), hparsed.token]
  rw [parse, skipBom_encode, Option.bind_eq_bind, Option.bind_some, hnext, hparsed.run_eq, run_finished]
  rfl

end RtcEgress.Wire.SaxDom
