import RtcEgress.Lib.Marshal
import RtcEgress.Wire.LineMessageBuffer
import RtcEgress.Wire.UDSMessage

/-!
# ワーカーに書く行

`sendUDSMessageToWorker` が書くバイトの列と、その長さである。
-/

namespace RtcEgress.Wire

open RtcEgress.Lib RtcEgress.Lib.Json RtcEgress.Queue

/-! ## 書き出し -/

mutual
/-- `json.Marshal`。構造体の数の欄は整数なので、数は整数だけを書く。 -/
def encode : Json → Bytes
  | .null => utf8 "null"
  | .bool b => if b then utf8 "true" else utf8 "false"
  | .num q => marshalInt q.num
  | .str s => marshalString s
  | .arr xs => 0x5B :: encodeItems xs
  | .obj fields => 0x7B :: encodeFields fields

/-- 始めの `[` を除いた配列。 -/
def encodeItems : List Json → Bytes
  | [] => [0x5D]
  | x :: xs => encode x ++ ((if xs.isEmpty then [] else [0x2C]) ++ encodeItems xs)

/-- 始めの `{` を除いたオブジェクト。 -/
def encodeFields : List (String × Json) → Bytes
  | [] => [0x7D]
  | (name, value) :: fields =>
      marshalString name ++ 0x3A :: encode value ++ ((if fields.isEmpty then [] else [0x2C]) ++ encodeFields fields)
end

/-- `sendUDSMessageToWorker` が書く、改行までの行。 -/
def line (taskID : String) (m : Message.UDSMessage) : Bytes := encode (sendUDSMessageToWorker taskID m)

/-! ## 改行を含まないこと -/

theorem le_of_mem_separator {empty : Bool} {b : UInt8} (hb : b ∈ if empty then [] else [(0x2C : UInt8)]) : 0x20 ≤ b := by
  split at hb
  · simp at hb
  · rw [List.mem_singleton] at hb
    rw [hb]
    decide

theorem le_of_all {l : Bytes} (h : (l.all fun b => 0x20 ≤ b) = true) {b : UInt8} (hb : b ∈ l) : 0x20 ≤ b := by
  simpa using List.all_eq_true.mp h b hb

mutual
theorem le_of_mem_encode {b : UInt8} (j : Json) (hb : b ∈ encode j) : 0x20 ≤ b := by
  match j with
  | .null => exact le_of_all rfl hb
  | .bool true => exact le_of_all rfl hb
  | .bool false => exact le_of_all rfl hb
  | .num q => exact le_of_mem_marshalInt hb
  | .str s => exact le_of_mem_marshalString hb
  | .arr xs =>
      rw [encode, List.mem_cons] at hb
      rcases hb with rfl | hb
      · decide
      · exact le_of_mem_encodeItems xs hb
  | .obj fields =>
      rw [encode, List.mem_cons] at hb
      rcases hb with rfl | hb
      · decide
      · exact le_of_mem_encodeFields fields hb

theorem le_of_mem_encodeItems {b : UInt8} (xs : List Json) (hb : b ∈ encodeItems xs) : 0x20 ≤ b := by
  match xs with
  | [] =>
      rw [encodeItems, List.mem_singleton] at hb
      rw [hb]
      decide
  | x :: xs =>
      simp only [encodeItems, List.mem_append] at hb
      rcases hb with hb | hb | hb
      · exact le_of_mem_encode x hb
      · exact le_of_mem_separator hb
      · exact le_of_mem_encodeItems xs hb

theorem le_of_mem_encodeFields {b : UInt8} (fields : List (String × Json)) (hb : b ∈ encodeFields fields) : 0x20 ≤ b := by
  match fields with
  | [] =>
      rw [encodeFields, List.mem_singleton] at hb
      rw [hb]
      decide
  | (name, value) :: fields =>
      simp only [encodeFields, List.mem_append, List.mem_cons] at hb
      rcases hb with (hb | rfl | hb) | hb | hb
      · exact le_of_mem_marshalString hb
      · decide
      · exact le_of_mem_encode value hb
      · exact le_of_mem_separator hb
      · exact le_of_mem_encodeFields fields hb
end

theorem newline_notMem_line (taskID : String) (m : Message.UDSMessage) : newline ∉ line taskID m :=
  fun h => absurd (le_of_mem_encode _ h) (by decide)

/-! ## 長さ -/

/-- 区切りも含めた、欄の長さ。 -/
def fieldLength (field : String × Json) : Nat := (marshalString field.1).length + (encode field.2).length + 2

def fieldsLength (fields : Payload) : Nat := (fields.map fieldLength).sum

theorem length_encodeFields {fields : Payload} (h : fields ≠ []) : (encodeFields fields).length = fieldsLength fields := by
  induction fields with
  | nil => exact absurd rfl h
  | cons field fields ih =>
      obtain ⟨name, value⟩ := field
      cases fields with
      | nil =>
          simp only [encodeFields, fieldsLength, fieldLength, List.length_append, List.length_cons, List.length_nil,
            List.map_cons, List.map_nil, List.sum_cons, List.sum_nil, List.isEmpty_nil, if_true]
          omega
      | cons field fields =>
          rw [encodeFields]
          simp only [List.length_append, ih (List.cons_ne_nil _ _)]
          simp only [fieldsLength, fieldLength, List.length_cons, List.length_nil, List.map_cons, List.sum_cons,
            List.isEmpty_cons, Bool.false_eq_true, if_false]
          omega

/-- 行の長さは、欄の長さの和で決まる。 -/
theorem length_line (taskID : String) (m : Message.UDSMessage) :
    (line taskID m).length = fieldsLength (jsonFields { m with taskID }) + 1 := by
  rw [line, sendUDSMessageToWorker, marshal, encode, List.length_cons, length_encodeFields (by simp [jsonFields])]

theorem length_encodeItems_le {xs : List Json} {bound : Nat} (h : ∀ x ∈ xs, (encode x).length ≤ bound) :
    (encodeItems xs).length ≤ xs.length * (bound + 1) + 1 := by
  induction xs with
  | nil => simp [encodeItems]
  | cons x xs ih =>
      have hx := h x List.mem_cons_self
      have hxs := ih fun y hy => h y (List.mem_cons_of_mem x hy)
      have hsep : (if xs.isEmpty then [] else [(0x2C : UInt8)]).length ≤ 1 := by split <;> simp
      simp only [encodeItems, List.length_append, List.length_cons, Nat.succ_mul]
      omega

end RtcEgress.Wire
