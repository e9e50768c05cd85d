import Mathlib.Data.List.DropRight
import Mathlib.Data.List.Infix

/-!
# 開始符号で区切られたバイト列

単位は、三バイトの符号 `00 00 01` か、その前に零を置いた四バイトの符号の後に続く。単位の取り出し方 `take` をパラメータとして、
列を単位に分ける。
-/

namespace RtcEgress.Lib.AnnexB

/-- 先頭にある開始符号の長さ。なければ零である。 -/
def starts (l : List UInt8) : Nat :=
  if [0, 0, 0, 1].isPrefixOf l then 4 else if [0, 0, 1].isPrefixOf l then 3 else 0

/-- 次の開始符号までのバイト。 -/
def body : List UInt8 → List UInt8
  | [] => []
  | b :: l => if starts (b :: l) = 0 then b :: body l else []

/-- 末尾の零を除く。 -/
def strip (l : List UInt8) : List UInt8 := l.rdropWhile (· == 0)

/-- 先頭のバイトは、開始符号の始めとはみない。 -/
def bodyAfterFirst (l : List UInt8) : List UInt8 := strip (l.take 1 ++ body (l.drop 1))

theorem starts_le (l : List UInt8) : starts l ≤ l.length := by
  unfold starts
  split
  · rename_i h
    exact (List.isPrefixOf_iff_prefix.mp h).length_le
  · split
    · rename_i h
      exact (List.isPrefixOf_iff_prefix.mp h).length_le
    · exact Nat.zero_le _

/-- 列を単位に分ける。 -/
def unitsBy (take : List UInt8 → List UInt8) (l : List UInt8) : List (List UInt8) :=
  match l with
  | [] => []
  | b :: l =>
      if starts (b :: l) = 0 then unitsBy take l
      else
        let rest := (b :: l).drop (starts (b :: l))
        if rest = [] then [] else take rest :: unitsBy take (rest.drop (take rest).length)
termination_by l.length
decreasing_by
  · simp
  · have hle := starts_le (b :: l)
    simp only [List.length_drop, List.length_cons] at hle ⊢
    omega

/-- 単位とみなせる、空でないバイト列。 -/
structure WellFormed (u : List UInt8) : Prop where
  ne_nil : u ≠ []
  no_start : ¬[0, 0, 1] <:+: u
  last : u.getLast? ≠ some 0

instance (u : List UInt8) : Decidable (WellFormed u) :=
  decidable_of_iff (u ≠ [] ∧ ¬[0, 0, 1] <:+: u ∧ u.getLast? ≠ some 0)
    ⟨fun h => ⟨h.1, h.2.1, h.2.2⟩, fun h => ⟨h.ne_nil, h.no_start, h.last⟩⟩

def startCode (long : Bool) : List UInt8 := if long then [0, 0, 0, 1] else [0, 0, 1]

/-- 単位の前に、選んだ長さの開始符号を置いて並べる。 -/
def encode (units : List (Bool × List UInt8)) : List UInt8 := units.flatMap fun e => startCode e.1 ++ e.2

/-! ## 単位への分割 -/

theorem unitsBy_skip {take : List UInt8 → List UInt8} {b : UInt8} {l : List UInt8} (h : starts (b :: l) = 0) :
    unitsBy take (b :: l) = unitsBy take l := by
  rw [unitsBy, if_pos h]

theorem unitsBy_starts {take : List UInt8 → List UInt8} {l rest : List UInt8} (h : starts l ≠ 0)
    (hrest : l.drop (starts l) = rest) :
    unitsBy take l = if rest = [] then [] else take rest :: unitsBy take (rest.drop (take rest).length) := by
  cases l with
  | nil => exact absurd rfl h
  | cons b l =>
      rw [unitsBy, if_neg h]
      simp only [hrest]

/-! ## 開始符号 -/

theorem starts_startCode (long : Bool) (l : List UInt8) : starts (startCode long ++ l) = (startCode long).length := by
  cases long <;> simp [starts, startCode, List.isPrefixOf]

theorem three_le_starts {l : List UInt8} (h : starts l ≠ 0) : 3 ≤ starts l := by
  unfold starts at h ⊢
  split
  · decide
  · rename_i hlong
    rw [if_neg hlong] at h
    split
    · exact Nat.le_refl _
    · rename_i hshort
      rw [if_neg hshort] at h
      exact absurd rfl h

/-- 開始符号は、二つの零で始まる。 -/
theorem prefix_of_starts {l : List UInt8} (h : starts l ≠ 0) : [0, 0, 1] <+: l ∨ [0, 0, 0, 1] <+: l := by
  unfold starts at h
  split at h
  · rename_i hlong
    exact .inr (List.isPrefixOf_iff_prefix.mp hlong)
  · split at h
    · rename_i hshort
      exact .inl (List.isPrefixOf_iff_prefix.mp hshort)
    · exact absurd rfl h

theorem zeros_of_starts {b : UInt8} {l : List UInt8} (h : starts (b :: l) ≠ 0) : b = 0 ∧ l.head? = some 0 := by
  cases prefix_of_starts h with
  | inl hshort =>
      obtain ⟨rest, hrest⟩ := hshort
      cases hrest
      exact ⟨rfl, rfl⟩
  | inr hlong =>
      obtain ⟨rest, hrest⟩ := hlong
      cases hrest
      exact ⟨rfl, rfl⟩

/-- 続きが開始符号で始まるか、空である。 -/
def Closed (rest : List UInt8) : Prop := rest = [] ∨ ∃ long l, rest = startCode long ++ l

theorem closed_encode (units : List (Bool × List UInt8)) : Closed (encode units) := by
  cases units with
  | nil => exact .inl rfl
  | cons e units => exact .inr ⟨e.1, e.2 ++ encode units, by simp [encode, List.flatMap_cons]⟩

/-- 単位の中では、開始符号は始まらない。 -/
theorem starts_inside {b : UInt8} {u rest : List UInt8} (hstart : ¬[0, 0, 1] <:+: b :: u) (hlast : (b :: u).getLast? ≠ some 0) :
    starts (b :: u ++ rest) = 0 := by
  by_contra h
  have hzeros := zeros_of_starts h
  cases u with
  | nil => exact hlast (congrArg some hzeros.1)
  | cons c u =>
      cases u with
      | nil => exact hlast hzeros.2
      | cons d u =>
          simp only [List.cons_append] at h
          cases prefix_of_starts h with
          | inl hshort =>
              simp only [List.cons_prefix_cons, List.nil_prefix, and_true] at hshort
              obtain ⟨rfl, rfl, rfl⟩ := hshort
              exact hstart ⟨[], u, rfl⟩
          | inr hlong =>
              simp only [List.cons_prefix_cons] at hlong
              obtain ⟨rfl, rfl, rfl, hone⟩ := hlong
              cases u with
              | nil => exact hlast rfl
              | cons e u =>
                  simp only [List.cons_append, List.cons_prefix_cons, List.nil_prefix, and_true] at hone
                  subst hone
                  exact hstart ⟨[0], u, rfl⟩

/-- 単位の残りは、次の開始符号までである。 -/
theorem body_append {u rest : List UInt8} (hstart : ¬[0, 0, 1] <:+: u) (hlast : u.getLast? ≠ some 0) (hrest : Closed rest) :
    body (u ++ rest) = u := by
  induction u with
  | nil =>
      cases hrest with
      | inl hnil => rw [hnil]; rfl
      | inr hcode =>
          obtain ⟨long, l, rfl⟩ := hcode
          have hcode := starts_startCode long l
          cases long with
          | false =>
              rw [List.nil_append]
              unfold startCode at hcode ⊢
              simp only [Bool.false_eq_true, if_false, List.cons_append] at hcode ⊢
              rw [body, hcode]
              rfl
          | true =>
              rw [List.nil_append]
              unfold startCode at hcode ⊢
              simp only [if_true, List.cons_append] at hcode ⊢
              rw [body, hcode]
              rfl
  | cons b u ih =>
      have hinside : starts (b :: u ++ rest) = 0 := starts_inside hstart hlast
      rw [List.cons_append] at hinside ⊢
      rw [body, if_pos hinside, ih (fun h => hstart (h.trans (List.suffix_cons b u).isInfix))]
      cases u with
      | nil => simp
      | cons c u => simpa using hlast

theorem strip_of_last {u : List UInt8} (hlast : u.getLast? ≠ some 0) : strip u = u := by
  unfold strip
  rw [List.rdropWhile_eq_self_iff]
  intro hne hzero
  rw [beq_iff_eq] at hzero
  exact hlast (by rw [List.getLast?_eq_some_getLast hne, hzero])

theorem body_wellFormed {u rest : List UInt8} (hu : WellFormed u) (hrest : Closed rest) : body (u ++ rest) = u :=
  body_append hu.no_start hu.last hrest

theorem bodyAfterFirst_wellFormed {u rest : List UInt8} (hu : WellFormed u) (hrest : Closed rest) :
    bodyAfterFirst (u ++ rest) = u := by
  cases u with
  | nil => exact absurd rfl hu.ne_nil
  | cons b u =>
      have hbody : body (u ++ rest) = u := by
        cases u with
        | nil =>
            refine body_append (by simp) (by simp) hrest
        | cons c u =>
            refine body_append (fun h => hu.no_start (h.trans (List.suffix_cons b _).isInfix)) ?_ hrest
            simpa using hu.last
      unfold bodyAfterFirst
      rw [List.cons_append, List.take_one, List.drop_one]
      simp only [List.head?_cons, Option.toList_some, List.tail_cons, hbody]
      exact strip_of_last hu.last

/-- 並べた単位は、元の通りに分かれる。 -/
theorem unitsBy_encode {take : List UInt8 → List UInt8}
    (htake : ∀ u rest, WellFormed u → Closed rest → take (u ++ rest) = u) (units : List (Bool × List UInt8))
    (h : ∀ e ∈ units, WellFormed e.2) : unitsBy take (encode units) = units.map Prod.snd := by
  induction units with
  | nil =>
      rw [encode, List.flatMap_nil, unitsBy]
      rfl
  | cons e units ih =>
      have hcode := starts_startCode e.1 (e.2 ++ encode units)
      have hencode : encode (e :: units) = startCode e.1 ++ (e.2 ++ encode units) := by
        rw [encode, List.flatMap_cons, List.append_assoc]
        rfl
      have hwell := h e List.mem_cons_self
      have htake := htake e.2 (encode units) hwell (closed_encode units)
      have hne : e.2 ++ encode units ≠ [] := by simp [hwell.ne_nil]
      have hdrop : (startCode e.1 ++ (e.2 ++ encode units)).drop (startCode e.1).length = e.2 ++ encode units :=
        List.drop_left
      have hlen : (startCode e.1).length ≠ 0 := by cases e.1 <;> decide
      rw [← hcode] at hdrop hlen
      rw [hencode, unitsBy_starts hlen hdrop, if_neg hne, htake, List.drop_left, List.map_cons]
      rw [ih fun e he => h e (List.mem_cons_of_mem _ he)]

/-! ## 短い列 -/

theorem starts_short {l : List UInt8} (h : l.length ≤ 2) : starts l = 0 := by
  by_contra hne
  have hle := starts_le l
  unfold starts at hne hle
  split at hne
  · rw [if_pos (by assumption)] at hle
    omega
  · split at hne
    · rw [if_neg (by assumption), if_pos (by assumption)] at hle
      omega
    · exact hne rfl

theorem body_short {l : List UInt8} (h : l.length ≤ 2) : body l = l := by
  induction l with
  | nil => rfl
  | cons b l ih =>
      rw [body, if_pos (starts_short h), ih (by rw [List.length_cons] at h; omega)]

theorem prefix_body (l : List UInt8) : body l <+: l := by
  induction l with
  | nil => exact List.nil_prefix
  | cons b l ih =>
      rw [body]
      split
      · exact List.cons_prefix_cons.mpr ⟨rfl, ih⟩
      · exact List.nil_prefix

theorem headD_body (b : UInt8) (l : List UInt8) : (body (b :: l)).headD 0 = b := by
  rw [body]
  split
  · rfl
  · rename_i hne
    exact (zeros_of_starts hne).1.symm

/-- 三バイト以下の列には、単位がない。 -/
theorem unitsBy_short {take : List UInt8 → List UInt8} {l : List UInt8} (h : l.length ≤ 3) : unitsBy take l = [] := by
  induction l with
  | nil => rw [unitsBy]
  | cons b l ih =>
      by_cases hstart : starts (b :: l) = 0
      · rw [unitsBy_skip hstart]
        exact ih (by rw [List.length_cons] at h; omega)
      · have hthree := three_le_starts hstart
        have hrest : (b :: l).drop (starts (b :: l)) = [] := List.drop_eq_nil_of_le (by omega)
        rw [unitsBy_starts hstart hrest, if_pos rfl]

theorem prefix_strip (l : List UInt8) : strip l <+: l := List.rdropWhile_prefix _ _

/-- 除くのは零だけなので、先頭のバイトは変わらない。 -/
theorem headD_strip (l : List UInt8) : (strip l).headD 0 = l.headD 0 := by
  obtain ⟨rest, hrest⟩ := prefix_strip l
  cases h : strip l with
  | nil =>
      cases l with
      | nil => rfl
      | cons b l =>
          have hzero := List.rdropWhile_eq_nil_iff.mp h b List.mem_cons_self
          exact (beq_iff_eq.mp hzero).symm
  | cons b u =>
      rw [← hrest, h]
      rfl

theorem headD_bodyAfterFirst (b : UInt8) (l : List UInt8) : (bodyAfterFirst (b :: l)).headD 0 = b := headD_strip _

theorem prefix_first_body (l : List UInt8) : l.take 1 ++ body (l.drop 1) <+: l := by
  have h := (List.prefix_append_right_inj (l.take 1)).mpr (prefix_body (l.drop 1))
  rwa [List.take_append_drop] at h

theorem prefix_bodyAfterFirst (l : List UInt8) : bodyAfterFirst l <+: l :=
  (prefix_strip _).trans (prefix_first_body l)

end RtcEgress.Lib.AnnexB
