import Mathlib.Data.List.Basic
import Mathlib.Data.List.Chain
import Mathlib.Tactic.Ring

/-!
# 一定の長さに区切ること

列を前から長さ `r` ずつに区切る。揃った区切りと、足りない残りとを分け、残りは同じ値で補って一つの区切りにする。区切りに、
一定の間隔の番号を振ることも定める。
-/

namespace RtcEgress.Lib

variable {α β : Type}

/-- 長さの揃った区切り。 -/
def fullBlocks (r : Nat) (l : List α) : List (List α) :=
  (List.range (l.length / r)).map fun k => (l.drop (k * r)).take r

/-- 区切りに足りない残り。 -/
def rest (r : Nat) (l : List α) : List α := l.drop (l.length / r * r)

/-- 残りを `z` で補った区切り。残りがなければ作らない。 -/
def paddedRest (z : α) (r : Nat) (l : List α) : List (List α) :=
  if l = [] then [] else [l ++ List.replicate (r - l.length) z]

/-- 残りも含めた、すべての区切り。 -/
def blocks (z : α) (r : Nat) (l : List α) : List (List α) := fullBlocks r l ++ paddedRest z r (rest r l)

/-- 最後の区切りの終わりまで、`z` で補った列。 -/
def padded (z : α) (r : Nat) (l : List α) : List α := l ++ List.replicate ((r - l.length % r) % r) z

theorem fullBlocks_of_lt {r : Nat} {l : List α} (h : l.length < r) : fullBlocks r l = [] := by
  simp [fullBlocks, Nat.div_eq_of_lt h]

theorem rest_of_lt {r : Nat} {l : List α} (h : l.length < r) : rest r l = l := by
  simp [rest, Nat.div_eq_of_lt h]

theorem length_div_of_le {r : Nat} {l : List α} (hr : 0 < r) (h : r ≤ l.length) :
    l.length / r = (l.drop r).length / r + 1 := by
  rw [List.length_drop]
  exact Nat.div_eq_sub_div hr h

theorem fullBlocks_of_le {r : Nat} {l : List α} (hr : 0 < r) (h : r ≤ l.length) :
    fullBlocks r l = l.take r :: fullBlocks r (l.drop r) := by
  have hblock : ∀ k, (l.drop ((k + 1) * r)).take r = ((l.drop r).drop (k * r)).take r := by
    intro k
    rw [List.drop_drop, Nat.succ_mul, Nat.add_comm]
  unfold fullBlocks
  rw [length_div_of_le hr h, List.range_succ_eq_map]
  simp [Function.comp_def, hblock]

theorem rest_of_le {r : Nat} {l : List α} (hr : 0 < r) (h : r ≤ l.length) : rest r l = rest r (l.drop r) := by
  rw [rest, rest, length_div_of_le hr h, List.drop_drop, Nat.succ_mul, Nat.add_comm]

theorem length_rest_lt {r : Nat} (hr : 0 < r) (l : List α) : (rest r l).length < r := by
  have hmod : l.length - l.length / r * r = l.length % r := by
    rw [Nat.mod_eq_sub, Nat.mul_comm]
  rw [rest, List.length_drop, hmod]
  exact Nat.mod_lt _ hr

/-- 区切りを前から一つずつ取る帰納法。 -/
theorem blocks_induction {r : Nat} (hr : 0 < r) {P : List α → Prop} (short : ∀ l, l.length < r → P l)
    (long : ∀ l, r ≤ l.length → P (l.drop r) → P l) (l : List α) : P l := by
  by_cases h : l.length < r
  · exact short l h
  · exact long l (by omega) (blocks_induction hr short long (l.drop r))
termination_by l.length
decreasing_by
  rw [List.length_drop]
  omega

/-- 後ろに続く列は、残りと合わせて区切られる。 -/
theorem fullBlocks_append {r : Nat} (hr : 0 < r) (l m : List α) :
    fullBlocks r (l ++ m) = fullBlocks r l ++ fullBlocks r (rest r l ++ m) := by
  induction l using blocks_induction hr with
  | short l h => simp [fullBlocks_of_lt h, rest_of_lt h]
  | long l h ih =>
      rw [fullBlocks_of_le hr h, rest_of_le hr h, fullBlocks_of_le hr (by simp; omega), List.take_append_of_le_length h,
        List.drop_append_of_le_length h, ih, List.cons_append]

theorem rest_append {r : Nat} (hr : 0 < r) (l m : List α) : rest r (l ++ m) = rest r (rest r l ++ m) := by
  induction l using blocks_induction hr with
  | short l h => rw [rest_of_lt h]
  | long l h ih => rw [rest_of_le hr h, rest_of_le hr (by simp; omega), List.drop_append_of_le_length h, ih]

theorem length_fullBlocks (r : Nat) (l : List α) : (fullBlocks r l).length = l.length / r := by
  simp [fullBlocks]

/-- すべての区切りを並べると、区切りの終わりまで補った列になる。 -/
theorem flatten_blocks {r : Nat} (hr : 0 < r) (z : α) (l : List α) : (blocks z r l).flatten = padded z r l := by
  induction l using blocks_induction hr with
  | short l h =>
      rw [blocks, fullBlocks_of_lt h, rest_of_lt h, paddedRest, padded, Nat.mod_eq_of_lt h]
      split
      · rename_i hnil
        simp [hnil]
      · rename_i hne
        have hpos := List.length_pos_iff.mpr hne
        rw [Nat.mod_eq_of_lt (by omega)]
        simp
  | long l h ih =>
      have hmod : (l.drop r).length % r = l.length % r := by
        rw [List.length_drop, ← Nat.mod_eq_sub_mod h]
      have hcons : blocks z r l = l.take r :: blocks z r (l.drop r) := by
        simp only [blocks, fullBlocks_of_le hr h, rest_of_le hr h, List.cons_append]
      rw [hcons, List.flatten_cons, ih, padded, padded, hmod, ← List.append_assoc, List.take_append_drop]

/-! ## 間隔をおいた番号 -/

/-- `p` から `d` ずつ進む番号を振る。 -/
def stamped (p d : Int) : List β → List (Int × β)
  | [] => []
  | b :: bs => (p, b) :: stamped (p + d) d bs

theorem map_snd_stamped (p d : Int) (bs : List β) : (stamped p d bs).map (·.2) = bs := by
  induction bs generalizing p with
  | nil => rfl
  | cons b bs ih => simp [stamped, ih]

theorem stamped_append (p d : Int) (bs cs : List β) :
    stamped p d (bs ++ cs) = stamped p d bs ++ stamped (p + bs.length * d) d cs := by
  induction bs generalizing p with
  | nil => simp [stamped]
  | cons b bs ih =>
      have hnext : p + d + bs.length * d = p + (b :: bs).length * d := by
        push_cast [List.length_cons]
        ring
      simp [stamped, ih, hnext]

/-- 番号は、初めの番号から、次の番号の手前までにある。 -/
theorem mem_stamped {p d : Int} {bs : List β} (hd : 0 < d) {q : Int × β} (hq : q ∈ stamped p d bs) :
    p ≤ q.1 ∧ q.1 < p + bs.length * d := by
  induction bs generalizing p with
  | nil => cases hq
  | cons b bs ih =>
      have hlen : (b :: bs).length * d = bs.length * d + d := by
        push_cast [List.length_cons]
        ring
      have hnonneg : 0 ≤ bs.length * d := Int.mul_nonneg (Int.natCast_nonneg _) (by omega)
      rw [stamped, List.mem_cons] at hq
      obtain rfl | hq := hq
      · simp only
        omega
      · have := ih hq
        omega

theorem stamped_pairwise {d : Int} (hd : 0 < d) (p : Int) (bs : List β) :
    (stamped p d bs).Pairwise fun a b => a.1 < b.1 := by
  induction bs generalizing p with
  | nil => exact .nil
  | cons b bs ih =>
      refine .cons (fun q hq => ?_) (ih (p + d))
      have := (mem_stamped hd hq).1
      simp only
      omega

end RtcEgress.Lib
