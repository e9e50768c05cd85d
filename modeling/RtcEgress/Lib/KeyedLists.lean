import Mathlib.Data.List.AList

/-!
# 名前の付いたリストの集まり

キーごとにリストを一つ持つ保管庫を定める。空になったリストはキーごと消える。要素が全体で何度、どこに
現れるかを、キーごとの回数で述べる。
-/

namespace RtcEgress.Lib

variable {K E : Type} [DecidableEq K]

/-- キーごとのリスト。 -/
structure KeyedLists (K E : Type) where
  entries : AList fun _ : K => List E

namespace KeyedLists

def empty : KeyedLists K E := ⟨∅⟩

/-- キーのリスト。キーがなければ空である。 -/
def get (L : KeyedLists K E) (k : K) : List E := (L.entries.lookup k).getD []

/-- キーのリストを置き換える。空のリストを置くとキーが消える。 -/
def put (L : KeyedLists K E) (k : K) (l : List E) : KeyedLists K E :=
  ⟨if l.isEmpty then L.entries.erase k else L.entries.insert k l⟩

/-- リストを持つキーの列。 -/
def keys (L : KeyedLists K E) : List K := L.entries.keys

@[simp] theorem get_empty (k : K) : (empty : KeyedLists K E).get k = [] := rfl

@[simp] theorem get_put_self (L : KeyedLists K E) (k : K) (l : List E) : (L.put k l).get k = l := by
  simp only [get, put]
  split
  · rename_i h
    simp [AList.lookup_erase, List.isEmpty_iff.mp h]
  · simp [AList.lookup_insert]

@[simp] theorem get_put_ne (L : KeyedLists K E) {k k' : K} (h : k' ≠ k) (l : List E) :
    (L.put k l).get k' = L.get k' := by
  simp only [get, put]
  split
  · simp [AList.lookup_erase_ne h]
  · simp [AList.lookup_insert_ne h]

theorem get_put (L : KeyedLists K E) (k k' : K) (l : List E) :
    (L.put k l).get k' = if k' = k then l else L.get k' := by
  by_cases h : k' = k
  · subst h; simp
  · simp [h]

theorem mem_keys_of_mem {L : KeyedLists K E} {k : K} {e : E} (h : e ∈ L.get k) : k ∈ L.keys := by
  rw [get] at h
  cases hl : L.entries.lookup k with
  | none => simp [hl] at h
  | some l => exact AList.lookup_isSome.mp (by rw [hl]; rfl)

/-! ## 出現の数 -/

variable [DecidableEq E]

/-- キー `k` のリストに `e` が現れる回数。 -/
def occ (L : KeyedLists K E) (e : E) (k : K) : Nat := (L.get k).count e

/-- `e` は、キー `k` のリストにちょうど一度現れ、他のリストには現れない。 -/
def Located (L : KeyedLists K E) (e : E) (k : K) : Prop := ∀ k', L.occ e k' = if k' = k then 1 else 0

/-- `e` はどのリストにも現れない。 -/
def Nowhere (L : KeyedLists K E) (e : E) : Prop := ∀ k, L.occ e k = 0

/-- `e` は全体で高々一度しか現れない。 -/
def AtMostOnce (L : KeyedLists K E) (e : E) : Prop := L.Nowhere e ∨ ∃ k, L.Located e k

theorem occ_put (L : KeyedLists K E) (k k' : K) (l : List E) (e : E) :
    (L.put k l).occ e k' = if k' = k then l.count e else L.occ e k' := by
  rw [occ, get_put]
  split <;> rfl

theorem occ_pos {L : KeyedLists K E} {e : E} {k : K} : 0 < L.occ e k ↔ e ∈ L.get k := List.count_pos_iff

theorem Nowhere.not_mem {L : KeyedLists K E} {e : E} (h : L.Nowhere e) (k : K) : e ∉ L.get k := by
  rw [← occ_pos, h k]
  exact Nat.lt_irrefl 0

theorem Located.mem {L : KeyedLists K E} {e : E} {k : K} (h : L.Located e k) : e ∈ L.get k := by
  rw [← occ_pos, h k, if_pos rfl]
  exact Nat.one_pos

theorem Located.eq_of_mem {L : KeyedLists K E} {e : E} {k k' : K} (h : L.Located e k) (hm : e ∈ L.get k') :
    k' = k := by
  rw [← occ_pos, h k'] at hm
  by_contra hne
  simp [hne] at hm

theorem AtMostOnce.located {L : KeyedLists K E} {e : E} {k : K} (h : L.AtMostOnce e) (hm : e ∈ L.get k) :
    L.Located e k := by
  rcases h with h | ⟨k', h⟩
  · exact absurd hm (h.not_mem k)
  · rwa [h.eq_of_mem hm]

/-- 出現の回数が同じなら、現れ方も同じである。 -/
theorem AtMostOnce.congr {L L' : KeyedLists K E} {e : E} (h : L.AtMostOnce e) (heq : ∀ k, L'.occ e k = L.occ e k) :
    L'.AtMostOnce e := by
  rcases h with h | ⟨k, h⟩
  · exact .inl fun k => (heq k).trans (h k)
  · exact .inr ⟨k, fun k' => (heq k').trans (h k')⟩

theorem Located.not_nowhere {L : KeyedLists K E} {e : E} {k : K} (h : L.Located e k) : ¬L.Nowhere e :=
  fun h' => h'.not_mem k h.mem

end KeyedLists

end RtcEgress.Lib
