import Mathlib.Data.List.AList

/-!
# 値の型が一つの連想リスト

挿入と削除の後の値を、キーの場合分けで書く。値で選んだキーは、引いた値で言い表す。
-/

namespace RtcEgress.Lib

variable {K V : Type} [DecidableEq K] (m : AList fun _ : K => V) (a b : K)

theorem lookup_insert_ite (x : V) : (m.insert a x).lookup b = if b = a then some x else m.lookup b := by
  by_cases h : b = a
  · subst h
    rw [AList.lookup_insert, if_pos rfl]
  · rw [AList.lookup_insert_ne h, if_neg h]

theorem lookup_erase_ite : (m.erase a).lookup b = if b = a then none else m.lookup b := by
  by_cases h : b = a
  · subst h
    rw [AList.lookup_erase, if_pos rfl]
  · rw [AList.lookup_erase_ne h, if_neg h]

/-- 新しいキーを入れるときに限り、キーは一つ増える。 -/
theorem length_keys_insert (x : V) :
    (m.insert a x).keys.length = if (m.lookup a).isSome then m.keys.length else m.keys.length + 1 := by
  rw [AList.keys_insert, List.length_cons]
  by_cases h : a ∈ m
  · rw [if_pos (AList.lookup_isSome.mpr h), List.length_erase_of_mem h,
      Nat.sub_add_cancel (List.length_pos_of_mem h)]
  · rw [if_neg (by rwa [AList.lookup_isSome]), List.erase_of_not_mem h]

theorem length_keys_erase_le : (m.erase a).keys.length ≤ m.keys.length := by
  rw [AList.keys_erase]
  exact List.length_erase_le

/-- 値が条件を満たすキー。 -/
theorem mem_keys_filter {m : AList fun _ : K => V} {a : K} (p : V → Bool) :
    a ∈ (m.entries.filter fun e => p e.2).map Sigma.fst ↔ ∃ x, m.lookup a = some x ∧ p x = true := by
  rw [List.mem_map]
  constructor
  · rintro ⟨⟨_, x⟩, he, rfl⟩
    obtain ⟨hentry, hx⟩ := List.mem_filter.mp he
    exact ⟨x, AList.mem_lookup_iff.mpr hentry, hx⟩
  · rintro ⟨x, hlookup, hx⟩
    exact ⟨⟨a, x⟩, List.mem_filter.mpr ⟨AList.mem_lookup_iff.mp hlookup, hx⟩, rfl⟩

theorem isEmpty_entries_iff {m : AList fun _ : K => V} : m.entries.isEmpty = true ↔ ∀ a, m.lookup a = none := by
  rw [List.isEmpty_iff]
  constructor
  · intro h a
    rw [AList.lookup_eq_none, AList.mem_keys, AList.keys, h]
    exact List.not_mem_nil
  · intro h
    refine List.eq_nil_iff_forall_not_mem.mpr fun ⟨a, x⟩ he => ?_
    rw [← AList.mem_lookup_iff, h a] at he
    cases he

end RtcEgress.Lib
