import RtcEgress.Lib.Assoc

/-!
# 期限のある表

値を期限とともに入れる表。期限を過ぎた値は、読めず、数えられない。
-/

namespace RtcEgress.Lib

structure Entry (V : Type) where
  value : V
  expireAt : Nat

abbrev Expiring (K V : Type) := AList fun _ : K => Entry V

namespace Expiring

variable {K V : Type} [DecidableEq K] {m : Expiring K V} {now ttl : Nat} {k : K} {v : V}

def get (m : Expiring K V) (now : Nat) (k : K) : Option V :=
  ((m.lookup k).filter fun e => now ≤ e.expireAt).map Entry.value

def set (m : Expiring K V) (now ttl : Nat) (k : K) (v : V) : Expiring K V := m.insert k ⟨v, now + ttl⟩

/-- 期限を過ぎていないキー。 -/
def alive (m : Expiring K V) (now : Nat) : List K := m.keys.filter fun k => (m.get now k).isSome

theorem get_eq_some : m.get now k = some v ↔ ∃ e, m.lookup k = some e ∧ now ≤ e.expireAt ∧ e.value = v := by
  simp [get, Option.filter_eq_some_iff, and_assoc]

theorem nodup_alive (m : Expiring K V) (now : Nat) : (m.alive now).Nodup := m.nodupKeys.filter _

/-- 入れたすべての値が、期限とともに満たす性質。 -/
def All (P : K → V → Nat → Prop) (m : Expiring K V) : Prop := ∀ k e, m.lookup k = some e → P k e.value e.expireAt

variable {P Q : K → V → Nat → Prop}

theorem All.empty : All P (∅ : Expiring K V) := by
  intro k e h
  rw [AList.lookup_empty] at h
  cases h

theorem All.set (h : All P m) (hv : P k v (now + ttl)) : All P (m.set now ttl k v) := by
  intro k' e he
  rw [Expiring.set, lookup_insert_ite] at he
  split at he
  next heq =>
    obtain rfl := Option.some.inj he
    exact heq ▸ hv
  · exact h k' e he

theorem All.mono (h : All P m) (hPQ : ∀ k v t, P k v t → Q k v t) : All Q m :=
  fun k e he => hPQ k e.value e.expireAt (h k e he)

theorem All.get (h : All P m) (hget : m.get now k = some v) : ∃ t, now ≤ t ∧ P k v t := by
  obtain ⟨e, hlookup, hle, rfl⟩ := get_eq_some.mp hget
  exact ⟨e.expireAt, hle, h k e hlookup⟩

end Expiring

end RtcEgress.Lib
