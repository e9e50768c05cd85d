import Mathlib.Data.List.Chain

/-!
# 間隔をあけて増える時刻の列
-/

namespace RtcEgress.Lib

/-- 負の値がなく、`d` 以上ずつ増える。 -/
structure Spaced (d : Int) (l : List Int) : Prop where
  nonneg : ∀ a ∈ l, 0 ≤ a
  spaced : l.IsChain fun a b => a + d ≤ b

theorem spaced_nil {d : Int} : Spaced d [] := ⟨by simp, .nil⟩

/-- 最後に値を足すとき、前の最後の値だけと比べればよい。 -/
theorem isChain_concat {α : Type} {R : α → α → Prop} {l : List α} {a : α} :
    (l ++ [a]).IsChain R ↔ l.IsChain R ∧ ∀ b ∈ l.getLast?, R b a := by
  rw [List.isChain_append]
  constructor
  · rintro ⟨hl, -, hlast⟩
    exact ⟨hl, fun b hb => hlast b hb a rfl⟩
  · rintro ⟨hl, hlast⟩
    refine ⟨hl, .singleton a, fun b hb c hc => ?_⟩
    obtain rfl : a = c := Option.some.inj hc
    exact hlast b hb

theorem spaced_concat {d : Int} {l : List Int} {a : Int} :
    Spaced d (l ++ [a]) ↔ Spaced d l ∧ 0 ≤ a ∧ ∀ b ∈ l.getLast?, b + d ≤ a := by
  constructor
  · rintro ⟨hnonneg, hspaced⟩
    simp only [List.mem_append, List.mem_singleton] at hnonneg
    obtain ⟨hl, hlast⟩ := isChain_concat.mp hspaced
    exact ⟨⟨fun b hb => hnonneg b (.inl hb), hl⟩, hnonneg a (.inr rfl), hlast⟩
  · rintro ⟨⟨hnonneg, hspaced⟩, ha, hlast⟩
    constructor
    · intro b hb
      rw [List.mem_append, List.mem_singleton] at hb
      obtain hb | rfl := hb
      · exact hnonneg b hb
      · exact ha
    · exact isChain_concat.mpr ⟨hspaced, hlast⟩

end RtcEgress.Lib
