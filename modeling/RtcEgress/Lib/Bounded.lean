import Mathlib.Data.List.Perm.Basic

/-!
# 長さに上限のある待ち行列

新しい要素を入れる前に、長さが上限に達している間、古い要素を捨てる。捨てた要素と残る要素は、元の列を前後に分ける。
-/

namespace RtcEgress.Lib

variable {α : Type} {limit : Nat}

/-- 捨てた要素と、残る要素。 -/
def trim (limit : Nat) : List α → List α × List α
  | [] => ([], [])
  | x :: xs => if limit ≤ xs.length + 1 then (x :: (trim limit xs).1, (trim limit xs).2) else ([], x :: xs)

theorem trim_append (limit : Nat) (xs : List α) : (trim limit xs).1 ++ (trim limit xs).2 = xs := by
  induction xs with
  | nil => rfl
  | cons x xs ih =>
      rw [trim]
      split
      · simpa using ih
      · rfl

theorem length_trim (hpos : 0 < limit) (xs : List α) : (trim limit xs).2.length < limit := by
  induction xs with
  | nil => simpa [trim] using hpos
  | cons x xs ih =>
      rw [trim]
      split
      · exact ih
      · simp only [List.length_cons]
        omega

theorem length_trim_le (limit : Nat) (xs : List α) : (trim limit xs).2.length ≤ xs.length := by
  conv_rhs => rw [← trim_append limit xs, List.length_append]
  exact Nat.le_add_left ..

end RtcEgress.Lib
