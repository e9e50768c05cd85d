import Mathlib.Logic.Function.Basic

/-!
# キーごとに独立な操作

操作がそれぞれ一つのキーの値だけを、その値から決めるならば、列の結果は、キーごとの部分列だけで決まる。
-/

namespace RtcEgress.Lib

variable {K V Op : Type} [DecidableEq K] (key : Op → K) (act : Op → V → V)

def actAt (op : Op) (s : K → V) : K → V := Function.update s (key op) (act op (s (key op)))

def actAll (ops : List Op) (s : K → V) : K → V := ops.foldl (fun s op => actAt key act op s) s

/-- 一つのキーの値は、そのキーの操作だけで決まる。 -/
theorem actAll_apply (ops : List Op) (s : K → V) (k : K) :
    actAll key act ops s k = (ops.filter fun op => key op = k).foldl (fun v op => act op v) (s k) := by
  induction ops generalizing s with
  | nil => rfl
  | cons op ops ih =>
      rw [actAll, List.foldl_cons, List.filter_cons]
      refine (ih _).trans ?_
      by_cases h : key op = k
      · subst h
        simp [actAt]
      · have hne : k ≠ key op := Ne.symm h
        simp [actAt, h, hne]

/-- キーごとの部分列が同じならば、どう並べても結果は同じである。 -/
theorem actAll_congr {ops ops' : List Op} (h : ∀ k, (ops.filter fun op => key op = k) = ops'.filter fun op => key op = k)
    (s : K → V) : actAll key act ops s = actAll key act ops' s := by
  funext k
  rw [actAll_apply, actAll_apply, h k]

end RtcEgress.Lib
