import Mathlib.Algebra.Group.Int.Defs
import Mathlib.Algebra.Group.Nat.Defs
import Mathlib.Data.Rat.Defs

/-!
# `float64` から整数への変換

Go の二つの変換を定める。`int(v)` は小数を切り捨てる。JSON に書き出してから `int` に読み直す変換は、整数の値だけを
通し、桁の多い値では最も短い十進の表記に丸める。`float64` の値は有理数で表す。
-/

namespace RtcEgress.Lib

/-- 64 ビットの整数に収まる。 -/
def inInt64 (n : Int) : Bool := -2 ^ 63 ≤ n && n < 2 ^ 63

/-- amd64 の `int(v)`。収まらない値は最小の整数になる。 -/
def truncate (q : Rat) : Int :=
  let n := q.num.tdiv q.den
  if inInt64 n then n else -2 ^ 63

/-! ## 最も短い表記 -/

/-- `m` は、`2 ^ 53` 以上の整数 `n` を値とする `float64` に丸められる。 -/
def roundsTo (n m : Nat) : Bool :=
  let ulp := 2 ^ (n.log2 - 52)
  let closed := n / ulp % 2 == 0
  let within := fun d gap => 4 * d < gap || (closed && 4 * d == gap)
  if n ≤ m then within (m - n) (2 * ulp)
  -- 二の冪の下では、隣の値までの幅が半分になる
  else within (n - m) (if n = 2 ^ n.log2 then ulp else 2 * ulp)

def nearestMultiple (n p : Nat) : Nat := (n + p / 2) / p * p

/-- 末尾に零を `k` 個まで置いた表記のうち、`n` に丸められる最も短いもの。 -/
def shortestFrom (n : Nat) : Nat → Nat
  | 0 => n
  | k + 1 =>
      let m := nearestMultiple n (10 ^ (k + 1))
      if roundsTo n m then m else shortestFrom n k

def shortest (n : Nat) : Nat := if n < 2 ^ 53 then n else shortestFrom n 21

/-- `json.Marshal` と、`int` への `json.Unmarshal`。小数と指数の表記は読めない。 -/
def jsonInt (q : Rat) : Option Int :=
  if q.den = 1 ∧ q.num.natAbs < 10 ^ 21 then
    let n := q.num.sign * shortest q.num.natAbs
    if inInt64 n then some n else none
  else none

theorem inInt64_truncate (q : Rat) : inInt64 (truncate q) = true := by
  simp only [truncate]
  split
  · assumption
  · decide

theorem inInt64_of_jsonInt {q : Rat} {n : Int} (h : jsonInt q = some n) : inInt64 n = true := by
  simp only [jsonInt] at h
  split_ifs at h with _ hn
  cases h
  exact hn

example : jsonInt 1152921504606846976 = some 1152921504606847000 := by decide +kernel

end RtcEgress.Lib
