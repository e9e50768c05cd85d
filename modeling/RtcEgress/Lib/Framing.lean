import Mathlib.Algebra.Group.Nat.Defs
import Mathlib.Data.List.Basic
import Mathlib.Data.List.Induction

/-!
# 長さを前に置いたバイト列

大端の数と、それを長さとして前に置いた列を、書いて読む。
-/

namespace RtcEgress.Lib.Framing

/-- `width` バイトの大端の数。 -/
def bigEndian : (width : Nat) → (n : Nat) → List UInt8
  | 0, _ => []
  | width + 1, n => bigEndian width (n / 256) ++ [UInt8.ofNat n]

def readBig (l : List UInt8) : Nat := l.foldl (fun n b => n * 256 + b.toNat) 0

/-- ちょうど `n` バイトを読む。 -/
def takeExactly (n : Nat) (l : List UInt8) : Option (List UInt8 × List UInt8) :=
  if n ≤ l.length then some (l.take n, l.drop n) else none

def readNat (width : Nat) (l : List UInt8) : Option (Nat × List UInt8) :=
  (takeExactly width l).map fun r => (readBig r.1, r.2)

def prefixed (width : Nat) (u : List UInt8) : List UInt8 := bigEndian width u.length ++ u

def readPrefixed (width : Nat) (l : List UInt8) : Option (List UInt8 × List UInt8) :=
  (readNat width l).bind fun r => takeExactly r.1 r.2

/-- 列の終わりまで読む。 -/
def readAll (width : Nat) : (n : Nat) → List UInt8 → Option (List (List UInt8))
  | _, [] => some []
  | 0, _ :: _ => none
  | n + 1, b :: l => (readPrefixed width (b :: l)).bind fun r => (readAll width n r.2).map (r.1 :: ·)

def splitLengths (width : Nat) (l : List UInt8) : Option (List (List UInt8)) := readAll width l.length l

@[simp] theorem length_bigEndian (width n : Nat) : (bigEndian width n).length = width := by
  induction width generalizing n with
  | zero => rfl
  | succ width ih => rw [bigEndian, List.length_append, ih, List.length_singleton]

theorem readBig_bigEndian {width n : Nat} (h : n < 256 ^ width) : readBig (bigEndian width n) = n := by
  induction width generalizing n with
  | zero =>
      have hn : n = 0 := by simpa using h
      rw [hn]
      rfl
  | succ width ih =>
      have hdiv : n / 256 < 256 ^ width := by
        rw [Nat.div_lt_iff_lt_mul (by decide)]
        simpa [Nat.pow_succ] using h
      have hrest := ih hdiv
      unfold readBig at hrest ⊢
      rw [bigEndian, List.foldl_append, hrest, List.foldl_cons, List.foldl_nil, UInt8.toNat_ofNat']
      omega

theorem takeExactly_append (u l : List UInt8) : takeExactly u.length (u ++ l) = some (u, l) := by
  unfold takeExactly
  rw [if_pos (by simp), List.take_left, List.drop_left]

/-- 読んだ数は、元の列を書き戻す。 -/
theorem bigEndian_readBig (l : List UInt8) : bigEndian l.length (readBig l) = l := by
  induction l using List.reverseRecOn with
  | nil => rfl
  | append_singleton l b ih =>
      have hread : readBig (l ++ [b]) = readBig l * 256 + b.toNat := by
        unfold readBig
        rw [List.foldl_append, List.foldl_cons, List.foldl_nil]
      have hlt := b.toNat_lt
      have hdiv : (readBig l * 256 + b.toNat) / 256 = readBig l := by omega
      have hlast : UInt8.ofNat (readBig l * 256 + b.toNat) = b := by
        apply UInt8.toNat.inj
        rw [UInt8.toNat_ofNat']
        omega
      rw [List.length_append, List.length_singleton, bigEndian, hread, hdiv, ih, hlast]

theorem readBig_inj {l l' : List UInt8} (hlen : l.length = l'.length) (h : readBig l = readBig l') : l = l' := by
  rw [← bigEndian_readBig l, hlen, h, bigEndian_readBig]

theorem readNat_of_length {width : Nat} {u : List UInt8} (h : u.length = width) (l : List UInt8) :
    readNat width (u ++ l) = some (readBig u, l) := by
  rw [readNat, ← h, takeExactly_append]
  rfl

theorem readNat_length {width n : Nat} {l l' : List UInt8} (h : readNat width l = some (n, l')) :
    l.length = width + l'.length := by
  unfold readNat takeExactly at h
  split at h
  · cases h
    rw [List.length_drop]
    omega
  · cases h

theorem readNat_append {width n : Nat} (h : n < 256 ^ width) (l : List UInt8) :
    readNat width (bigEndian width n ++ l) = some (n, l) := by
  have htake := takeExactly_append (bigEndian width n) l
  rw [length_bigEndian] at htake
  rw [readNat, htake, Option.map_some, readBig_bigEndian h]

theorem readPrefixed_append {width : Nat} {u : List UInt8} (h : u.length < 256 ^ width) (l : List UInt8) :
    readPrefixed width (prefixed width u ++ l) = some (u, l) := by
  rw [readPrefixed, prefixed, List.append_assoc, readNat_append h, Option.bind_some, takeExactly_append]

/-- 並べた列は、元の通りに読み出せる。 -/
theorem splitLengths_flatMap {width : Nat} (hw : 0 < width) {units : List (List UInt8)}
    (h : ∀ u ∈ units, u.length < 256 ^ width) : splitLengths width (units.flatMap (prefixed width)) = some units := by
  have hall : ∀ n, (units.flatMap (prefixed width)).length ≤ n →
      readAll width n (units.flatMap (prefixed width)) = some units := by
    intro n hn
    induction units generalizing n with
    | nil => cases n <;> rfl
    | cons u units ih =>
        rw [List.flatMap_cons] at hn ⊢
        have hread := readPrefixed_append (h u List.mem_cons_self) (units.flatMap (prefixed width))
        have hlen : (prefixed width u).length = width + u.length := by rw [prefixed, List.length_append, length_bigEndian]
        rw [List.length_append, hlen] at hn
        generalize hl : prefixed width u ++ units.flatMap (prefixed width) = l at hread
        cases l with
        | nil =>
            have hnil := congrArg List.length hl
            rw [List.length_append, hlen, List.length_nil] at hnil
            omega
        | cons b l =>
            cases n with
            | zero => omega
            | succ n =>
                rw [readAll, hread, Option.bind_some, ih (fun u hu => h u (List.mem_cons_of_mem _ hu)) n (by omega)]
                rfl
  exact hall _ (Nat.le_refl _)

end RtcEgress.Lib.Framing
