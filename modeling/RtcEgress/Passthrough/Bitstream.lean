import RtcEgress.Lib.AnnexB
import RtcEgress.Lib.Framing

/-!
# `src/recording_sink.cpp` の Annex-B の走査

`parseAnnexBNalUnits` と `annexBToAvcc` は、配列を番号で読む。読む番号が配列の外にあるときを `outOfBounds` とし、`size_t` の
引き算は `2 ^ 64` を法とする。繰り返しには回数の上限を与え、使い切ったときを `unfinished` とする。どちらの走査も、列を単位に
分ける `AnnexB.unitsBy` にあたることを示す。
-/

namespace RtcEgress.Passthrough

open Lib Lib.AnnexB

inductive Fault where
  | outOfBounds
  | unfinished
  /-- `memcpy` の大きさが範囲を外れる。 -/
  | badCopy
  deriving DecidableEq

/-- フレームの配列。大きさは `PTRDIFF_MAX` を超えない。 -/
structure Frame where
  data : List UInt8
  fits : data.length < 2 ^ 63

def read (data : List UInt8) (i : Nat) : Except Fault UInt8 :=
  match data[i]? with
  | some b => .ok b
  | none => .error .outOfBounds

/-- `data + a` から `data + b` までの範囲。 -/
def slice (data : List UInt8) (a b : Nat) : Except Fault (List UInt8) :=
  if a ≤ b ∧ b ≤ data.length then .ok ((data.drop a).take (b - a)) else .error .outOfBounds

/-- `size_t` の引き算。 -/
def sub (a b : Nat) : Nat := (a + 2 ^ 64 - b) % 2 ^ 64

/-- `p && q`。 -/
def both (p q : Except Fault Bool) : Except Fault Bool := do
  if ← p then q else return false

/-- `p || q`。 -/
def orElse (p q : Except Fault Bool) : Except Fault Bool := do
  if ← p then return true else q

variable (data : List UInt8)

def isByte (i : Nat) (b : UInt8) : Except Fault Bool := do return (← read data i) == b

/-- `i` から始まる開始符号の長さ。三バイトの符号の読み取りが範囲の中であることは、`guarded` のときだけ確かめる。 -/
def startCodeLen (guarded : Bool) (i : Nat) : Except Fault Nat := do
  if ← both (.ok (i + 3 < data.length)) (both (isByte data i 0) (both (isByte data (i + 1) 0)
      (both (isByte data (i + 2) 0) (isByte data (i + 3) 1)))) then return 4
  else if ← both (.ok (!guarded || i + 2 < data.length)) (both (isByte data i 0) (both (isByte data (i + 1) 0)
      (isByte data (i + 2) 1))) then return 3
  else return 0

/-- 次の開始符号が `j` から始まる。 -/
def closesAt (j : Nat) : Except Fault Bool :=
  both (isByte data j 0) (both (isByte data (j + 1) 0)
    (orElse (isByte data (j + 2) 1) (both (.ok (j + 3 < data.length)) (both (isByte data (j + 2) 0) (isByte data (j + 3) 1)))))

/-- `j` から順に、`n` 回まで次の開始符号を探す。 -/
def nalEndFrom : (n : Nat) → (j : Nat) → Except Fault Nat
  | 0, _ => .ok data.length
  | n + 1, j => do
      if ← closesAt data j then return j else nalEndFrom n (j + 1)

/-- `for (size_t j = start; j < length - 2; j++)` の結果。 -/
def findNalEnd (start : Nat) : Except Fault Nat := nalEndFrom data (sub data.length 2 - start) start

/-- 末尾の零を除く。 -/
def trimZeros (nalStart : Nat) : (nalEnd : Nat) → Except Fault Nat
  | 0 => .ok 0
  | e + 1 =>
      if nalStart < e + 1 then do
        if ← isByte data e 0 then trimZeros nalStart e else return e + 1
      else .ok (e + 1)

def nalType (isHevc : Bool) (b : UInt8) : Nat := if isHevc then ((b >>> 1) &&& 0x3F).toNat else (b &&& 0x1F).toNat

def parseFrom (isHevc : Bool) : (n : Nat) → (i : Nat) → Except Fault (List (Nat × List UInt8))
  | 0, _ => .error .unfinished
  | n + 1, i =>
      if i < sub data.length 3 then do
        let len ← startCodeLen data false i
        if len = 0 then parseFrom isHevc n (i + 1)
        else if data.length ≤ i + len then return []
        else
          let b ← read data (i + len)
          let nalEnd ← findNalEnd data (i + len + 1)
          let nalEnd ← trimZeros data (i + len) nalEnd
          let unit ← slice data (i + len) nalEnd
          let rest ← parseFrom isHevc n nalEnd
          return (nalType isHevc b, unit) :: rest
      else .ok []

def parseAnnexBNalUnits (isHevc : Bool) : Except Fault (List (Nat × List UInt8)) :=
  parseFrom data isHevc (data.length + 1) 0

/-- パラメータセットの種類である。 -/
def isParamSet (isHevc : Bool) (nalType : Nat) : Bool :=
  if isHevc then 32 ≤ nalType && nalType ≤ 34 else nalType == 7 || nalType == 8

/-- `static_cast<uint32_t>` した長さの四バイト。 -/
def lengthBytes (length : Nat) : List UInt8 :=
  let nalLen := length % 2 ^ 32
  [UInt8.ofNat (nalLen >>> 24), UInt8.ofNat (nalLen >>> 16), UInt8.ofNat (nalLen >>> 8), UInt8.ofNat nalLen]

def avccFrom (isHevc : Bool) : (n : Nat) → (i : Nat) → Except Fault (List UInt8)
  | 0, _ => .error .unfinished
  | n + 1, i =>
      if i < data.length then do
        let len ← startCodeLen data true i
        if len = 0 then avccFrom isHevc n (i + 1)
        else if data.length ≤ i + len then return []
        else
          let nalEnd ← findNalEnd data (i + len)
          let b ← read data (i + len)
          if isParamSet isHevc (nalType isHevc b) then avccFrom isHevc n nalEnd
          else
            let unit ← slice data (i + len) nalEnd
            let rest ← avccFrom isHevc n nalEnd
            return lengthBytes (nalEnd - (i + len)) ++ unit ++ rest
      else .ok []

def annexBToAvcc (isHevc : Bool) : Except Fault (List UInt8) := avccFrom data isHevc (data.length + 1) 0

/-! ## 読み取り -/

variable {data}

@[simp] theorem ok_bind {α β : Type} (a : α) (f : α → Except Fault β) : (Except.ok a >>= f) = f a := rfl

/-- 残りの列の `k` 番目のバイト。 -/
def look (l : List UInt8) (k : Nat) (b : UInt8) : Except Fault Bool :=
  match l[k]? with
  | some c => .ok (c == b)
  | none => .error .outOfBounds

theorem isByte_of_drop {i : Nat} {l : List UInt8} (hl : data.drop i = l) (k : Nat) (b : UInt8) :
    isByte data (i + k) b = look l k b := by
  unfold isByte read look
  rw [← hl, List.getElem?_drop]
  cases data[i + k]? <;> rfl

theorem length_of_drop {i : Nat} {l : List UInt8} (hl : data.drop i = l) (hi : i ≤ data.length) :
    data.length = i + l.length := by
  have h := congrArg List.length hl
  rw [List.length_drop] at h
  omega

theorem both_ok (p : Bool) (q : Except Fault Bool) : both (.ok p) q = if p then q else .ok false := by
  cases p <;> rfl

theorem orElse_ok (p : Bool) (q : Except Fault Bool) : orElse (.ok p) q = if p then .ok true else q := by
  cases p <;> rfl

/-- `k` から続くバイトを順に比べる。 -/
def looks (l : List UInt8) : (k : Nat) → List UInt8 → Except Fault Bool
  | _, [] => .ok true
  | k, [b] => look l k b
  | k, b :: c :: bs => both (look l k b) (looks l (k + 1) (c :: bs))

theorem look_of_lt {l : List UInt8} {k : Nat} (hk : k < l.length) (b : UInt8) : look l k b = .ok (l[k] == b) := by
  unfold look
  rw [List.getElem?_eq_getElem hk]

theorem looks_eq {l : List UInt8} {k : Nat} (bs : List UInt8) (h : k + bs.length ≤ l.length) :
    looks l k bs = .ok (bs.isPrefixOf (l.drop k)) := by
  induction bs generalizing k with
  | nil => rfl
  | cons b bs ih =>
      rw [List.length_cons] at h
      have hk : k < l.length := by omega
      have hrest := ih (k := k + 1) (by omega)
      rw [List.drop_eq_getElem_cons hk, List.isPrefixOf]
      have hflip : (b == l[k]) = (l[k] == b) := BEq.comm
      cases bs with
      | nil => rw [looks, look_of_lt hk, hflip, List.isPrefixOf, Bool.and_true]
      | cons c bs =>
          rw [looks, look_of_lt hk, hrest, both_ok, hflip]
          cases l[k] == b <;> rfl

theorem isPrefixOf_short {bs l : List UInt8} (h : l.length < bs.length) : bs.isPrefixOf l = false := by
  rw [Bool.eq_false_iff]
  intro hpre
  have := (List.isPrefixOf_iff_prefix.mp hpre).length_le
  omega

/-- 長さを確かめてから比べる。 -/
theorem looks_guarded (l bs : List UInt8) (hbs : bs ≠ []) :
    both (.ok (bs.length - 1 < l.length)) (looks l 0 bs) = .ok (bs.isPrefixOf l) := by
  have hpos := List.length_pos_of_ne_nil hbs
  rw [both_ok]
  split
  · rename_i h
    rw [decide_eq_true_eq] at h
    rw [looks_eq bs (by omega), List.drop_zero]
  · rename_i h
    rw [decide_eq_true_eq] at h
    rw [isPrefixOf_short (by omega)]

/-- 三バイトの符号の読み取りが範囲の中であれば、開始符号の長さが得られる。 -/
theorem startCodeLen_eq {i : Nat} {guarded : Bool} (hi : i < data.length) (hg : guarded = true ∨ i + 3 < data.length) :
    startCodeLen data guarded i = .ok (starts (data.drop i)) := by
  generalize hl : data.drop i = l
  have hlen := length_of_drop hl hi.le
  have hread := isByte_of_drop hl
  have hread0 := hread 0
  rw [Nat.add_zero] at hread0
  have hlong := looks_guarded l [0, 0, 0, 1] (by simp)
  have hshort : both (.ok (!guarded || 2 < l.length)) (looks l 0 [0, 0, 1]) = .ok ([0, 0, 1].isPrefixOf l) := by
    cases hg with
    | inl hguarded =>
        rw [hguarded]
        exact looks_guarded l [0, 0, 1] (by simp)
    | inr hlt =>
        have h2 : 2 < l.length := by omega
        have h0 := looks_eq (l := l) (k := 0) [0, 0, 1] (by simp only [List.length_cons, List.length_nil]; omega)
        simp only [h2, decide_true, Bool.or_true, both_ok, if_true, h0, List.drop_zero]
  simp only [looks, List.length_cons, List.length_nil, Nat.reduceAdd, Nat.reduceSub] at hlong hshort
  unfold startCodeLen starts
  simp only [hread, hread0, hlen, Nat.add_lt_add_iff_left, hlong, hshort, ok_bind]
  cases [0, 0, 0, 1].isPrefixOf l with
  | true => rfl
  | false =>
      cases [0, 0, 1].isPrefixOf l with
      | true => rfl
      | false => rfl

theorem closesAt_eq {j : Nat} (hj : j + 3 ≤ data.length) : closesAt data j = .ok (decide (starts (data.drop j) ≠ 0)) := by
  generalize hl : data.drop j = l
  have hlen := length_of_drop hl (by omega)
  have hread := isByte_of_drop hl
  have hread0 := hread 0
  rw [Nat.add_zero] at hread0
  unfold closesAt
  simp only [hread, hread0, hlen, Nat.add_lt_add_iff_left]
  match l with
  | [] => simp only [List.length_nil] at hlen; omega
  | [a] => simp only [List.length_cons, List.length_nil] at hlen; omega
  | [a, b] => simp only [List.length_cons, List.length_nil] at hlen; omega
  | a :: b :: c :: l =>
      have hzero : look (a :: b :: c :: l) 0 0 = .ok (a == 0) := rfl
      have hone : look (a :: b :: c :: l) 1 0 = .ok (b == 0) := rfl
      have htwo (v : UInt8) : look (a :: b :: c :: l) 2 v = .ok (c == v) := rfl
      simp only [hzero, hone, htwo, both_ok, orElse_ok]
      unfold starts
      simp only [List.isPrefixOf, BEq.comm (a := (0 : UInt8)), BEq.comm (a := (1 : UInt8))]
      cases a == 0 with
      | false => rfl
      | true =>
          cases b == 0 with
          | false => rfl
          | true =>
              cases l with
              | nil => cases c == 1 <;> simp
              | cons d l =>
                  have hthree : look (a :: b :: c :: d :: l) 3 1 = .ok (d == 1) := rfl
                  rw [hthree]
                  by_cases hd : 1 = d
                  · subst hd
                    cases c == 1 <;> cases c == 0 <;> simp
                  · cases c == 1 <;> cases c == 0 <;> simp [hd, Ne.symm hd]

theorem sub_eq {a b : Nat} (hb : b ≤ a) (ha : a < 2 ^ 64) : sub a b = a - b := by
  unfold sub
  omega

theorem nalEndFrom_eq (n : Nat) {j : Nat} (hj : j ≤ data.length) (hn : n = data.length - 2 - j) :
    nalEndFrom data n j = .ok (j + (body (data.drop j)).length) := by
  induction n generalizing j with
  | zero =>
      have hshort : (data.drop j).length ≤ 2 := by
        rw [List.length_drop]
        omega
      rw [nalEndFrom, body_short hshort, List.length_drop]
      congr 1
      omega
  | succ n ih =>
      have hlt : j < data.length := by omega
      rw [nalEndFrom, closesAt_eq (by omega), ok_bind, List.drop_eq_getElem_cons hlt, body]
      cases Nat.decEq (starts (data[j] :: data.drop (j + 1))) 0 with
      | isTrue hzero =>
          rw [if_neg (by rw [decide_eq_true_eq]; exact not_not.mpr hzero), if_pos hzero,
            ih (by omega) (by omega), List.length_cons]
          congr 1
          omega
      | isFalse hne =>
          rw [if_pos (decide_eq_true hne), if_neg hne]
          rfl

theorem findNalEnd_eq (hdata : 2 ≤ data.length) (hfits : data.length < 2 ^ 63) {start : Nat} (hs : start ≤ data.length) :
    findNalEnd data start = .ok (start + (body (data.drop start)).length) := by
  have hsub : sub data.length 2 = data.length - 2 := sub_eq hdata (by omega)
  rw [findNalEnd, hsub, nalEndFrom_eq _ hs rfl]

theorem strip_concat (l : List UInt8) (b : UInt8) : strip (l ++ [b]) = if b == 0 then strip l else l ++ [b] :=
  List.rdropWhile_concat _ _ _

theorem trimZeros_eq {nalStart : Nat} (e : Nat) (hs : nalStart ≤ e) (he : e ≤ data.length) :
    trimZeros data nalStart e = .ok (nalStart + (strip ((data.drop nalStart).take (e - nalStart))).length) := by
  induction e with
  | zero =>
      have hzero : nalStart = 0 := by omega
      rw [hzero]
      rfl
  | succ e ih =>
      rw [trimZeros]
      split
      · rename_i hlt
        have hread : isByte data e 0 = .ok (data[e] == 0) := by
          unfold isByte read
          rw [List.getElem?_eq_getElem (by omega)]
          rfl
        have hlast : (data.drop nalStart).take (e + 1 - nalStart) = (data.drop nalStart).take (e - nalStart) ++ [data[e]] := by
          have hsucc : e + 1 - nalStart = e - nalStart + 1 := by omega
          rw [hsucc, List.take_add_one, List.getElem?_drop, List.getElem?_eq_getElem (by omega)]
          simp only [Nat.add_sub_cancel' (show nalStart ≤ e by omega), Option.toList_some]
        rw [hread, ok_bind, hlast, strip_concat]
        split
        · exact ih (by omega) (by omega)
        · rw [← hlast, List.length_take, List.length_drop]
          refine congrArg Except.ok ?_
          omega
      · have heq : nalStart = e + 1 := by omega
        rw [heq, Nat.sub_self, List.take_zero]
        rfl

theorem trimmedEnd {s : Nat} (hs : s < data.length) :
    trimZeros data s (s + 1 + (body (data.drop (s + 1))).length) = .ok (s + (bodyAfterFirst (data.drop s)).length) := by
  have hbody := (prefix_body (data.drop (s + 1))).length_le
  have hfirst := prefix_first_body (data.drop s)
  rw [List.drop_drop] at hfirst
  have htake := List.prefix_iff_eq_take.mp hfirst
  have hlen : ((data.drop s).take 1 ++ body (data.drop (s + 1))).length = 1 + (body (data.drop (s + 1))).length := by
    rw [List.length_append, List.length_take, List.length_drop]
    omega
  have hsub : s + 1 + (body (data.drop (s + 1))).length - s = 1 + (body (data.drop (s + 1))).length := by omega
  rw [List.length_drop] at hbody
  rw [trimZeros_eq _ (by omega) (by omega), hsub, ← hlen, ← htake, bodyAfterFirst, List.drop_drop]

theorem lt_of_drop {i : Nat} {b : UInt8} {l : List UInt8} (h : data.drop i = b :: l) : i < data.length := by
  by_contra hge
  rw [List.drop_eq_nil_of_le (by omega)] at h
  cases h

theorem add_length_le {a : Nat} {u : List UInt8} (h : u <+: data.drop a) (ha : a ≤ data.length) : a + u.length ≤ data.length := by
  have hle := h.length_le
  rw [List.length_drop] at hle
  omega

theorem slice_of_prefix_drop {a : Nat} {u : List UInt8} (h : u <+: data.drop a) (ha : a ≤ data.length) :
    slice data a (a + u.length) = .ok u := by
  unfold slice
  rw [if_pos ⟨Nat.le_add_right _ _, add_length_le h ha⟩, Nat.add_sub_cancel_left]
  exact congrArg Except.ok (List.prefix_iff_eq_take.mp h).symm

theorem read_drop {a : Nat} {b : UInt8} {l : List UInt8} (h : data.drop a = b :: l) : read data a = .ok b := by
  have hget : (data.drop a)[0]? = data[a + 0]? := List.getElem?_drop
  rw [h, Nat.add_zero, List.getElem?_cons_zero] at hget
  unfold read
  rw [← hget]

/-! ## 走査の結果 -/

theorem parseFrom_eq (isHevc : Bool) (hdata : 3 ≤ data.length) (hfits : data.length < 2 ^ 63) (n : Nat) {i : Nat}
    (hi : i ≤ data.length) (hn : data.length - i < n) :
    parseFrom data isHevc n i =
      .ok ((unitsBy bodyAfterFirst (data.drop i)).map fun u => (nalType isHevc (u.headD 0), u)) := by
  have hsub : sub data.length 3 = data.length - 3 := sub_eq hdata (by omega)
  induction n generalizing i with
  | zero => omega
  | succ n ih =>
      rw [parseFrom, hsub]
      split
      · rename_i hlt
        rw [startCodeLen_eq (by omega) (.inr (by omega)), ok_bind]
        have hcons := List.drop_eq_getElem_cons (l := data) (i := i) (by omega)
        split
        · rename_i hzero
          rw [ih (by omega) (by omega), hcons, unitsBy_skip (by rw [← hcons]; exact hzero)]
        · rename_i hne
          have hrest : (data.drop i).drop (starts (data.drop i)) = data.drop (i + starts (data.drop i)) := List.drop_drop
          rw [unitsBy_starts hne hrest]
          have hthree := three_le_starts hne
          generalize hstart : i + starts (data.drop i) = s
          cases hdrop : data.drop s with
          | nil =>
              rw [if_pos (List.drop_eq_nil_iff.mp hdrop), if_pos rfl]
              rfl
          | cons b l =>
              have hs := lt_of_drop hdrop
              generalize hu : bodyAfterFirst (b :: l) = u
              have hpre : u <+: data.drop s := hdrop ▸ hu ▸ prefix_bodyAfterFirst (b :: l)
              have hle := add_length_le hpre hs.le
              have htrim := trimmedEnd hs
              have hnext : (b :: l).drop u.length = data.drop (s + u.length) := by rw [← hdrop, List.drop_drop]
              have htype : u.headD 0 = b := hu ▸ headD_bodyAfterFirst b l
              rw [hdrop, hu] at htrim
              rw [if_neg (by omega), if_neg (List.cons_ne_nil b l), read_drop hdrop, ok_bind,
                findNalEnd_eq (by omega) hfits (by omega), ok_bind, htrim, ok_bind, slice_of_prefix_drop hpre hs.le, ok_bind,
                ih (by omega) (by omega), ok_bind, hnext, List.map_cons, htype]
              rfl
      · rename_i hge
        rw [unitsBy_short (by rw [List.length_drop]; omega), List.map_nil]

theorem parseAnnexBNalUnits_eq (isHevc : Bool) (hdata : 3 ≤ data.length) (hfits : data.length < 2 ^ 63) :
    parseAnnexBNalUnits data isHevc = .ok ((unitsBy bodyAfterFirst data).map fun u => (nalType isHevc (u.headD 0), u)) := by
  have h := parseFrom_eq isHevc hdata hfits (data.length + 1) (Nat.zero_le _) (by omega)
  rwa [List.drop_zero] at h

theorem lengthBytes_eq (n : Nat) : lengthBytes n = Framing.bigEndian 4 n := by
  have hbyte (k m : Nat) (h : k % 256 = m % 256) : UInt8.ofNat k = UInt8.ofNat m := by
    apply UInt8.toNat.inj
    rw [UInt8.toNat_ofNat', UInt8.toNat_ofNat', h]
  have h24 := hbyte (n % 2 ^ 32 / 2 ^ 24) (n / 256 / 256 / 256) (by omega)
  have h16 := hbyte (n % 2 ^ 32 / 2 ^ 16) (n / 256 / 256) (by omega)
  have h8 := hbyte (n % 2 ^ 32 / 2 ^ 8) (n / 256) (by omega)
  have h0 := hbyte (n % 2 ^ 32) n (by omega)
  unfold lengthBytes
  simp only [Framing.bigEndian, List.nil_append, List.cons_append, Nat.shiftRight_eq_div_pow, h24, h16, h8, h0]

/-- パケットに残す単位である。 -/
def kept (isHevc : Bool) (u : List UInt8) : Bool := !isParamSet isHevc (nalType isHevc (u.headD 0))

theorem avccFrom_eq (isHevc : Bool) (hfits : data.length < 2 ^ 63) (n : Nat) {i : Nat}
    (hi : i ≤ data.length) (hn : data.length - i < n) :
    avccFrom data isHevc n i = .ok (((unitsBy body (data.drop i)).filter (kept isHevc)).flatMap (Framing.prefixed 4)) := by
  induction n generalizing i with
  | zero => omega
  | succ n ih =>
      rw [avccFrom]
      split
      · rename_i hlt
        rw [startCodeLen_eq hlt (.inl rfl), ok_bind]
        have hcons := List.drop_eq_getElem_cons hlt
        split
        · rename_i hzero
          rw [ih (by omega) (by omega), hcons, unitsBy_skip (by rw [← hcons]; exact hzero)]
        · rename_i hne
          have hrest : (data.drop i).drop (starts (data.drop i)) = data.drop (i + starts (data.drop i)) := List.drop_drop
          rw [unitsBy_starts hne hrest]
          have hthree := three_le_starts hne
          generalize hstart : i + starts (data.drop i) = s
          cases hdrop : data.drop s with
          | nil =>
              rw [if_pos (List.drop_eq_nil_iff.mp hdrop), if_pos rfl]
              rfl
          | cons b l =>
              have hs := lt_of_drop hdrop
              generalize hu : body (b :: l) = u
              have hpre : u <+: data.drop s := hdrop ▸ hu ▸ prefix_body (b :: l)
              have hle := add_length_le hpre hs.le
              have hend := findNalEnd_eq (by omega) hfits hs.le
              have hnext : (b :: l).drop u.length = data.drop (s + u.length) := by rw [← hdrop, List.drop_drop]
              have htype : u.headD 0 = b := hu ▸ headD_body b l
              have hkept : kept isHevc u = !isParamSet isHevc (nalType isHevc b) := by rw [kept, htype]
              rw [hdrop, hu] at hend
              rw [if_neg (by omega), if_neg (List.cons_ne_nil b l), hend, ok_bind, read_drop hdrop, ok_bind,
                slice_of_prefix_drop hpre hs.le, ih (by omega) (by omega), hnext, List.filter_cons, hkept]
              cases isParamSet isHevc (nalType isHevc b) with
              | true => rfl
              | false =>
                  simp only [Bool.not_false, if_true, Bool.false_eq_true, if_false, ok_bind, List.flatMap_cons,
                    Framing.prefixed, Nat.add_sub_cancel_left, lengthBytes_eq]
                  rfl
      · rename_i hge
        rw [List.drop_eq_nil_of_le (by omega), unitsBy]
        rfl

theorem annexBToAvcc_eq (isHevc : Bool) (hfits : data.length < 2 ^ 63) :
    annexBToAvcc data isHevc = .ok (((unitsBy body data).filter (kept isHevc)).flatMap (Framing.prefixed 4)) := by
  have h := avccFrom_eq isHevc hfits (data.length + 1) (Nat.zero_le _) (by omega)
  rwa [List.drop_zero] at h

end RtcEgress.Passthrough
