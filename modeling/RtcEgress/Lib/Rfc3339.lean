import Mathlib.Data.Nat.Digits.Defs

/-!
# RFC 3339 の時刻

1970 年からの日数を年月日に直し、時刻を書き出し、読み取る。書き出した時刻は必ず読める。
-/

namespace RtcEgress.Lib.Rfc3339

/-! ## 決まった幅の十進数 -/

/-- 幅 `w` の十進数。 -/
def pad : Nat → Nat → List Char
  | 0, _ => []
  | w + 1, n => Nat.digitChar (n / 10 ^ w % 10) :: pad w n

def digit? (c : Char) : Option Nat := if '0' ≤ c ∧ c ≤ '9' then some (c.toNat - 48) else none

/-- `acc` に続けて `w` 桁を読む。 -/
def readDigits : Nat → Nat → List Char → Option (Nat × List Char)
  | 0, acc, s => some (acc, s)
  | w + 1, acc, c :: s => (digit? c).bind fun d => readDigits w (10 * acc + d) s
  | _ + 1, _, [] => none

theorem digit?_digitChar : ∀ d < 10, digit? (Nat.digitChar d) = some d := by decide

theorem readDigits_pad (w n acc : Nat) (s : List Char) :
    readDigits w acc (pad w n ++ s) = some (10 ^ w * acc + n % 10 ^ w, s) := by
  induction w generalizing acc with
  | zero => simp [readDigits, pad, Nat.mod_one]
  | succ w ih =>
      have hdigit : n / 10 ^ w % 10 < 10 := Nat.mod_lt _ (by decide)
      have hmod : n % 10 ^ (w + 1) = n % 10 ^ w + 10 ^ w * (n / 10 ^ w % 10) := Nat.mod_pow_succ
      have hpow : 10 ^ (w + 1) * acc = 10 ^ w * (10 * acc) := by rw [Nat.pow_succ, Nat.mul_assoc]
      rw [pad, List.cons_append, readDigits, digit?_digitChar _ hdigit, Option.bind_some, ih, hmod, hpow, Nat.mul_add]
      congr 2
      omega

theorem readDigits_pad_of_lt {w n : Nat} (h : n < 10 ^ w) (s : List Char) : readDigits w 0 (pad w n ++ s) = some (n, s) := by
  rw [readDigits_pad, Nat.mul_zero, Nat.zero_add, Nat.mod_eq_of_lt h]

/-! ## 年月日 -/

/-- 長さの列が区切る区間のうち、`d` を含むものの番号と、その中の位置。 -/
def locate : List Nat → Nat → Nat × Nat
  | [], d => (0, d)
  | l :: ls, d => if d < l then (0, d) else ((locate ls (d - l)).1 + 1, (locate ls (d - l)).2)

theorem locate_spec {ls : List Nat} {d : Nat} (h : d < ls.sum) :
    ∃ l, ls[(locate ls d).1]? = some l ∧ (locate ls d).2 < l := by
  induction ls generalizing d with
  | nil => exact absurd h (Nat.not_lt_zero d)
  | cons l ls ih =>
      rw [locate]
      by_cases hd : d < l
      · rw [if_pos hd]
        exact ⟨l, rfl, hd⟩
      · rw [if_neg hd]
        rw [List.sum_cons] at h
        exact ih (by omega)

def isLeap (year : Nat) : Bool := year % 4 == 0 && (year % 100 != 0 || year % 400 == 0)

def monthLengths (year : Nat) : List Nat := [31, if isLeap year then 29 else 28, 31, 30, 31, 30, 31, 31, 30, 31, 30, 31]

def yearLength (year : Nat) : Nat := if isLeap year then 366 else 365

/-- 400 年の日数。 -/
def cycleLength : Nat := 146097

/-- 1970 年 1 月 1 日からの日数を、年月日に直す。 -/
def civil (days : Nat) : Nat × Nat × Nat :=
  let inCycle := locate ((List.range 400).map fun i => yearLength (1970 + i)) (days % cycleLength)
  let year := 1970 + 400 * (days / cycleLength) + inCycle.1
  let inYear := locate (monthLengths year) inCycle.2
  (year, inYear.1 + 1, inYear.2 + 1)

theorem sum_monthLengths (year : Nat) : (monthLengths year).sum = yearLength year := by
  rw [monthLengths, yearLength]
  cases isLeap year <;> rfl

theorem yearLength_add (year cycles : Nat) : yearLength (year + 400 * cycles) = yearLength year := by
  have h4 : (year + 400 * cycles) % 4 = year % 4 := by omega
  have h100 : (year + 400 * cycles) % 100 = year % 100 := by omega
  have h400 : (year + 400 * cycles) % 400 = year % 400 := by omega
  rw [yearLength, yearLength, isLeap, isLeap, h4, h100, h400]

/-- 400 年のうちの年と、年の中の日。 -/
theorem locate_year (days : Nat) :
    (locate ((List.range 400).map fun i => yearLength (1970 + i)) (days % cycleLength)).2 < yearLength (civil days).1 := by
  have hsum : ((List.range 400).map fun i => yearLength (1970 + i)).sum = cycleLength := by decide +kernel
  have hcycle : days % cycleLength < cycleLength := Nat.mod_lt _ (by decide)
  rw [← hsum] at hcycle
  obtain ⟨n, hn, hday⟩ := locate_spec hcycle
  rw [hsum] at hn hday
  rw [List.getElem?_map, Option.map_eq_some_iff] at hn
  obtain ⟨i, hi, rfl⟩ := hn
  obtain ⟨hlt, hi⟩ := List.getElem?_eq_some_iff.mp hi
  rw [List.getElem_range] at hi
  rw [civil]
  dsimp only
  rw [hi, Nat.add_right_comm, yearLength_add]
  exact hday

/-- 月は 1 から 12 までで、日はその月にある。 -/
theorem civil_spec (days : Nat) : ∃ l, (monthLengths (civil days).1)[(civil days).2.1 - 1]? = some l ∧
    1 ≤ (civil days).2.1 ∧ 1 ≤ (civil days).2.2 ∧ (civil days).2.2 ≤ l := by
  have hyear := locate_year days
  rw [← sum_monthLengths] at hyear
  obtain ⟨l, hl, hday⟩ := locate_spec hyear
  exact ⟨l, hl, Nat.le_add_left 1 _, Nat.le_add_left 1 _, hday⟩

/-- 日数から年の上限が分かる。 -/
theorem civil_year_le (days : Nat) : (civil days).1 < 1970 + 400 * (days / cycleLength + 1) := by
  have hsum : ((List.range 400).map fun i => yearLength (1970 + i)).sum = cycleLength := by decide +kernel
  have hcycle : days % cycleLength < cycleLength := Nat.mod_lt _ (by decide)
  rw [← hsum] at hcycle
  obtain ⟨n, hn, -⟩ := locate_spec hcycle
  rw [hsum] at hn
  obtain ⟨hlt, -⟩ := List.getElem?_eq_some_iff.mp hn
  rw [List.length_map, List.length_range] at hlt
  rw [civil]
  dsimp only
  omega

/-! ## 時刻 -/

/-- 時刻と、分を単位とする時差。 -/
structure Time where
  year : Nat
  month : Nat
  day : Nat
  hour : Nat
  minute : Nat
  second : Nat
  nanosecond : Nat
  offset : Int
  deriving DecidableEq, Repr

/-- `2006-01-02T15:04:05` の形。 -/
def dateTime (year month day hour minute second : Nat) : List Char :=
  pad 4 year ++ '-' :: (pad 2 month ++ '-' :: (pad 2 day ++ 'T' :: (pad 2 hour ++ ':' :: (pad 2 minute ++ ':' :: pad 2 second))))

def expect (c : Char) : List Char → Option (List Char)
  | d :: s => if d = c then some s else none
  | [] => none

/-- 秒の小数。九桁より後は捨てる。 -/
def readFraction : List Char → Nat × List Char
  | '.' :: d :: s =>
      if (digit? d).isSome then
        let digits := (d :: s).takeWhile fun c => (digit? c).isSome
        let kept := digits.take 9
        (((readDigits kept.length 0 kept).getD (0, [])).1 * 10 ^ (9 - kept.length), (d :: s).drop digits.length)
      else (0, '.' :: d :: s)
  | s => (0, s)

/-- 時差。 -/
def readOffset (s : List Char) : Option Int :=
  match s with
  | ['Z'] => some 0
  | sign :: s => do
      let (hour, s) ← readDigits 2 0 s
      let s ← expect ':' s
      let (minute, s) ← readDigits 2 0 s
      if s = [] ∧ hour < 24 ∧ minute < 60 then
        if sign = '+' then some (60 * hour + minute) else if sign = '-' then some (-(60 * hour + minute)) else none
      else none
  | [] => none

/-- 月の日数を超えない日である。 -/
def validDate (year month day : Nat) : Bool :=
  decide (1 ≤ month) && decide (1 ≤ day) && ((monthLengths year)[month - 1]?).any (day ≤ ·)

def parse (s : String) : Option Time := do
  let (year, s) ← readDigits 4 0 s.toList
  let s ← expect '-' s
  let (month, s) ← readDigits 2 0 s
  let s ← expect '-' s
  let (day, s) ← readDigits 2 0 s
  let s ← expect 'T' s
  let (hour, s) ← readDigits 2 0 s
  let s ← expect ':' s
  let (minute, s) ← readDigits 2 0 s
  let s ← expect ':' s
  let (second, s) ← readDigits 2 0 s
  let (nanosecond, s) := readFraction s
  let offset ← readOffset s
  if validDate year month day && decide (hour < 24 ∧ minute < 60 ∧ second < 60) then
    some { year, month, day, hour, minute, second, nanosecond, offset }
  else none

/-- 末尾の零を除いた小数。 -/
def fraction (nanosecond : Nat) : List Char :=
  if nanosecond = 0 then [] else '.' :: ((pad 9 nanosecond).reverse.dropWhile (· = '0')).reverse

def writeOffset (offset : Int) : List Char :=
  if offset = 0 then ['Z']
  else (if offset < 0 then '-' else '+') :: (pad 2 (offset.natAbs / 60) ++ ':' :: pad 2 (offset.natAbs % 60))

/-- 書き出し。小数は要る桁だけを書く。 -/
def format (t : Time) : String :=
  String.ofList (dateTime t.year t.month t.day t.hour t.minute t.second ++ fraction t.nanosecond ++ writeOffset t.offset)

theorem length_pad (w n : Nat) : (pad w n).length = w := by
  induction w with
  | zero => rfl
  | succ w ih => rw [pad, List.length_cons, ih]

theorem digit?_of_mem_pad {w n : Nat} {c : Char} (h : c ∈ pad w n) : (digit? c).isSome = true := by
  induction w with
  | zero => cases h
  | succ w ih =>
      cases List.mem_cons.mp h with
      | inl heq => rw [heq, digit?_digitChar _ (Nat.mod_lt _ (by decide)), Option.isSome_some]
      | inr htail => exact ih htail

/-- 九桁までの小数は、数字でない文字の前まで読む。 -/
theorem readFraction_pad_append {w n : Nat} (hw : w < 9) (hn : n < 10 ^ (w + 1)) {c : Char} (hc : digit? c = none)
    (s : List Char) : readFraction ('.' :: (pad (w + 1) n ++ c :: s)) = (n * 10 ^ (8 - w), c :: s) := by
  have htake : (pad (w + 1) n ++ c :: s).takeWhile (fun c => (digit? c).isSome) = pad (w + 1) n := by
    rw [List.takeWhile_append_of_pos fun c hc => digit?_of_mem_pad hc, List.takeWhile_cons_of_neg (by simp [hc])]
    exact List.append_nil _
  have hkept : (pad (w + 1) n).take 9 = pad (w + 1) n := List.take_of_length_le (by rw [length_pad]; omega)
  have hread := readDigits_pad_of_lt hn []
  have hhead := digit?_digitChar (n / 10 ^ w % 10) (Nat.mod_lt _ (by decide))
  have hpad : pad (w + 1) n = Nat.digitChar (n / 10 ^ w % 10) :: pad w n := rfl
  rw [List.append_nil] at hread
  rw [hpad, List.cons_append, readFraction, hhead, if_pos Option.isSome_some, ← List.cons_append, ← hpad, htake]
  have hscale : 9 - (w + 1) = 8 - w := by omega
  simp only [hkept, length_pad, hread, hscale, Option.getD_some, List.drop_left' (length_pad (w + 1) n)]

theorem readFraction_pad {w n : Nat} (hw : w < 9) (hn : n < 10 ^ (w + 1)) (s : List Char) :
    readFraction ('.' :: (pad (w + 1) n ++ 'Z' :: s)) = (n * 10 ^ (8 - w), 'Z' :: s) :=
  readFraction_pad_append hw hn rfl s

theorem expect_cons (c : Char) (s : List Char) : expect c (c :: s) = some s := if_pos rfl

theorem monthLengths_le (year : Nat) : ∀ l ∈ monthLengths year, l ≤ 31 := by
  rw [monthLengths]
  cases isLeap year <;> decide

/-- 月も日も二桁である。 -/
theorem validDate_lt {year month day : Nat} (h : validDate year month day = true) : month < 100 ∧ day < 100 := by
  simp only [validDate, Bool.and_eq_true, decide_eq_true_eq, Option.any_eq_true] at h
  obtain ⟨⟨hmonth, hday⟩, l, hl, hle⟩ := h
  have hlong := monthLengths_le year l (List.mem_of_getElem? hl)
  obtain ⟨hlt, -⟩ := List.getElem?_eq_some_iff.mp hl
  have hlength : (monthLengths year).length = 12 := rfl
  omega

/-- 日数から直した年月日は正しい。 -/
theorem validDate_civil (days : Nat) : validDate (civil days).1 (civil days).2.1 (civil days).2.2 = true := by
  obtain ⟨l, hl, hmonth, hday, hle⟩ := civil_spec days
  simp only [validDate, hmonth, hday, hl, hle, decide_true, Bool.and_self, Option.any_some]

theorem readDigits_bind {α : Type} {w n : Nat} (hn : n < 10 ^ w) (s : List Char) (rest : Nat × List Char → Option α) :
    (readDigits w 0 (pad w n ++ s) >>= rest) = rest (n, s) := by
  rw [readDigits_pad_of_lt hn]
  rfl

theorem expect_bind {α : Type} (c : Char) (s : List Char) (rest : List Char → Option α) :
    (expect c (c :: s) >>= rest) = rest s := by
  rw [expect_cons]
  rfl

/-- 年月日から秒までを読む。 -/
theorem parse_dateTime {year month day hour minute second : Nat} (s : List Char) (hyear : year < 10000)
    (hdate : validDate year month day = true) (hhour : hour < 24) (hminute : minute < 60) (hsecond : second < 60) :
    parse (String.ofList (dateTime year month day hour minute second ++ s)) =
      (readOffset (readFraction s).2).map fun offset =>
        { year, month, day, hour, minute, second, nanosecond := (readFraction s).1, offset } := by
  obtain ⟨hmonth, hday⟩ := validDate_lt hdate
  have hvalid : (validDate year month day && decide (hour < 24 ∧ minute < 60 ∧ second < 60)) = true := by
    rw [hdate, Bool.true_and]
    exact decide_eq_true ⟨hhour, hminute, hsecond⟩
  rw [parse, String.toList_ofList, dateTime]
  simp only [List.append_assoc, List.cons_append]
  rw [readDigits_bind hyear, expect_bind, readDigits_bind hmonth, expect_bind, readDigits_bind hday, expect_bind,
    readDigits_bind (w := 2) (Nat.lt_trans hhour (by decide)), expect_bind,
    readDigits_bind (w := 2) (Nat.lt_trans hminute (by decide)), expect_bind,
    readDigits_bind (w := 2) (Nat.lt_trans hsecond (by decide)), hvalid]
  cases readOffset (readFraction s).2 <;> rfl

/-! ## 書き出しと読み取り -/

theorem pad_succ (w n : Nat) : pad (w + 1) n = pad w (n / 10) ++ [Nat.digitChar (n % 10)] := by
  induction w with
  | zero => simp [pad]
  | succ w ih =>
      have hdiv : n / 10 ^ (w + 1) = n / 10 / 10 ^ w := by rw [Nat.div_div_eq_div_mul, Nat.pow_succ']
      rw [pad, ih, pad, hdiv, List.cons_append]

theorem digitChar_eq_zero_iff : ∀ d < 10, Nat.digitChar d = '0' ↔ d = 0 := by decide

/-- 末尾の零を除くと、零で終わらない数の十進数になる。 -/
theorem strip_pad (w : Nat) {n : Nat} (hn : n < 10 ^ w) : ∃ k m, k ≤ w ∧ m < 10 ^ k ∧ n = m * 10 ^ (w - k) ∧
    ((pad w n).reverse.dropWhile (· = '0')).reverse = pad k m := by
  induction w generalizing n with
  | zero => exact ⟨0, n, Nat.le_refl 0, hn, (Nat.mul_one n).symm, rfl⟩
  | succ w ih =>
      have hdigit := digitChar_eq_zero_iff (n % 10) (Nat.mod_lt n (by decide))
      by_cases hzero : n % 10 = 0
      · have hlt : n / 10 < 10 ^ w := Nat.div_lt_of_lt_mul (Nat.pow_succ' ▸ hn)
        obtain ⟨k, m, hk, hm, hmul, hstrip⟩ := ih hlt
        refine ⟨k, m, Nat.le_succ_of_le hk, hm, ?_, ?_⟩
        · have hten : n = n / 10 * 10 := (Nat.div_mul_cancel (Nat.dvd_of_mod_eq_zero hzero)).symm
          rw [Nat.succ_sub hk, Nat.pow_succ, ← Nat.mul_assoc, ← hmul]
          exact hten
        · rw [pad_succ, List.reverse_append, List.reverse_singleton, List.singleton_append,
            hdigit.mpr hzero, List.dropWhile_cons_of_pos (by decide), hstrip]
      · refine ⟨w + 1, n, Nat.le_refl _, hn, by rw [Nat.sub_self, Nat.pow_zero, Nat.mul_one], ?_⟩
        rw [pad_succ, List.reverse_append, List.reverse_singleton, List.singleton_append,
          List.dropWhile_cons_of_neg (by simpa using fun h => hzero (hdigit.mp h)), List.reverse_cons, List.reverse_reverse]

/-- 一つの時刻として書ける値である。 -/
structure Time.Valid (t : Time) : Prop where
  year_lt : t.year < 10000
  date : validDate t.year t.month t.day = true
  hour_lt : t.hour < 24
  minute_lt : t.minute < 60
  second_lt : t.second < 60
  nanosecond_lt : t.nanosecond < 10 ^ 9
  offset_lt : t.offset.natAbs < 1440

theorem writeOffset_head (offset : Int) : ∃ c s, writeOffset offset = c :: s ∧ digit? c = none ∧ c ≠ '.' := by
  unfold writeOffset
  split_ifs
  · exact ⟨'Z', [], rfl, rfl, by decide⟩
  · exact ⟨'-', _, rfl, rfl, by decide⟩
  · exact ⟨'+', _, rfl, rfl, by decide⟩

theorem readOffset_writeOffset {offset : Int} (h : offset.natAbs < 1440) : readOffset (writeOffset offset) = some offset := by
  have hhour : offset.natAbs / 60 < 10 ^ 2 := by omega
  have hminute : offset.natAbs % 60 < 10 ^ 2 := by omega
  have hread (sign : Char) : readOffset (sign :: (pad 2 (offset.natAbs / 60) ++ ':' :: pad 2 (offset.natAbs % 60))) =
      if sign = '+' then some (offset.natAbs : Int) else if sign = '-' then some (-(offset.natAbs : Int)) else none := by
    have hrange : offset.natAbs / 60 < 24 ∧ offset.natAbs % 60 < 60 := by omega
    have hsplit : (60 * ((offset.natAbs / 60 : Nat) : Int) + ((offset.natAbs % 60 : Nat) : Int)) = (offset.natAbs : Int) := by
      omega
    rw [readOffset.eq_2 _ _ (by intro h; simp [pad]), readDigits_bind hhour]
    dsimp only
    rw [expect_bind, ← List.append_nil (pad 2 (offset.natAbs % 60)), readDigits_bind hminute]
    simp only [hrange, and_self, if_true, hsplit]
  unfold writeOffset
  split_ifs with hzero hneg
  · rw [hzero]
    rfl
  · have habs : -(offset.natAbs : Int) = offset := by omega
    rw [hread, if_neg (by decide), if_pos rfl, habs]
  · have habs : (offset.natAbs : Int) = offset := by omega
    rw [hread, if_pos rfl, habs]

theorem readFraction_fraction {nanosecond : Nat} (h : nanosecond < 10 ^ 9) {c : Char} (hdigit : digit? c = none)
    (hdot : c ≠ '.') (s : List Char) : readFraction (fraction nanosecond ++ c :: s) = (nanosecond, c :: s) := by
  unfold fraction
  split
  next hzero =>
    rw [hzero]
    simp [readFraction, hdot]
  next hpos =>
    obtain ⟨k, m, hk, hm, hmul, hstrip⟩ := strip_pad 9 h
    cases k with
    | zero =>
        rw [Nat.lt_one_iff.mp hm, Nat.zero_mul] at hmul
        exact absurd hmul hpos
    | succ k =>
        have hscale : 9 - (k + 1) = 8 - k := by omega
        rw [hstrip, List.cons_append, readFraction_pad_append hk hm hdigit, hmul, hscale]

/-- 書いた時刻を読むと、元に戻る。 -/
theorem parse_format {t : Time} (h : t.Valid) : parse (format t) = some t := by
  obtain ⟨c, s, hoffset, hdigit, hdot⟩ := writeOffset_head t.offset
  have hfraction := readFraction_fraction h.nanosecond_lt hdigit hdot s
  rw [← hoffset] at hfraction
  rw [format, List.append_assoc, parse_dateTime _ h.year_lt h.date h.hour_lt h.minute_lt h.second_lt, hfraction,
    readOffset_writeOffset h.offset_lt]
  rfl

/-! ## 読めた時刻 -/

theorem digit?_lt {c : Char} {d : Nat} (h : digit? c = some d) : d < 10 := by
  unfold digit? at h
  split at h
  next hrange =>
    obtain rfl := Option.some.inj h
    have hnine : c.toNat ≤ 57 := hrange.2
    omega
  · cases h

theorem readDigits_lt {w acc : Nat} {s : List Char} {read : Nat × List Char} (h : readDigits w acc s = some read) :
    read.1 < 10 ^ w * (acc + 1) := by
  induction w generalizing acc s with
  | zero =>
      obtain rfl := Option.some.inj h
      dsimp only
      omega
  | succ w ih =>
      cases s with
      | nil => cases h
      | cons c s =>
          obtain ⟨d, hd, hrest⟩ := Option.bind_eq_some_iff.mp h
          have hlt := digit?_lt hd
          calc read.1 < 10 ^ w * (10 * acc + d + 1) := ih hrest
            _ ≤ 10 ^ w * (10 * (acc + 1)) := Nat.mul_le_mul_left _ (by omega)
            _ = 10 ^ (w + 1) * (acc + 1) := by rw [Nat.pow_succ, Nat.mul_assoc]

theorem readFraction_lt (s : List Char) : (readFraction s).1 < 10 ^ 9 := by
  unfold readFraction
  split
  next d s =>
    split
    · dsimp only
      generalize hkept : ((d :: s).takeWhile fun c => (digit? c).isSome).take 9 = kept
      have hlength : kept.length ≤ 9 := by rw [← hkept, List.length_take]; exact Nat.min_le_left _ _
      have hscale : 10 ^ kept.length * 10 ^ (9 - kept.length) = 10 ^ 9 := by rw [← Nat.pow_add]; congr 1; omega
      have hread : ((readDigits kept.length 0 kept).getD (0, [])).1 < 10 ^ kept.length := by
        cases hdigits : readDigits kept.length 0 kept with
        | none => exact Nat.pow_pos (by decide)
        | some read => simpa using readDigits_lt hdigits
      rw [← hscale]
      exact Nat.mul_lt_mul_of_pos_right hread (Nat.pow_pos (by decide))
    · exact Nat.pow_pos (by decide)
  · exact Nat.pow_pos (by decide)

theorem readOffset_lt {s : List Char} {offset : Int} (h : readOffset s = some offset) : offset.natAbs < 1440 := by
  unfold readOffset at h
  split at h
  · obtain rfl := Option.some.inj h
    decide
  · simp only [Option.bind_eq_bind, Option.bind_eq_some_iff] at h
    obtain ⟨hour, -, -, -, minute, -, hrange⟩ := h
    split_ifs at hrange <;> cases hrange <;> omega
  · cases h

theorem parse_valid {s : String} {t : Time} (h : parse s = some t) : t.Valid := by
  simp only [parse, Option.bind_eq_bind, Option.bind_eq_some_iff] at h
  obtain ⟨year, hyear, _, -, month, -, _, -, day, -, _, -, hour, -, _, -, minute, -, _, -, second, -, offset, hoffset, h⟩ := h
  split at h
  next hvalid =>
    obtain rfl := Option.some.inj h
    rw [Bool.and_eq_true, decide_eq_true_eq] at hvalid
    exact ⟨by simpa using readDigits_lt hyear, hvalid.1, hvalid.2.1, hvalid.2.2.1, hvalid.2.2.2,
      readFraction_lt _, readOffset_lt hoffset⟩
  · cases h

end RtcEgress.Lib.Rfc3339
