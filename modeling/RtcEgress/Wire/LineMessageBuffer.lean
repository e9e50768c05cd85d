import RtcEgress.Lib.Lines
import Mathlib.Data.List.TakeWhile

/-!
# `src/include/line_message_buffer.h`

ソケットから読んだバイトの列をつなぎ、改行で終わる行に戻すバッファである。読み込みのループは、`append` が
`false` を返したところで終わる。

主な結果は `appendAll_eq` である。切れ目がどこにあっても、取り出す行は、バイトの列の全体を改行で分けた行で決まる。
-/

namespace RtcEgress.Wire

open RtcEgress.Lib

abbrev Bytes := List UInt8

def newline : UInt8 := 10

def maxMessageSize : Nat := 65536

structure LineMessageBuffer where
  pending : Bytes := []
  deriving DecidableEq

/-- `append` の結果。`ok` が返す値である。 -/
structure Appended where
  consumed : List Bytes
  ok : Bool
  buffer : LineMessageBuffer
  deriving DecidableEq

/-- `append` の `while`。`rest` は `pending_` の `begin` から先である。長すぎる行があれば `none` を返す。 -/
def scan (rest : Bytes) : List Bytes × Option Bytes :=
  match _h : rest.idxOf? newline with
  | none => ([], some rest)
  | some n =>
      if maxMessageSize < n then ([], none)
      else
        let (lines, left) := scan (rest.drop (n + 1))
        (if n ≠ 0 then rest.take n :: lines else lines, left)
termination_by rest.length
decreasing_by
  obtain ⟨h, -⟩ := List.idxOf?_eq_some_iff.mp _h
  simp only [List.length_drop]
  omega

def LineMessageBuffer.append (b : LineMessageBuffer) (data : Bytes) : Appended :=
  match scan (b.pending ++ data) with
  | (lines, none) => ⟨lines, false, {}⟩
  | (lines, some left) => if maxMessageSize < left.length then ⟨lines, false, {}⟩ else ⟨lines, true, ⟨left⟩⟩

/-- 読み込んだ列を順に渡す。`false` が返れば、残りは渡さない。 -/
def LineMessageBuffer.appendAll (b : LineMessageBuffer) : List Bytes → Appended
  | [] => ⟨[], true, b⟩
  | data :: rest =>
      let first := b.append data
      if first.ok then
        let others := first.buffer.appendAll rest
        { others with consumed := first.consumed ++ others.consumed }
      else first

/-! ## 全体を改行で分けた行 -/

def fits (l : Bytes) : Bool := l.length ≤ maxMessageSize

def nonEmpty (lines : List Bytes) : List Bytes := lines.filter (· ≠ [])

/-- 取り出される行。長すぎる行があれば、その前で終わる。 -/
def expected (s : Bytes) : List Bytes := nonEmpty ((terminated newline s).takeWhile fits)

/-- 残りも含めて、長すぎる行がない。 -/
def allFit (s : Bytes) : Bool := (s.splitOn newline).all fits

/-! ## 一回の `append` -/

theorem idxOf?_append_cons {l : Bytes} (h : newline ∉ l) (s : Bytes) :
    (l ++ newline :: s).idxOf? newline = some l.length := by
  induction l with
  | nil => simp [List.idxOf?_cons]
  | cons b l ih =>
      simp only [List.mem_cons, not_or] at h
      simp [List.idxOf?_cons, Ne.symm h.1, ih h.2]

theorem fits_iff {l : Bytes} : fits l = true ↔ ¬maxMessageSize < l.length := by simp [fits]

theorem scan_of_notMem {s : Bytes} (h : newline ∉ s) : scan s = ([], some s) := by
  rw [scan]
  split
  · rfl
  · next n hn => simp [List.idxOf?_eq_none_iff.mpr h] at hn

theorem scan_append_cons {l : Bytes} (h : newline ∉ l) (s : Bytes) :
    scan (l ++ newline :: s) =
      if fits l then (nonEmpty [l] ++ (scan s).1, (scan s).2) else ([], none) := by
  rw [scan]
  split
  · next hn => simp [idxOf?_append_cons h] at hn
  · next n hn =>
      obtain rfl : l.length = n := by simpa [idxOf?_append_cons h] using hn
      by_cases hl : maxMessageSize < l.length
      · simp [fits_iff, hl]
      · simp only [fits_iff, hl, not_false_eq_true, if_true, if_false]
        cases l <;> simp [nonEmpty]

theorem nonEmpty_append (lines others : List Bytes) :
    nonEmpty (lines ++ others) = nonEmpty lines ++ nonEmpty others := List.filter_append ..

theorem expected_append_cons {l : Bytes} (h : newline ∉ l) (s : Bytes) :
    expected (l ++ newline :: s) = if fits l then nonEmpty [l] ++ expected s else [] := by
  by_cases hl : fits l
  · simp [expected, terminated_append_cons h, hl, ← nonEmpty_append]
  · simp [expected, terminated_append_cons h, hl, nonEmpty]

theorem scan_eq (s : Bytes) :
    scan s =
      (expected s, if (terminated newline s).all fits then some (unterminated newline s) else none) := by
  induction s using lines_induction newline with
  | tail t ht => simp [scan_of_notMem ht, expected, nonEmpty, ht]
  | line l s hl ih =>
      rw [scan_append_cons hl, ih, expected_append_cons hl, terminated_append_cons hl,
        unterminated_append_cons hl]
      by_cases h : fits l <;> simp [h]

theorem allFit_eq (s : Bytes) :
    allFit s = ((terminated newline s).all fits && fits (unterminated newline s)) := by
  simp [allFit, ← terminated_append_unterminated]

/-- 渡したあとのバッファ。長すぎる行があれば空になる。 -/
def leftover (s : Bytes) : LineMessageBuffer := if allFit s then ⟨unterminated newline s⟩ else {}

theorem LineMessageBuffer.append_eq (b : LineMessageBuffer) (data : Bytes) :
    b.append data = ⟨expected (b.pending ++ data), allFit (b.pending ++ data), leftover (b.pending ++ data)⟩ := by
  simp only [append, scan_eq, leftover, allFit_eq]
  by_cases ht : (terminated newline (b.pending ++ data)).all fits
  · by_cases hu : fits (unterminated newline (b.pending ++ data))
    · simp [ht, hu, fits_iff.mp hu]
    · have hu' := not_not.mp (mt fits_iff.mpr hu)
      simp [ht, hu, hu']
  · simp [ht]

/-! ## 切れ目によらない -/

theorem allFit_append_cons {l : Bytes} (h : newline ∉ l) (s : Bytes) :
    allFit (l ++ newline :: s) = (fits l && allFit s) := by
  simp [allFit, List.splitOn_append_cons_self_of_not_mem h]

theorem allFit_of_notMem {s : Bytes} (h : newline ∉ s) : allFit s = fits s := by
  simp [allFit, List.splitOn_eq_singleton h]

/-- すべて収まる列には、残りに続きをつないだものの行が続く。 -/
theorem append_of_allFit {s : Bytes} (h : allFit s = true) (t : Bytes) :
    expected (s ++ t) = expected s ++ expected (unterminated newline s ++ t) ∧
      allFit (s ++ t) = allFit (unterminated newline s ++ t) := by
  induction s using lines_induction newline with
  | tail s hs => simp [hs, expected, nonEmpty]
  | line l s hl ih =>
      simp only [allFit_append_cons hl, Bool.and_eq_true] at h
      obtain ⟨he, ha⟩ := ih h.2
      simp [expected_append_cons hl, allFit_append_cons hl, unterminated_append_cons hl, h.1, he, ha]

/-- 収まらない行の後に何が来ても、取り出される行は変わらない。 -/
theorem append_of_not_allFit {s : Bytes} (h : allFit s = false) (t : Bytes) :
    expected (s ++ t) = expected s ∧ allFit (s ++ t) = false := by
  induction s using lines_induction newline with
  | tail s hs =>
      rw [allFit_of_notMem hs] at h
      have hlong : ∀ l, fits (s ++ l) = false := by
        intro l
        simp only [fits, decide_eq_false_iff_not, List.length_append] at h ⊢
        omega
      constructor
      · rw [expected, expected, terminated_append_of_notMem hs, terminated_of_notMem hs]
        cases terminated newline t <;> simp [hlong]
      · rw [allFit, splitOn_append_of_notMem hs]
        cases ht : t.splitOn newline with
        | nil => exact absurd ht (List.splitOn_ne_nil newline t)
        | cons l lines => simp [hlong]
  | line l s hl ih =>
      by_cases hf : fits l
      · obtain ⟨he, ha⟩ := ih (by simpa [allFit_append_cons hl, hf] using h)
        simp [expected_append_cons hl, allFit_append_cons hl, he, ha]
      · simp [expected_append_cons hl, allFit_append_cons hl, hf]

/-- 主な結果。空のバッファから渡すと、切れ目によらず、全体の行で結果が決まる。 -/
theorem LineMessageBuffer.appendAll_eq {b : LineMessageBuffer} (hb : newline ∉ b.pending) (hfit : fits b.pending)
    (chunks : List Bytes) :
    b.appendAll chunks =
      ⟨expected (b.pending ++ chunks.flatten), allFit (b.pending ++ chunks.flatten),
        leftover (b.pending ++ chunks.flatten)⟩ := by
  induction chunks generalizing b with
  | nil =>
      have ha : allFit b.pending = true := by rw [allFit_of_notMem hb, hfit]
      simp [appendAll, leftover, ha, hb, expected, nonEmpty]
  | cons data rest ih =>
      simp only [appendAll, append_eq, List.flatten_cons, ← List.append_assoc]
      generalize b.pending ++ data = s
      by_cases ha : allFit s
      · have hn : newline ∉ (leftover s).pending := by simp [leftover, ha, notMem_unterminated]
        have hf : fits (leftover s).pending := by
          simp only [allFit_eq, Bool.and_eq_true] at ha
          simp [leftover, allFit_eq, ha]
        obtain ⟨he, ha'⟩ := append_of_allFit ha rest.flatten
        rw [ih hn hf]
        simp [ha, he, ha', leftover, unterminated_append s]
      · obtain ⟨he, ha'⟩ := append_of_not_allFit (by simpa using ha) rest.flatten
        simp [ha, he, ha', leftover]

/-! ## 呼び出しの間のバッファ -/

theorem leftover_bounded (s : Bytes) :
    (leftover s).pending.length ≤ maxMessageSize ∧ newline ∉ (leftover s).pending := by
  rw [leftover]
  split
  next h =>
    simp only [allFit_eq, Bool.and_eq_true, fits, decide_eq_true_eq] at h
    exact ⟨h.2, notMem_unterminated s⟩
  · simp

/-- 収まらない行の終わりが届いていれば、収まらない。 -/
theorem allFit_of_long {s : Bytes} {l : Bytes} (hl : l ∈ terminated newline s) (h : maxMessageSize < l.length) :
    allFit s = false := by
  have hf : ¬fits l := by simpa [fits_iff] using h
  simp only [allFit_eq, Bool.and_eq_false_iff]
  left
  simpa using ⟨l, hl, by simpa using hf⟩

/-- 始めの長すぎる行の前までが取り出される。 -/
theorem expected_of_long {s l : Bytes} {before after : List Bytes} (hs : s.splitOn newline = before ++ l :: after)
    (hbefore : ∀ m ∈ before, fits m) (hl : ¬fits l) : expected s = nonEmpty before ∧ allFit s = false := by
  constructor
  · induction s using lines_induction newline generalizing before with
    | tail t ht =>
        obtain ⟨rfl, -⟩ : before = [] ∧ _ := by
          simpa [List.splitOn_eq_singleton ht, List.singleton_eq_append_iff] using hs
        simp [expected, ht, nonEmpty]
    | line k s hk ih =>
        rw [List.splitOn_append_cons_self_of_not_mem hk] at hs
        rw [expected_append_cons hk]
        cases before with
        | nil =>
            obtain ⟨rfl, -⟩ := List.cons_eq_cons.mp hs
            simp [hl, nonEmpty]
        | cons m before =>
            obtain ⟨rfl, hs'⟩ := List.cons_eq_cons.mp hs
            simp only [List.mem_cons, forall_eq_or_imp] at hbefore
            rw [if_pos hbefore.1, ih hs' hbefore.2, ← nonEmpty_append, List.singleton_append]
  · simp [allFit, hs, hl]

/-- 行は、切れ目によらず、全体の列だけで決まる。 -/
theorem appendAll_chunking (chunks : List Bytes) :
    let s := chunks.flatten
    let r := LineMessageBuffer.appendAll {} chunks
    -- 取り出される行は、空でない行の、`s` だけで決まる始めの部分である
    r.consumed = expected s ∧ expected s <+: nonEmpty (terminated newline s) ∧
    -- 長すぎる行がなければ、すべての行を取り出し、残りがバッファに残る
    ((∀ l ∈ terminated newline s ++ [unterminated newline s], l.length ≤ maxMessageSize) →
      r.ok = true ∧ r.consumed = nonEmpty (terminated newline s) ∧ r.buffer.pending = unterminated newline s) ∧
    -- 長すぎる行があれば、その前までを取り出し、その行の終わりが届くまでに `false` が返る
    (∀ before l after, terminated newline s ++ [unterminated newline s] = before ++ l :: after →
      (∀ m ∈ before, m.length ≤ maxMessageSize) → maxMessageSize < l.length →
        r.consumed = nonEmpty before ∧ r.ok = false ∧
        ∀ n, before.length < (terminated newline (chunks.take n).flatten).length →
          (LineMessageBuffer.appendAll {} (chunks.take n)).ok = false) ∧
    -- 呼び出しの間、バッファは上限を超えず、改行を含まない
    (∀ n, let b := (LineMessageBuffer.appendAll {} (chunks.take n)).buffer
      b.pending.length ≤ maxMessageSize ∧ newline ∉ b.pending) := by
  intro s r
  have hall (cs : List Bytes) : LineMessageBuffer.appendAll {} cs =
      ⟨expected cs.flatten, allFit cs.flatten, leftover cs.flatten⟩ := by
    simpa using LineMessageBuffer.appendAll_eq (b := {}) (by simp) (by simp [fits]) cs
  have hr : r = ⟨expected s, allFit s, leftover s⟩ := hall chunks
  rw [hr]
  refine ⟨rfl, ?_, ?_, ?_, ?_⟩
  · exact (List.takeWhile_prefix _).filter _
  · intro h
    have hfit : allFit s = true := by
      rw [allFit, ← terminated_append_unterminated, List.all_eq_true]
      intro l hl
      simpa [fits] using h l hl
    have ht : (terminated newline s).takeWhile fits = terminated newline s := by
      apply List.takeWhile_eq_self_iff.mpr
      intro l hl
      simpa [fits] using h l (List.mem_append_left _ hl)
    exact ⟨hfit, by simp [expected, ht], by simp [leftover, hfit]⟩
  · intro before l after hs hbefore hl
    have hlong : ¬fits l := by simpa [fits_iff] using hl
    have hsplit : s.splitOn newline = before ++ l :: after := by rw [← hs, terminated_append_unterminated]
    obtain ⟨he, ha⟩ := expected_of_long hsplit (by simpa [fits] using hbefore) hlong
    refine ⟨he, ha, fun n hn => ?_⟩
    rw [hall]
    -- 届いた行は全体の行の始めの部分なので、長すぎる行を含む
    have hprefix : terminated newline (chunks.take n).flatten <+: before ++ l :: after := by
      rw [← hs]
      apply List.IsPrefix.trans _ (List.prefix_append _ _)
      have hcut : s = (chunks.take n).flatten ++ (chunks.drop n).flatten := by
        rw [← List.flatten_append, List.take_append_drop]
      rw [hcut]
      exact terminated_prefix_append ..
    have hmem : before ++ [l] <+: terminated newline (chunks.take n).flatten := by
      apply List.prefix_of_prefix_length_le ⟨after, by simp⟩ hprefix
      simpa [Nat.add_one_le_iff] using hn
    exact allFit_of_long (hmem.subset (by simp)) hl
  · intro n
    simpa [hall] using leftover_bounded (chunks.take n).flatten

end RtcEgress.Wire
