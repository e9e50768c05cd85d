import Mathlib.Algebra.GroupWithZero.Nat
import Mathlib.Data.List.Chain
import RtcEgress.Lib.Json
import RtcEgress.Lib.Pieces
import RtcEgress.Queue.Manager
import RtcEgress.Wire.LineMessageBuffer
import RtcEgress.Worker.TaskPipe

/-!
# 完了の通知の送受信

`src/src/task_pipe.cpp` の `sendCompletionMessage` が書くバイトの列と、`src/pkg/egress/manager.go` の
`listenForCompletionMessages` がそれを読む処理である。受ける側は、一回の読み込みごとに行へ分け、読み込みをまたぐ行を
つながない。主な結果は `delivered_iff` である。通知が届くのは、読み込みの境目がどれも改行の直前か直後に
あるときに限る。
-/

namespace RtcEgress.Wire

open RtcEgress.Lib RtcEgress.Lib.Json

/-! ## 送る側 -/

/-- `to_json` の欄。`nlohmann::json` のオブジェクトの欄は、鍵の順に並ぶ。 -/
def members (m : Worker.UDSCompletionMessage) : List (String × String) :=
  [("error", m.error), ("message", m.message), ("status", m.status), ("task_id", m.taskId)]

def dump (m : Worker.UDSCompletionMessage) : Bytes := objectText (members m)

/-- `sendCompletionMessage` が書く列。 -/
def sendCompletionMessage (m : Worker.UDSCompletionMessage) : Bytes := dump m ++ [newline]

def stream (ms : List Worker.UDSCompletionMessage) : Bytes := ms.flatMap sendCompletionMessage

/-! ## 受ける側 -/

/-- `unicode.IsSpace` を満たす文字の UTF-8。 -/
def spaceRunes : List Bytes :=
  [[0x09], [0x0A], [0x0B], [0x0C], [0x0D], [0x20], [0xC2, 0x85], [0xC2, 0xA0], [0xE1, 0x9A, 0x80],
    [0xE2, 0x80, 0x80], [0xE2, 0x80, 0x81], [0xE2, 0x80, 0x82], [0xE2, 0x80, 0x83], [0xE2, 0x80, 0x84],
    [0xE2, 0x80, 0x85], [0xE2, 0x80, 0x86], [0xE2, 0x80, 0x87], [0xE2, 0x80, 0x88], [0xE2, 0x80, 0x89],
    [0xE2, 0x80, 0x8A], [0xE2, 0x80, 0xA8], [0xE2, 0x80, 0xA9], [0xE2, 0x80, 0xAF], [0xE2, 0x81, 0x9F],
    [0xE3, 0x80, 0x80]]

/-- 始めから `runes` のどれかが続くかぎり除く。 -/
def trimStart (runes : List Bytes) : Nat → Bytes → Bytes
  | 0, s => s
  | n + 1, s =>
      match runes.find? (·.isPrefixOf s) with
      | some r => trimStart runes n (s.drop r.length)
      | none => s

/-- `strings.TrimSpace`。終わりは、逆に並べて除く。 -/
def trimSpace (s : Bytes) : Bytes :=
  let t := trimStart spaceRunes s.length s
  (trimStart (spaceRunes.map List.reverse) t.length t.reverse).reverse

/-- 文字列の欄への書き込み。`null` はもとの値のままにし、ほかの型は誤りになる。 -/
def stringField (v : Value) (old : String) : Option String :=
  match v with
  | .string raw => some (unquote raw)
  | .null => some old
  | _ => none

/-- 一つの組の復号。欄の名前は大文字と小文字を区別しない。 -/
def setField (c : Queue.UDSCompletionMessage) (m : List UInt8 × Value) : Option Queue.UDSCompletionMessage :=
  let key := unquote m.1
  if Queue.equalFold key "task_id" then (stringField m.2 c.taskID).map fun s => { c with taskID := s }
  else if Queue.equalFold key "status" then (stringField m.2 c.status).map fun s => { c with status := s }
  else if Queue.equalFold key "error" then (stringField m.2 c.error).map fun s => { c with error := s }
  else if Queue.equalFold key "message" then (stringField m.2 c.message).map fun s => { c with message := s }
  else some c

/-- `json.Unmarshal` の `UDSCompletionMessage` への復号。一行は 4096 バイト以下なので、入れ子の深さの上限 10000 には
届かない。 -/
def unmarshal (line : Bytes) : Option Queue.UDSCompletionMessage := do
  match ← parse line with
  | .null => some ⟨"", "", "", ""⟩
  | .object ms => ms.foldlM setField ⟨"", "", "", ""⟩
  | _ => none

/-- 一回の読み込みの上限。 -/
def readSize : Nat := 4096

/-- 一回の読み込みで `handleTaskCompletion` に渡すもの。 -/
def handled (data : Bytes) : List Queue.UDSCompletionMessage :=
  ((trimSpace data).splitOn newline).filterMap fun line =>
    if trimSpace line = [] then none else unmarshal (trimSpace line)

def listenForCompletionMessages (reads : List Bytes) : List Queue.UDSCompletionMessage := reads.flatMap handled

/-- 送った欄のままの通知。 -/
def received (m : Worker.UDSCompletionMessage) : Queue.UDSCompletionMessage := ⟨m.taskId, m.status, m.error, m.message⟩

/-! ## 一つの通知 -/

theorem plainKey_members (m : Worker.UDSCompletionMessage) : ∀ kv ∈ members m, PlainKey kv.1 := by
  simp only [members, List.forall_mem_cons, List.not_mem_nil, false_implies, implies_true, and_true]
  exact ⟨⟨_, _, rfl, by decide⟩, ⟨_, _, rfl, by decide⟩, ⟨_, _, rfl, by decide⟩, ⟨_, _, rfl, by decide⟩⟩

theorem unmarshal_dump (m : Worker.UDSCompletionMessage) : unmarshal (dump m) = some (received m) := by
  have hstatus : Queue.equalFold "status" "task_id" = false := by decide
  have herror : Queue.equalFold "error" "task_id" = false ∧ Queue.equalFold "error" "status" = false := by decide
  have hmessage : Queue.equalFold "message" "task_id" = false ∧ Queue.equalFold "message" "status" = false ∧
      Queue.equalFold "message" "error" = false := by decide
  have hself (k : String) : Queue.equalFold k k = true := by simp [Queue.equalFold]
  rw [unmarshal, dump, parse_objectText (by simp [members])]
  simp [members, setField, stringField, unquote_esc, received, hstatus, herror, hmessage, hself]

/-- 状態の書かれた通知として読める行。 -/
def reports (line : Bytes) : Bool := (unmarshal line).any (·.status ≠ "")

theorem reports_dump {m : Worker.UDSCompletionMessage} (h : m.status ≠ "") : reports (dump m) = true := by
  simp [reports, unmarshal_dump, received, h]

theorem reports_nil : reports [] = false := by decide

/-- 通知の真の一部は、状態の書かれた通知として読めない。 -/
theorem atomic_dump (m : Worker.UDSCompletionMessage) : Atomic reports (dump m) := by
  intro x hx hp
  rw [reports, Option.any_eq_true] at hp
  obtain ⟨c, hc, hstatus⟩ := hp
  rw [unmarshal] at hc
  obtain ⟨v, hv, hc⟩ := Option.bind_eq_some_iff.mp hc
  cases v with
  | null =>
      cases hc
      simp at hstatus
  | object ms =>
      apply parse_part (by simp [members]) (plainKey_members m) hx hv
      rintro rfl
      cases hc
      simp at hstatus
  | string raw => cases hc
  | other => cases hc

/-! ## 書かれた列の行 -/

theorem newline_notMem_dump (m : Worker.UDSCompletionMessage) : newline ∉ dump m :=
  fun h => absurd (le_of_mem_objectText h) (by decide)

theorem splitOn_stream (ms : List Worker.UDSCompletionMessage) :
    (stream ms).splitOn newline = ms.map dump ++ [[]] :=
  splitOn_flatMap dump fun m _ => newline_notMem_dump m

theorem dump_ne_nil (m : Worker.UDSCompletionMessage) : dump m ≠ [] := by simp [dump, objectText]

theorem fields_stream (ms : List Worker.UDSCompletionMessage) : fields newline (stream ms) = ms.map dump := by
  rw [fields, splitOn_stream, List.filter_append, List.filter_eq_self.mpr]
  · simp
  · simp [dump_ne_nil]

theorem mem_splitOn_stream {ms : List Worker.UDSCompletionMessage} {w : Bytes}
    (h : w ∈ (stream ms).splitOn newline) : w = [] ∨ ∃ m ∈ ms, w = dump m := by
  rw [splitOn_stream, List.mem_append, List.mem_map, List.mem_singleton] at h
  rcases h with ⟨m, hm, rfl⟩ | rfl
  · exact .inr ⟨m, hm, rfl⟩
  · exact .inl rfl

theorem atomicFields_stream (ms : List Worker.UDSCompletionMessage) : AtomicFields newline reports (stream ms) := by
  intro w hw
  rcases mem_splitOn_stream hw with rfl | ⟨m, -, rfl⟩
  · intro x hx _
    exact List.infix_nil.mp hx
  · exact atomic_dump m

/-! ## 空白の除去 -/

theorem trimStart_suffix (runes : List Bytes) (n : Nat) (s : Bytes) : trimStart runes n s <:+ s := by
  induction n generalizing s with
  | zero => exact List.suffix_rfl
  | succ n ih =>
      rw [trimStart]
      split
      · exact (ih _).trans (List.drop_suffix _ s)
      · exact List.suffix_rfl

theorem trimSpace_within (s : Bytes) : trimSpace s <:+: s := by
  have hsuffix := trimStart_suffix spaceRunes s.length s
  rw [trimSpace]
  generalize trimStart spaceRunes s.length s = t at hsuffix ⊢
  have hprefix := trimStart_suffix (spaceRunes.map List.reverse) t.length t.reverse
  have htrim : (trimStart (spaceRunes.map List.reverse) t.length t.reverse).reverse <+: t := by
    rw [← List.reverse_suffix, List.reverse_reverse]
    exact hprefix
  exact htrim.isInfix.trans hsuffix.isInfix

/-- 改行だけを除き、`b` の前で止まる文字の集まり。 -/
structure Strips (runes : List Bytes) (b : UInt8) : Prop where
  nonempty : ∀ r ∈ runes, r ≠ []
  strips : [newline] ∈ runes
  only : ∀ r ∈ runes, r.head? = some newline → r = [newline]
  stops : ∀ r ∈ runes, r.head? ≠ some b

theorem strips_start : Strips spaceRunes 0x7B := ⟨by decide, by decide, by decide, by decide⟩

theorem strips_end : Strips (spaceRunes.map List.reverse) 0x7D := ⟨by decide, by decide, by decide, by decide⟩

theorem head?_of_isPrefixOf {r s : Bytes} (hr : r ≠ []) (h : r.isPrefixOf s = true) : r.head? = s.head? := by
  obtain ⟨t, rfl⟩ := List.isPrefixOf_iff_prefix.mp h
  cases r with
  | nil => exact absurd rfl hr
  | cons c r => rfl

theorem Strips.trimStart_eq {runes : List Bytes} {b : UInt8} (h : Strips runes b) {n : Nat} {s : Bytes}
    (hn : s.length ≤ n) (hs : ∀ c ∈ (s.dropWhile (· == newline)).head?, c = b) :
    trimStart runes n s = s.dropWhile (· == newline) := by
  induction s generalizing n with
  | nil =>
      cases n with
      | zero => rfl
      | succ n =>
          have hnone : runes.find? (·.isPrefixOf ([] : Bytes)) = none := by
            apply List.find?_eq_none.mpr
            intro r hr hp
            exact h.nonempty r hr (List.prefix_nil.mp (List.isPrefixOf_iff_prefix.mp hp))
          simp [trimStart, hnone]
  | cons c s ih =>
      cases n with
      | zero => simp at hn
      | succ n =>
          cases hc : c == newline with
          | true =>
              obtain rfl := eq_of_beq hc
              have hsome : runes.find? (·.isPrefixOf (newline :: s)) = some [newline] := by
                obtain ⟨r, hr⟩ : ∃ r, runes.find? (·.isPrefixOf (newline :: s)) = some r := by
                  rw [← Option.isSome_iff_exists, List.find?_isSome]
                  exact ⟨_, h.strips, by simp⟩
                have hmem := List.mem_of_find?_eq_some hr
                have hp := List.find?_some hr
                rw [hr, h.only r hmem (head?_of_isPrefixOf (h.nonempty r hmem) hp)]
              simp only [List.dropWhile_cons, beq_self_eq_true, if_true] at hs ⊢
              simp only [trimStart, hsome, List.length_singleton, List.drop_one, List.tail_cons]
              exact ih (by simpa using hn) hs
          | false =>
              simp only [List.dropWhile_cons, hc] at hs ⊢
              have hb : c = b := hs c rfl
              have hnone : runes.find? (·.isPrefixOf (c :: s)) = none := by
                apply List.find?_eq_none.mpr
                intro r hr hp
                exact h.stops r hr (by rw [head?_of_isPrefixOf (h.nonempty r hr) hp, hb]; rfl)
              simp [trimStart, hnone]

theorem fields_dropWhile (s : Bytes) : fields newline (s.dropWhile (· == newline)) = fields newline s := by
  induction s with
  | nil => rfl
  | cons c s ih =>
      rw [List.dropWhile_cons]
      split
      · next hc =>
          rw [eq_of_beq hc, fields_cons, ih]
      · rfl

theorem fields_reverse_dropWhile (s : Bytes) :
    fields newline (s.dropWhile (· == newline)).reverse = fields newline s.reverse := by
  induction s with
  | nil => rfl
  | cons c s ih =>
      rw [List.dropWhile_cons]
      split
      · next hc =>
          rw [eq_of_beq hc, List.reverse_cons, fields_concat, ih]
      · rfl

/-- 改行でない字で始まる列の、最初の欄。 -/
theorem exists_field_head (s : Bytes) {c : UInt8} (hc : c ∈ (s.dropWhile (· == newline)).head?) :
    ∃ w ∈ fields newline s, w.head? = some c := by
  induction s with
  | nil => simp at hc
  | cons b s ih =>
      rw [List.dropWhile_cons] at hc
      split at hc
      · next hb =>
          rw [eq_of_beq hb, fields_cons]
          exact ih hc
      · next hb =>
          obtain rfl : b = c := by simpa using hc
          cases hs : s.splitOn newline with
          | nil => exact absurd hs (List.splitOn_ne_nil newline s)
          | cons l lines =>
              have hsplit : (b :: s).splitOn newline = (b :: l) :: lines := by
                rw [List.splitOn_cons_eq_if_modifyHead, if_neg hb, hs, List.modifyHead_cons]
              exact ⟨b :: l, by simp [fields, hsplit], rfl⟩

theorem exists_field_getLast (s : Bytes) {c : UInt8} (hc : c ∈ (s.dropWhile (· == newline)).head?) :
    ∃ w ∈ fields newline s.reverse, w.getLast? = some c := by
  induction s with
  | nil => simp at hc
  | cons b s ih =>
      rw [List.dropWhile_cons] at hc
      split at hc
      · next hb =>
          rw [eq_of_beq hb, List.reverse_cons, fields_concat]
          exact ih hc
      · next hb =>
          obtain rfl : b = c := by simpa using hc
          have hsplit : (s.reverse ++ [b]).splitOn newline =
              terminated newline s.reverse ++ [unterminated newline s.reverse ++ [b]] := by
            rw [splitOn_append, List.splitOn_eq_singleton (by simpa using Ne.symm (by simpa using hb)),
              List.modifyHead_cons]
          exact ⟨unterminated newline s.reverse ++ [b], by simp [fields, hsplit], by simp⟩

/-- 通知だけからなる列では、空白を除いても空でない欄は変わらない。 -/
theorem fields_trimSpace {s : Bytes}
    (hs : ∀ w ∈ fields newline s, w.head? = some 0x7B ∧ w.getLast? = some 0x7D) :
    fields newline (trimSpace s) = fields newline s := by
  have hstart : trimStart spaceRunes s.length s = s.dropWhile (· == newline) := by
    apply strips_start.trimStart_eq le_rfl
    intro c hc
    obtain ⟨w, hw, hhead⟩ := exists_field_head s hc
    exact Option.some.inj (hhead.symm.trans (hs w hw).1)
  have hfields := fields_dropWhile s
  rw [trimSpace, hstart]
  generalize s.dropWhile (· == newline) = t at hfields
  have hend : trimStart (spaceRunes.map List.reverse) t.length t.reverse = t.reverse.dropWhile (· == newline) := by
    apply strips_end.trimStart_eq (by simp)
    intro c hc
    obtain ⟨w, hw, hlast⟩ := exists_field_getLast t.reverse hc
    rw [List.reverse_reverse, hfields] at hw
    exact Option.some.inj (hlast.symm.trans (hs w hw).2)
  rw [hend, fields_reverse_dropWhile, List.reverse_reverse, hfields]

theorem dump_ends (m : Worker.UDSCompletionMessage) :
    (dump m).head? = some 0x7B ∧ (dump m).getLast? = some 0x7D := by
  simp [dump, objectText, List.getLast?_cons, getLast?_membersText]

theorem trimSpace_dump (m : Worker.UDSCompletionMessage) : trimSpace (dump m) = dump m := by
  have hfields := fields_of_notMem (newline_notMem_dump m) (dump_ne_nil m)
  have htrim : fields newline (trimSpace (dump m)) = [dump m] := by
    rw [fields_trimSpace, hfields]
    rw [hfields]
    simpa using dump_ends m
  have hnotMem : newline ∉ trimSpace (dump m) := fun h => newline_notMem_dump m ((trimSpace_within _).subset h)
  have hne : trimSpace (dump m) ≠ [] := by
    intro h
    simp [h] at htrim
  simpa [fields_of_notMem hnotMem hne] using htrim

/-! ## 一回の読み込み -/

theorem handled_eq (data : Bytes) :
    handled data = (fields newline (trimSpace data)).filterMap fun line =>
      if trimSpace line = [] then none else unmarshal (trimSpace line) := by
  rw [handled, fields, List.filterMap_filter]
  apply List.filterMap_congr
  intro line _
  have hnil : trimSpace [] = [] := rfl
  by_cases hline : line = []
  · simp [hline, hnil]
  · simp [hline]

/-- 読み込んだ列が欠けていない通知だけからなれば、そのとおりに渡る。 -/
theorem handled_of_fields {data : Bytes} (h : ∀ w ∈ fields newline data, ∃ m, w = dump m) :
    handled data = (fields newline data).filterMap unmarshal := by
  have hends : ∀ w ∈ fields newline data, w.head? = some 0x7B ∧ w.getLast? = some 0x7D := by
    intro w hw
    obtain ⟨m, rfl⟩ := h w hw
    exact dump_ends m
  rw [handled_eq, fields_trimSpace hends]
  apply List.filterMap_congr
  intro w hw
  obtain ⟨m, rfl⟩ := h w hw
  rw [trimSpace_dump, if_neg (dump_ne_nil m)]

/-- 一回の読み込みから渡る通知は、その中に欠けずにある通知より多くない。 -/
theorem countP_handled_le {data : Bytes} (h : AtomicFields newline reports data) :
    (handled data).countP (·.status ≠ "") ≤ whole newline reports data := by
  obtain ⟨u, v, hdata⟩ := trimSpace_within data
  have hut : AtomicFields newline reports (u ++ trimSpace data) := AtomicFields.left (by rwa [hdata])
  have hle : whole newline reports (trimSpace data) ≤ whole newline reports data := by
    have h₁ := whole_append_le hut reports_nil
    have h₂ := whole_append_le (r := u ++ trimSpace data) (s := v) (by rwa [hdata]) reports_nil
    rw [hdata] at h₂
    omega
  apply Nat.le_trans _ hle
  rw [handled, List.countP_filterMap, whole]
  apply List.countP_mono_left
  intro line hline hstatus
  -- 前後の空白を除いて通知として読める行は、もともと空白を持たない。
  have hreports : reports (trimSpace line) = true := by
    split at hstatus
    · simp at hstatus
    · cases hc : unmarshal (trimSpace line) <;> simp_all [reports]
  rwa [hut.right line hline _ (trimSpace_within line) hreports] at hreports

/-! ## 読み込みの列 -/

theorem countP_listen_le {reads : List Bytes} (h : AtomicFields newline reports reads.flatten) :
    (listenForCompletionMessages reads).countP (·.status ≠ "") ≤ (reads.map (whole newline reports)).sum := by
  induction reads with
  | nil => simp [listenForCompletionMessages]
  | cons r reads ih =>
      rw [List.flatten_cons] at h
      have hr := countP_handled_le h.left
      have hrest := ih h.right
      simp only [listenForCompletionMessages, List.flatMap_cons, List.countP_append, List.map_cons,
        List.sum_cons] at hrest ⊢
      omega

theorem whole_stream {ms : List Worker.UDSCompletionMessage} (h : ∀ m ∈ ms, m.status ≠ "") :
    whole newline reports (stream ms) = ms.length := by
  have hdumps : (ms.map dump).countP reports = (ms.map dump).length := by
    apply List.countP_eq_length.mpr
    simpa using fun m hm => reports_dump (h m hm)
  rw [whole, splitOn_stream, List.countP_append, hdumps]
  simp [reports_nil]

/-- 境目がどれも改行の直前か直後にあれば、どの通知も届く。 -/
theorem delivered_of_clean {ms : List Worker.UDSCompletionMessage} {reads : List Bytes}
    (hcut : reads.flatten = stream ms) (hne : ∀ r ∈ reads, r ≠ []) (hclean : reads.IsChain (Clean newline)) :
    listenForCompletionMessages reads = ms.map received := by
  have hfields : reads.flatMap (fields newline) = ms.map dump := by
    rw [← fields_flatten hclean hne, hcut, fields_stream]
  have hhandled : ∀ r ∈ reads, handled r = (fields newline r).filterMap unmarshal := by
    intro r hr
    apply handled_of_fields
    intro w hw
    have hmem : w ∈ ms.map dump := by
      rw [← hfields]
      exact List.mem_flatMap.mpr ⟨r, hr, hw⟩
    obtain ⟨m, -, rfl⟩ := List.mem_map.mp hmem
    exact ⟨m, rfl⟩
  calc listenForCompletionMessages reads
      = reads.flatMap fun r => (fields newline r).filterMap unmarshal := List.flatMap_congr hhandled
    _ = (reads.flatMap (fields newline)).filterMap unmarshal := (List.filterMap_flatMap ..).symm
    _ = (ms.map dump).filterMap unmarshal := by rw [hfields]
    _ = ms.map received := by simp [List.filterMap_map, unmarshal_dump]

/-- 改行から離れた境目が一つでもあれば、届かない通知がある。 -/
theorem clean_of_delivered {ms : List Worker.UDSCompletionMessage} {reads : List Bytes}
    (hstatus : ∀ m ∈ ms, m.status ≠ "") (hcut : reads.flatten = stream ms) (hne : ∀ r ∈ reads, r ≠ [])
    (h : listenForCompletionMessages reads = ms.map received) : reads.IsChain (Clean newline) := by
  rw [List.isChain_iff_forall_rel_of_append_cons_cons]
  rintro r s before after rfl
  by_contra hclean
  have hatomic := atomicFields_stream ms
  have hsplit : (before ++ [r]).flatten ++ (s :: after).flatten = stream ms := by
    rw [← hcut]
    simp
  have hr : r ≠ [] := hne r (by simp)
  have hs : s ≠ [] := hne s (by simp)
  have hlast : (before ++ [r]).flatten.getLast? = r.getLast? := by
    cases r using List.reverseRecOn <;> simp_all [List.getLast?_append]
  have hhead : (s :: after).flatten.head? = s.head? := by
    cases s <;> simp_all
  have hbroken : ¬Clean newline (before ++ [r]).flatten (s :: after).flatten := by
    rwa [Clean, hlast, hhead]
  have hlt : whole newline reports (before ++ [r]).flatten + whole newline reports (s :: after).flatten <
      whole newline reports (stream ms) := by
    rw [← hsplit]
    apply whole_append_lt (by rwa [hsplit]) _ (by simp [hr]) (by simp [hs]) hbroken
    intro w hw hw₀
    rw [hsplit] at hw
    obtain ⟨m, hm, rfl⟩ := (mem_splitOn_stream hw).resolve_left hw₀
    exact reports_dump (hstatus m hm)
  rw [whole_stream hstatus] at hlt
  rw [← hsplit] at hatomic
  have h₁ := sum_whole_le hatomic.left reports_nil
  have h₂ := sum_whole_le hatomic.right reports_nil
  have hcount : (listenForCompletionMessages (before ++ r :: s :: after)).countP (·.status ≠ "") = ms.length := by
    rw [h, List.countP_map, List.countP_eq_length]
    intro m hm
    exact decide_eq_true (hstatus m hm)
  have hcutAtomic : AtomicFields newline reports (before ++ r :: s :: after).flatten := by
    rw [hcut]
    exact atomicFields_stream ms
  have hle := countP_listen_le hcutAtomic
  simp only [List.map_append, List.map_cons, List.map_nil, List.sum_append, List.sum_cons, List.sum_nil] at h₁ h₂ hle
  omega

/-- 通知が欄もそのままに一度ずつ順に渡るのは、読み込みの境目がどれも改行の直前か直後にあるときに限る。 -/
theorem delivered_iff (ms : List Worker.UDSCompletionMessage) (reads : List Bytes)
    (hstatus : ∀ m ∈ ms, m.status = "success" ∨ m.status = "failed") (hcut : reads.flatten = stream ms)
    (hreads : ∀ r ∈ reads, r ≠ [] ∧ r.length ≤ readSize) :
    listenForCompletionMessages reads = ms.map received ↔ reads.IsChain (Clean newline) := by
  have hne : ∀ r ∈ reads, r ≠ [] := fun r hr => (hreads r hr).1
  constructor
  · apply clean_of_delivered _ hcut hne
    intro m hm
    rcases hstatus m hm with h | h <;> simp [h]
  · exact delivered_of_clean hcut hne

def finished : Worker.UDSCompletionMessage := ⟨"t", "success", "", "done"⟩

theorem finished_delivered :
    listenForCompletionMessages [dump finished, [newline]] = [finished].map received := by
  apply (delivered_iff [finished] [dump finished, [newline]] (by decide) (by simp [stream, sendCompletionMessage])
    (by decide)).mpr
  simp [Clean]

/-- 始めの一バイトだけが先に読み込まれると、通知は失われる。 -/
theorem not_delivered :
    ¬∀ (ms : List Worker.UDSCompletionMessage) (reads : List Bytes),
      (∀ m ∈ ms, m.status = "success" ∨ m.status = "failed") → reads.flatten = stream ms →
      (∀ r ∈ reads, r ≠ [] ∧ r.length ≤ readSize) → listenForCompletionMessages reads = ms.map received := by
  intro h
  have hcut : [[0x7B], membersText (members finished) ++ [newline]].flatten = stream [finished] := by
    simp [stream, sendCompletionMessage, dump, objectText]
  have hdelivered := h [finished] _ (by decide) hcut (by decide)
  have hchain := clean_of_delivered (by decide) hcut (by simp) hdelivered
  simp [Clean, members, membersText, quote, newline] at hchain

end RtcEgress.Wire
