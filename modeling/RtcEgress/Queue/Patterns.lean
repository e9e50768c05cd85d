import RtcEgress.Queue.Lemmas.Alone
import RtcEgress.Queue.Routing

/-!
# 監視するパターン

設定の例に書かれたパターンで、どのキーが集まるかを調べる。`*` は `:` にも照合するので、
`egress:*:record:*` は地域の位置に `web` が来るキーにも照合する。
-/

namespace RtcEgress.Queue

open RtcEgress.Lib

/-! ## 設定 -/

/-- `config/egress_config.yaml.example` の `worker_patterns`。 -/
def nativePatterns : List String :=
  ["egress:snapshot:*", "egress:record:*", "egress:rtmp:*", "egress:whip:*",
    "egress:*:snapshot:*", "egress:*:record:*", "egress:*:rtmp:*", "egress:*:whip:*"]

/-- `config/flexible_recorder_config.yaml.example` の `worker_patterns`。 -/
def webPatterns : List String := ["egress:web:*", "egress:*:web:*"]

/-- `NewWorkerManagerWithMode` が自分の停止のキューを加えたパターン。 -/
def workerPatterns (podID : String) (patterns : List String) : List String :=
  if stopQueueKey podID ∈ patterns then patterns else stopQueueKey podID :: patterns

/-- `utils.GenerateRandomID` の作る名前と、`flex-` の付いた名前。 -/
def isPodID (podID : String) : Bool := podID.toList.all fun c => c.isAlphanum || c == '-'

/-! ## パターンと欄 -/

/-- 種類が決まった位置にあるパターン。 -/
def headPattern (w : String) : String := "egress:" ++ (w ++ ":*")

/-- 種類の前に任意の文字を許すパターン。 -/
def middlePattern (w : String) : String := "egress:*:" ++ (w ++ ":*")

theorem nativePatterns_eq : nativePatterns = validCmds.map headPattern ++ validCmds.map middlePattern := by decide

theorem webPatterns_eq : webPatterns = [headPattern "web", middlePattern "web"] := by decide

def matchesKey (pattern key : String) : Bool := globMatch pattern.toList key.toList

/-- パターンの特別な文字も区切りも含まない。 -/
def isPlain (w : String) : Bool := w.toList.all fun c => c != '*' && c != '?' && c != ':'

theorem notMem_colon_of_isPlain {w : String} (h : isPlain w = true) : ':' ∉ w.toList := by
  intro hc
  simpa using List.all_eq_true.mp h ':' hc

theorem literal_of_isPlain {w : String} (h : isPlain w = true) (c : Char) (hc : c ∈ w.toList) : c ≠ '*' ∧ c ≠ '?' := by
  have hplain := List.all_eq_true.mp h c hc
  simp only [Bool.and_eq_true, bne_iff_ne] at hplain
  exact hplain.1

theorem matches_headPattern {w key : String} (hw : isPlain w) :
    matchesKey (headPattern w) key = true ↔ ∃ rest, rest ≠ [] ∧ splitColon key = "egress" :: w :: rest := by
  have hpat : (headPattern w).toList = ("egress:".toList ++ (w.toList ++ [':'])) ++ ['*'] := by
    simp [headPattern]
  have hlit : ∀ c ∈ "egress:".toList ++ (w.toList ++ [':']), c ≠ '*' ∧ c ≠ '?' := by
    simpa [or_imp, forall_and] using literal_of_isPlain hw
  have he : ':' ∉ "egress".toList := by decide
  rw [matchesKey, hpat, globMatch_literal hlit]
  simp only [globMatch_star_nil, and_true]
  constructor
  · rintro ⟨t, ht⟩
    have hkey : key = "egress" ++ (":" ++ (w ++ (":" ++ String.ofList t))) := by
      apply String.toList_inj.mp
      simpa using ht
    exact ⟨splitColon (String.ofList t), splitColon_ne_nil _,
      by rw [hkey, splitColon_append he, splitColon_append (notMem_colon_of_isPlain hw)]⟩
  · rintro ⟨rest, hne, hsplit⟩
    obtain ⟨t₁, rfl, -, h₁⟩ := exists_of_splitColon_cons hsplit (by simp)
    obtain ⟨t₂, rfl, -, -⟩ := exists_of_splitColon_cons h₁ hne
    exact ⟨t₂.toList, by simp⟩

theorem matches_middlePattern {w key : String} (hw : isPlain w) :
    matchesKey (middlePattern w) key = true ↔
      ∃ fields, splitColon key = "egress" :: fields ∧ w ∈ fields.tail.dropLast := by
  have hpat : (middlePattern w).toList = "egress:".toList ++ '*' :: ((':' :: (w.toList ++ [':'])) ++ ['*']) := by
    simp [middlePattern]
  have hlit : ∀ c ∈ ':' :: (w.toList ++ [':']), c ≠ '*' ∧ c ≠ '?' := by
    simpa [or_imp, forall_and] using literal_of_isPlain hw
  have he : ':' ∉ "egress".toList := by decide
  have hfields (t : String) : w ∈ (splitColon t).tail.dropLast ↔ w.toList ∈ (terminated ':' t.toList).tail := by
    have hdrop : (splitColon t).tail.dropLast = ((terminated ':' t.toList).tail).map String.ofList := by
      rw [splitColon, terminated, ← List.map_tail, ← List.map_dropLast, List.tail_dropLast]
    rw [hdrop, List.mem_map]
    constructor
    · rintro ⟨x, hx, rfl⟩
      simpa using hx
    · exact fun h => ⟨_, h, String.ofList_toList⟩
  rw [matchesKey, hpat, globMatch_literal (by simp)]
  simp only [globMatch_contains hlit, infix_iff_mem_terminated (notMem_colon_of_isPlain hw)]
  constructor
  · rintro ⟨t, ht, hin⟩
    have hkey : key = "egress" ++ (":" ++ String.ofList t) := by
      apply String.toList_inj.mp
      simpa using ht
    exact ⟨splitColon (String.ofList t), by rw [hkey, splitColon_append he], by simpa [hfields] using hin⟩
  · rintro ⟨fields, hsplit, hin⟩
    obtain ⟨t, rfl, -, rfl⟩ := exists_of_splitColon_cons hsplit (by rintro rfl; simp at hin)
    exact ⟨t.toList, by simp, (hfields t).mp hin⟩

/-- 欄の分かっているキーについての、二つのパターン。 -/
theorem matches_iff_fields {w key : String} {fields : List String} (hw : isPlain w)
    (hs : splitColon key = "egress" :: fields) :
    (matchesKey (headPattern w) key = true ↔ fields.head? = some w ∧ fields.tail ≠ []) ∧
      (matchesKey (middlePattern w) key = true ↔ w ∈ fields.tail.dropLast) := by
  constructor
  · rw [matches_headPattern hw, hs]
    cases fields with
    | nil => simp
    | cons f fields => simp [eq_comm, and_comm]
  · rw [matches_middlePattern hw, hs]
    simp

/-- ネイティブのキーの欄が受け入れられ、ウェブのパターンに照合しない条件。 -/
theorem fits_iff_fields {cmd region : String} {segs : List String} (hcmd : cmd ∈ validCmds) (hcw : cmd ≠ "web")
    (hregion : region ∉ reservedWords) (hs : segs ≠ []) :
    let fields := (if region = "" then [] else [region]) ++ cmd :: segs
    (∃ a, segs = [a]) ∨ (region = "" ∧ ∃ a ∈ validCmds, ∃ b, segs = [a, b]) ↔
      isValidQueueKey ("egress" :: fields) = true ∧ ¬(fields.head? = some "web" ∧ fields.tail ≠ []) ∧
        "web" ∉ fields.tail.dropLast := by
  have hrw : region ≠ "web" := by
    rintro rfl
    exact hregion (by decide)
  have hweb : "web" ∉ validCmds := by decide
  by_cases hr : region = ""
  · rcases segs with _ | ⟨a, _ | ⟨b, _ | ⟨c, _ | ⟨d, segs⟩⟩⟩⟩
    · exact absurd rfl hs
    · simp [isValidQueueKey, hr, hcmd, hcw]
    · have ha : a ∈ validCmds → a ≠ "web" := fun h h' => hweb (h' ▸ h)
      simp [isValidQueueKey, hr, hcw]
      exact fun h => (ha h).symm
    · -- 受け入れられるのは `web` が種類の前に来るときだけで、ウェブのパターンに照合する
      simp [isValidQueueKey, hr, hcw]
      exact fun ha _ hne => absurd ha.symm hne
    · simp [isValidQueueKey, hr]
  · rcases segs with _ | ⟨a, _ | ⟨b, _ | ⟨c, segs⟩⟩⟩
    · exact absurd rfl hs
    · simp [isValidQueueKey, hr, hcmd, hrw, Ne.symm hcw]
    · simp [isValidQueueKey, hr, hcw]
    · simp [isValidQueueKey, hr]

/-! ## 検査を通った名前のキー -/

/-- 検査を通った名前の組。 -/
structure Route where
  layout : String
  cmd : String
  channel : String
  region : String
  layout_valid : layout ∈ validLayouts
  cmd_valid : cmd ∈ validCmds
  channel_valid : isValidChannel channel
  region_valid : isRegion region

namespace Route

variable (r : Route)

def key : String := getQueueKey r.layout r.cmd r.channel r.region

/-- `egress` のあとの欄。 -/
def fields : List String := routeFields r.layout r.region ++ r.cmd :: splitColon r.channel

theorem splitColon_key : splitColon r.key = "egress" :: r.fields := by
  have hr := r.region_valid
  simp only [isRegion, Bool.and_eq_true, decide_eq_true_eq] at hr
  exact splitColon_getQueueKey (notMem_colon_of_validCmds r.cmd_valid) hr.1 r.layout r.channel

/-- 名前の組が往復するための、チャンネルの条件。 -/
def Fits : Prop := ':' ∉ r.channel.toList ∨ (r.region = "" ∧ ∃ a ∈ validCmds, ∃ b, splitColon r.channel = [a, b])

theorem cmd_plain : isPlain r.cmd := by
  rcases validCmds_cases r.cmd_valid with h | h | h | h <;> rw [h] <;> decide

theorem cmd_ne_web : r.cmd ≠ "web" := by
  rcases validCmds_cases r.cmd_valid with h | h | h | h <;> rw [h] <;> decide

/-- ネイティブのパターンは、ウェブのものも含めて、どの名前のキーにも照合する。 -/
theorem matches_native : ∃ p ∈ nativePatterns, matchesKey p r.key = true := by
  obtain ⟨hhead, hmiddle⟩ := matches_iff_fields r.cmd_plain r.splitColon_key
  have hne := splitColon_ne_nil r.channel
  rw [nativePatterns_eq]
  cases hrf : routeFields r.layout r.region with
  | nil =>
      refine ⟨_, List.mem_append_left _ (List.mem_map_of_mem r.cmd_valid), hhead.mpr ?_⟩
      simp [fields, hrf, hne]
  | cons f rf =>
      refine ⟨_, List.mem_append_right _ (List.mem_map_of_mem r.cmd_valid), hmiddle.mpr ?_⟩
      simp [fields, hrf, hne, List.dropLast_append_of_ne_nil, List.dropLast_cons_of_ne_nil]

/-- 受け入れられ、ウェブのパターンに照合しないのは、チャンネルが収まるキーである。 -/
theorem fits_iff_of_native (h : r.layout ≠ "freestyle") :
    r.Fits ↔ isValidQueueKey (splitColon r.key) = true ∧ ∀ p ∈ webPatterns, matchesKey p r.key = false := by
  obtain ⟨hhead, hmiddle⟩ := matches_iff_fields (w := "web") (by decide) r.splitColon_key
  have hregion := r.region_valid
  simp only [isRegion, Bool.and_eq_true, decide_eq_true_eq] at hregion
  rw [webPatterns_eq]
  simp only [Fits, ← splitColon_eq_singleton_iff, List.forall_mem_cons, List.not_mem_nil, false_implies,
    implies_true, and_true, ← Bool.not_eq_true, hhead, hmiddle, r.splitColon_key]
  simp only [fields, routeFields, h, if_false, List.append_nil]
  exact fits_iff_fields r.cmd_valid r.cmd_ne_web hregion.2 (splitColon_ne_nil r.channel)

end Route

/-! ## 集まるキー -/

/-- 各パターンに照合するキー。 -/
def gathered (keys patterns : List String) : List String := patterns.flatMap fun p => keys.filter (matchesKey p)

theorem mem_gathered {keys patterns : List String} {key : String} :
    key ∈ gathered keys patterns ↔ key ∈ keys ∧ ∃ p ∈ patterns, matchesKey p key = true := by
  simp only [gathered, List.mem_flatMap, List.mem_filter]
  tauto

theorem gatherKeys_alone {patterns keys : List String} {w w' : World}
    (h : Alone machine (gatherKeys patterns) w keys w') :
    keys = gathered w.lists.keys patterns ∧ w'.lists = w.lists := by
  induction patterns generalizing keys w w' with
  | nil =>
      obtain ⟨rfl, rfl⟩ := Alone.ret_inv h
      exact ⟨rfl, rfl⟩
  | cons p patterns ih =>
      obtain ⟨o, ks, w₁, w₂, henv, hexec, hrest⟩ := Alone.call_inv h
      obtain ⟨rest, w₃, hgather, hret⟩ := Alone.bind_inv (gatherKeys patterns) hrest
      obtain ⟨rfl, rfl⟩ := Alone.ret_inv hret
      have hp : matchesKey p = fun k => globMatch p.toList k.toList := rfl
      obtain ⟨rfl, rfl⟩ : ks = w₁.lists.keys.filter (matchesKey p) ∧ w₁ = w₂ := by
        simpa [exec, Cmd.reply, Cmd.effect, hp, eq_comm] using hexec
      obtain ⟨rfl, hlists⟩ := ih hgather
      rw [hlists, (Same.of_envSteps henv).lists]
      exact ⟨rfl, rfl⟩

/-- 単独で実行した `getPrioritizedQueues` が返すキー。 -/
theorem mem_getPrioritizedQueues {region key : String} {patterns queues : List String} {w w' : World}
    (h : Alone machine (getPrioritizedQueues region patterns) w queues w') :
    key ∈ queues ↔ key ∈ w.lists.keys ∧ (∃ p ∈ patterns, matchesKey p key = true) ∧
      isValidQueueKey (splitColon key) = true := by
  rw [getPrioritizedQueues_eq] at h
  obtain ⟨keys, w₁, hkeys, hret⟩ := Alone.bind_inv _ h
  obtain ⟨rfl, rfl⟩ := Alone.ret_inv hret
  rw [mem_prioritized, (gatherKeys_alone hkeys).1, mem_gathered, and_assoc]

/-! ## ネイティブとウェブの分担 -/

/-- キューのリストのキーが、検査を通った名前のキー、停止のキュー、処理中のキューのいずれかである。 -/
def OnlyQueues (w : World) : Prop :=
  ∀ key ∈ w.lists.keys, (∃ r : Route, key = r.key) ∨
    ∃ podID, isPodID podID ∧ (key = stopQueueKey podID ∨ key = buildProcessingQueueKey podID)

/-- ネイティブのポッドはウェブのキーを読まず、ウェブのポッドはウェブのキーと自分の停止のキューだけを読み、
どのキーもどちらかが読む。 -/
def PollsApart (w : World) (nativePod nativeRegion webPod webRegion : String) : Prop :=
  ∀ nativeQueues webQueues w₁ w₂,
    Alone machine (getPrioritizedQueues nativeRegion (workerPatterns nativePod nativePatterns)) w nativeQueues w₁ →
    Alone machine (getPrioritizedQueues webRegion (workerPatterns webPod webPatterns)) w webQueues w₂ →
      (∀ r : Route, r.layout = "freestyle" → r.key ∉ nativeQueues) ∧
      (∀ key ∈ webQueues, key = stopQueueKey webPod ∨ ∃ r : Route, r.layout = "freestyle" ∧ key = r.key) ∧
      ∀ r : Route, r.key ∈ w.lists.keys → r.key ∈ nativeQueues ∨ r.key ∈ webQueues

theorem plain_of_isPodID {podID : String} (h : isPodID podID) : isPlain podID = true := by
  apply List.all_eq_true.mpr
  intro c hc
  have hpod := List.all_eq_true.mp h c hc
  simp only [Bool.and_eq_true, bne_iff_ne]
  refine ⟨⟨?_, ?_⟩, ?_⟩ <;> rintro rfl <;> revert hpod <;> decide

theorem splitColon_stopQueueKey {podID : String} (h : isPlain podID) :
    splitColon (stopQueueKey podID) = ["egress", "stop", podID] := by
  have hkey : stopQueueKey podID = "egress" ++ (":" ++ ("stop" ++ (":" ++ podID))) := by
    simp only [stopQueueKey, ← String.append_assoc]
    rfl
  have he : ':' ∉ "egress".toList := by decide
  have hs : ':' ∉ "stop".toList := by decide
  rw [hkey, splitColon_append he, splitColon_append hs, splitColon_of_notMem (notMem_colon_of_isPlain h)]

theorem splitColon_buildProcessingQueueKey {podID : String} (h : isPlain podID) :
    splitColon (buildProcessingQueueKey podID) = ["egress", "processing", podID] := by
  have hkey : "egress:processing:" ++ podID = "egress" ++ (":" ++ ("processing" ++ (":" ++ podID))) := by
    simp only [← String.append_assoc]
    rfl
  have he : ':' ∉ "egress".toList := by decide
  have hp : ':' ∉ "processing".toList := by simp
  change splitColon ("egress:processing:" ++ podID) = _
  rw [hkey, splitColon_append he, splitColon_append hp, splitColon_of_notMem (notMem_colon_of_isPlain h)]

/-- 停止のパターンは、その停止のキューだけに照合する。 -/
theorem matches_stopQueueKey {podID key : String} (h : isPlain podID) :
    matchesKey (stopQueueKey podID) key = true ↔ key = stopQueueKey podID := by
  have hlit : ∀ c ∈ (stopQueueKey podID).toList, c ≠ '*' ∧ c ≠ '?' := by
    simpa [stopQueueKey, or_imp, forall_and] using literal_of_isPlain h
  rw [matchesKey, ← List.append_nil (stopQueueKey podID).toList, globMatch_literal hlit, ← String.toList_inj]
  simp [globMatch]

theorem mem_workerPatterns {podID p : String} {patterns : List String} :
    p ∈ workerPatterns podID patterns ↔ p = stopQueueKey podID ∨ p ∈ patterns := by
  rw [workerPatterns]
  split
  next h => exact ⟨.inr, fun h' => h'.elim (· ▸ h) id⟩
  · simp

theorem Route.key_ne_stop (r : Route) {podID : String} (h : isPlain podID) : r.key ≠ stopQueueKey podID := by
  intro hk
  have hs := r.splitColon_key
  have hreg := r.region_valid
  rw [hk, splitColon_stopQueueKey h, List.cons_eq_cons] at hs
  simp only [isRegion, Bool.and_eq_true, decide_eq_true_eq] at hreg
  have hhead : r.fields.head? = some "stop" := by rw [← hs.2]; rfl
  by_cases hr : r.region = ""
  · by_cases hl : r.layout = "freestyle"
    · simp [Route.fields, routeFields, hr, hl] at hhead
    · have hc := r.cmd_valid
      simp only [Route.fields, routeFields, hr, hl, if_true, if_false, List.nil_append, List.head?_cons,
        Option.some.injEq] at hhead
      rw [hhead] at hc
      exact absurd hc (by decide)
  · simp only [Route.fields, routeFields, hr, if_false, List.cons_append, List.nil_append, List.head?_cons,
      Option.some.injEq] at hhead
    rw [hhead] at hreg
    exact absurd hreg.2 (by decide)

/-- ポッドのキューは、自分の停止のパターンのほかには集まらない。 -/
theorem podQueue_not_matched {podID key : String} (hpod : isPodID podID)
    (hkey : key = stopQueueKey podID ∨ key = buildProcessingQueueKey podID) :
    ∀ p ∈ webPatterns, matchesKey p key = false := by
  obtain ⟨f, hf, hs⟩ : ∃ f, f ≠ "web" ∧ splitColon key = ["egress", f, podID] := by
    rcases hkey with rfl | rfl
    · exact ⟨"stop", by decide, splitColon_stopQueueKey (plain_of_isPodID hpod)⟩
    · exact ⟨"processing", by decide, splitColon_buildProcessingQueueKey (plain_of_isPodID hpod)⟩
  obtain ⟨hhead, hmiddle⟩ := matches_iff_fields (w := "web") (by decide) hs
  rw [webPatterns_eq]
  simp [← Bool.not_eq_true, hhead, hmiddle, hf]

variable {w : World} {nativePod nativeRegion webPod webRegion : String}

/-- 分担が守られるのは、ウェブのキーがなく、どのキーのチャンネルも収まるときである。 -/
theorem pollsApart_iff (hkeys : OnlyQueues w) (hwebPod : isPodID webPod) :
    PollsApart w nativePod nativeRegion webPod webRegion ↔
      ∀ r : Route, r.key ∈ w.lists.keys → r.layout ≠ "freestyle" ∧ r.Fits := by
  constructor
  · intro h r hr
    obtain ⟨nativeQueues, w₁, hnative⟩ := Alone.exists_of_total (M := machine) exec_total
      (getPrioritizedQueues nativeRegion (workerPatterns nativePod nativePatterns)) w
    obtain ⟨webQueues, w₂, hweb⟩ := Alone.exists_of_total (M := machine) exec_total
      (getPrioritizedQueues webRegion (workerPatterns webPod webPatterns)) w
    obtain ⟨hapart, honly, heither⟩ := h _ _ _ _ hnative hweb
    -- どちらかが読むキーは受け入れられているので、ネイティブのポッドも読む
    have hread (r : Route) (hr : r.key ∈ w.lists.keys) :
        isValidQueueKey (splitColon r.key) = true ∧ r.key ∈ nativeQueues := by
      have hvalid : isValidQueueKey (splitColon r.key) = true := by
        rcases heither r hr with h | h
        · exact ((mem_getPrioritizedQueues hnative).mp h).2.2
        · exact ((mem_getPrioritizedQueues hweb).mp h).2.2
      obtain ⟨p, hp, hm⟩ := r.matches_native
      exact ⟨hvalid, (mem_getPrioritizedQueues hnative).mpr ⟨hr, ⟨p, mem_workerPatterns.mpr (.inr hp), hm⟩, hvalid⟩⟩
    have hfree : r.layout ≠ "freestyle" := fun hf => hapart r hf (hread r hr).2
    refine ⟨hfree, (r.fits_iff_of_native hfree).mpr ⟨(hread r hr).1, fun p hp => ?_⟩⟩
    by_contra hm
    have hpoll : r.key ∈ webQueues := (mem_getPrioritizedQueues hweb).mpr
      ⟨hr, ⟨p, mem_workerPatterns.mpr (.inr hp), by simpa using hm⟩, (hread r hr).1⟩
    rcases honly _ hpoll with hstop | ⟨r', hf', hk⟩
    · exact r.key_ne_stop (plain_of_isPodID hwebPod) hstop
    · exact hapart r' hf' (hk ▸ (hread r hr).2)
  · intro h nativeQueues webQueues w₁ w₂ hnative hweb
    refine ⟨fun r hfree hr => ?_, fun key hkey => ?_, fun r hr => ?_⟩
    · exact (h r ((mem_getPrioritizedQueues hnative).mp hr).1).1 hfree
    · obtain ⟨hin, ⟨p, hp, hm⟩, hvalid⟩ := (mem_getPrioritizedQueues hweb).mp hkey
      rcases mem_workerPatterns.mp hp with rfl | hp
      · exact .inl ((matches_stopQueueKey (plain_of_isPodID hwebPod)).mp hm)
      · exfalso
        rcases hkeys key hin with ⟨r, rfl⟩ | ⟨podID, hpod, hpk⟩
        · obtain ⟨hfree, hfits⟩ := h r hin
          rw [((r.fits_iff_of_native hfree).mp hfits).2 p hp] at hm
          cases hm
        · rw [podQueue_not_matched hpod hpk p hp] at hm
          cases hm
    · obtain ⟨hfree, hfits⟩ := h r hr
      obtain ⟨p, hp, hm⟩ := r.matches_native
      exact .inl ((mem_getPrioritizedQueues hnative).mpr
        ⟨hr, ⟨p, mem_workerPatterns.mpr (.inr hp), hm⟩, ((r.fits_iff_of_native hfree).mp hfits).1⟩)

/-- 一つのキーだけを持つ状態。 -/
def World.single (key : String) : World := { World.init with lists := KeyedLists.empty.put key ["task"] }

theorem keys_single (key : String) : (World.single key).lists.keys = [key] := rfl

/-- ネイティブの録画のキーだけがある状態では、分担が守られる。 -/
theorem nativeRecord_pollsApart :
    PollsApart (.single "egress:record:room") "pod1" "us-west" "flex-pod2" "us-west" := by
  have hsplit : splitColon "egress:record:room" = ["egress", "record", "room"] := by decide
  refine (pollsApart_iff (fun key hkey => ?_) (by decide)).mpr fun r hr => ?_
  · let r : Route := ⟨"flat", "record", "room", "", by decide, by decide, by decide, by decide⟩
    rw [keys_single, List.mem_singleton] at hkey
    exact .inl ⟨r, by rw [hkey]; decide⟩
  · rw [keys_single, List.mem_singleton] at hr
    have hf : r.fields = ["record", "room"] := by
      have := r.splitColon_key
      simpa [hr, hsplit] using this.symm
    have hregion : r.region ≠ "record" := by
      intro h
      have hreg := r.region_valid
      rw [h] at hreg
      exact absurd hreg (by decide)
    have hne := splitColon_ne_nil r.channel
    by_cases hempty : r.region = "" <;> by_cases hfree : r.layout = "freestyle" <;>
      simp [Route.fields, routeFields, hempty, hfree, hregion] at hf
    exact ⟨hfree, .inl (splitColon_eq_singleton_iff.mp ⟨_, hf.2⟩)⟩

/-- ウェブの録画のキーは、ネイティブのポッドにも読まれる。 -/
theorem not_pollsApart : ¬∀ w nativePod nativeRegion webPod webRegion, OnlyQueues w → isPodID nativePod →
    isPodID webPod → PollsApart w nativePod nativeRegion webPod webRegion := by
  intro h
  let r : Route := ⟨"freestyle", "record", "room", "", by decide, by decide, by decide, by decide⟩
  have hkeys : OnlyQueues (.single r.key) := by
    intro key hkey
    rw [keys_single, List.mem_singleton] at hkey
    exact .inl ⟨r, hkey⟩
  have h := h (.single r.key) "pod1" "us-west" "flex-pod2" "us-west" hkeys (by decide) (by decide)
  obtain ⟨nativeQueues, w₁, hnative⟩ := Alone.exists_of_total (M := machine) exec_total
    (getPrioritizedQueues "us-west" (workerPatterns "pod1" nativePatterns)) (World.single r.key)
  obtain ⟨webQueues, w₂, hweb⟩ := Alone.exists_of_total (M := machine) exec_total
    (getPrioritizedQueues "us-west" (workerPatterns "flex-pod2" webPatterns)) (World.single r.key)
  have hm : matchesKey "egress:*:record:*" r.key = true := by decide
  exact (h _ _ _ _ hnative hweb).1 r rfl ((mem_getPrioritizedQueues hnative).mpr
    ⟨by simp [keys_single], ⟨_, by decide, hm⟩, by decide⟩)

end RtcEgress.Queue
