import RtcEgress.Lib.Lines
import RtcEgress.Queue.Manager

/-!
# キーの組み立てと読み取り

`getQueueKey` がつないだキーを、`isValidQueueKey`、`isWebTask`、`getPrioritizedQueues` がそれぞれの位置で
読み直す。チャンネルの名前には `:` を使えるので、読み取った欄はつないだ欄とずれうる。
-/

namespace RtcEgress.Queue

open RtcEgress.Lib

/-! ## 名前の条件 -/

/-- 地域の名前に使えない語。 -/
def reservedWords : List String := ["snapshot", "record", "rtmp", "whip", "web", "cmd", "stop"]

/-- 地域の名前。空であるか、予約された語でない一つの欄である。 -/
def isRegion (region : String) : Bool := ':' ∉ region.toList && region ∉ reservedWords

/-! ## 優先の組 -/

/-- `getPrioritizedQueues` が作る三つの組。 -/
structure QueueGroups where
  stopQueues : List String
  regionalQueues : List String
  globalQueues : List String

/-- 集めたキーを、三つの組に分ける。 -/
def groupQueues (podRegion : String) (keys : List String) : QueueGroups :=
  let valid := keys.filter fun key => isValidQueueKey (splitColon key)
  let isStop := fun key => (splitColon key)[1]? == some "stop"
  let isLocal := fun key => taskRegion (splitColon key) == some podRegion
  { stopQueues := valid.filter isStop
    regionalQueues := valid.filter fun key => !isStop key && isLocal key
    globalQueues := valid.filter fun key => !isStop key && !isLocal key }

def QueueGroups.prioritized (g : QueueGroups) : List String :=
  (g.stopQueues ++ g.regionalQueues ++ g.globalQueues).eraseDups

theorem getPrioritizedQueues_eq (podRegion : String) (patterns : List String) :
    getPrioritizedQueues podRegion patterns =
      (do return (groupQueues podRegion (← gatherKeys patterns)).prioritized) := rfl

theorem mem_prioritized {podRegion key : String} {keys : List String} :
    key ∈ (groupQueues podRegion keys).prioritized ↔ key ∈ keys ∧ isValidQueueKey (splitColon key) := by
  simp only [QueueGroups.prioritized, groupQueues, List.mem_eraseDups, List.mem_append, List.mem_filter,
    Bool.and_eq_true, Bool.not_eq_true']
  cases (splitColon key)[1]? == some "stop" <;> cases taskRegion (splitColon key) == some podRegion <;> simp

theorem mem_regionalQueues {podRegion key : String} {keys : List String} :
    key ∈ (groupQueues podRegion keys).regionalQueues ↔
      key ∈ keys ∧ isValidQueueKey (splitColon key) ∧ (splitColon key)[1]? ≠ some "stop" ∧
        taskRegion (splitColon key) = some podRegion := by
  simp only [groupQueues, List.mem_filter, Bool.and_eq_true, Bool.not_eq_true', beq_eq_false_iff_ne, beq_iff_eq]
  tauto

/-! ## キーの欄 -/

theorem splitColon_append {s : String} (h : ':' ∉ s.toList) (t : String) :
    splitColon (s ++ (":" ++ t)) = s :: splitColon t := by
  have ht : (":" : String).toList = [':'] := rfl
  simp [splitColon, ht, List.splitOn_append_cons_self_of_not_mem h]

theorem splitColon_of_notMem {s : String} (h : ':' ∉ s.toList) : splitColon s = [s] := by
  simp [splitColon, List.splitOn_eq_singleton h]

/-- 始めの欄を除いた残りも、一つの文字列の欄である。 -/
theorem exists_of_splitColon_cons {s a : String} {rest : List String} (h : splitColon s = a :: rest)
    (hne : rest ≠ []) : ∃ t, s = a ++ (":" ++ t) ∧ ':' ∉ a.toList ∧ splitColon t = rest := by
  by_cases hs : ':' ∈ s.toList
  · obtain ⟨l, t, hlt, hl⟩ := List.eq_append_cons_of_mem hs
    have hs' : s = String.ofList l ++ (":" ++ String.ofList t) := by
      apply String.toList_inj.mp
      simpa using hlt
    have hl' : ':' ∉ (String.ofList l).toList := by simpa using hl
    rw [hs', splitColon_append hl', List.cons_eq_cons] at h
    obtain ⟨rfl, rfl⟩ := h
    exact ⟨String.ofList t, hs', hl', rfl⟩
  · rw [splitColon_of_notMem hs] at h
    simp_all

/-- 地域と `web` の欄。 -/
def routeFields (layout region : String) : List String :=
  (if region = "" then [] else [region]) ++ (if layout = "freestyle" then ["web"] else [])

theorem notMem_colon_of_validCmds {cmd : String} (h : cmd ∈ validCmds) : ':' ∉ cmd.toList := by
  simp only [validCmds, List.mem_cons, List.not_mem_nil, or_false] at h
  rcases h with rfl | rfl | rfl | rfl <;> decide

theorem splitColon_getQueueKey {cmd region : String} (hc : ':' ∉ cmd.toList) (hr : ':' ∉ region.toList)
    (layout channel : String) :
    splitColon (getQueueKey layout cmd channel region) =
      "egress" :: (routeFields layout region ++ cmd :: splitColon channel) := by
  have he : ':' ∉ "egress".toList := by decide
  have hw : ':' ∉ "web".toList := by decide
  have h₁ : "egress:" = "egress" ++ ":" := rfl
  have h₂ : "egress:web:" = "egress" ++ (":" ++ ("web" ++ ":")) := rfl
  have h₃ : ":web:" = ":" ++ ("web" ++ ":") := rfl
  by_cases hl : layout = "freestyle" <;> by_cases hr' : region = "" <;>
    simp only [getQueueKey, routeFields, hl, hr', h₁, h₂, h₃, ne_eq, not_true_eq_false, not_false_eq_true,
      if_true, if_false, String.append_assoc, splitColon_append he, splitColon_append hw, splitColon_append hr,
      splitColon_append hc, List.nil_append, List.cons_append]

/-! ## チャンネルの欄 -/

theorem splitColon_ne_nil (s : String) : splitColon s ≠ [] := by
  simp [splitColon, List.splitOn_ne_nil]

theorem splitColon_eq_singleton_iff {s : String} : (∃ a, splitColon s = [a]) ↔ ':' ∉ s.toList := by
  constructor
  · rintro ⟨a, ha⟩ hs
    obtain ⟨l, t, hlt, hl⟩ := List.eq_append_cons_of_mem hs
    rw [splitColon, hlt, List.splitOn_append_cons_self_of_not_mem hl] at ha
    simp [List.splitOn_ne_nil] at ha
  · intro h
    exact ⟨s, splitColon_of_notMem h⟩

/-! ## 往復 -/

/-- キーが受け入れられ、レイアウトと地域が読み取れる。 -/
structure RoundTrips (layout cmd channel region : String) : Prop where
  accepted : isValidQueueKey (splitColon (getQueueKey layout cmd channel region)) = true
  web : ∀ task : Task, task.sourceQueue = getQueueKey layout cmd channel region →
    task.payload.bind (·.lookup "layout") = none → (isWebTask .modeNative task = true ↔ layout = "freestyle")
  regional : ∀ podRegion keys, getQueueKey layout cmd channel region ∈ keys →
    (getQueueKey layout cmd channel region ∈ (groupQueues podRegion keys).regionalQueues ↔
      region ≠ "" ∧ region = podRegion)

/-- `web` の欄が、決まった位置にある。 -/
def HasWebField (parts : List String) : Prop :=
  parts[1]? = some "web" ∨ (4 ≤ parts.length ∧ parts[2]? = some "web")

/-- キーを分けた欄についての往復。 -/
def FieldsRoundTrip (layout region : String) (parts : List String) : Prop :=
  isValidQueueKey parts = true ∧ (HasWebField parts ↔ layout = "freestyle") ∧
    ∀ podRegion, parts[1]? ≠ some "stop" ∧ taskRegion parts = some podRegion ↔ region ≠ "" ∧ region = podRegion

theorem validCmds_cases {cmd : String} (h : cmd ∈ validCmds) :
    cmd = "snapshot" ∨ cmd = "record" ∨ cmd = "rtmp" ∨ cmd = "whip" := by
  simpa [validCmds] using h

theorem fieldsRoundTrip_iff {layout cmd region : String} (hcmd : cmd ∈ validCmds) (hr : region ∉ reservedWords)
    {segs : List String} (hs : segs ≠ []) :
    FieldsRoundTrip layout region ("egress" :: (routeFields layout region ++ cmd :: segs)) ↔
      (∃ a, segs = [a]) ∨ (layout ≠ "freestyle" ∧ region = "" ∧ ∃ a ∈ validCmds, ∃ b, segs = [a, b]) := by
  simp only [reservedWords, List.mem_cons, List.not_mem_nil, or_false, not_or] at hr
  have hweb : "web" ∉ validCmds := by decide
  have hne : cmd ≠ "web" ∧ cmd ≠ "stop" := by
    rcases validCmds_cases hcmd with rfl | rfl | rfl | rfl <;> decide
  by_cases hl : layout = "freestyle" <;> by_cases hr' : region = ""
  · -- egress:web:cmd:channel
    match segs with
    | [a] => simp [FieldsRoundTrip, HasWebField, routeFields, isValidQueueKey, taskRegion, hl, hr', hcmd]
    | [a, b] => simp [FieldsRoundTrip, HasWebField, routeFields, isValidQueueKey, hl, hr', hne]
    | a :: b :: c :: segs => simp [FieldsRoundTrip, HasWebField, routeFields, isValidQueueKey, hl, hr']
  · -- egress:region:web:cmd:channel
    match segs with
    | [a] => simp [FieldsRoundTrip, HasWebField, routeFields, isValidQueueKey, taskRegion, hl, hr', hcmd, hr]
    | a :: b :: segs => simp [FieldsRoundTrip, HasWebField, routeFields, isValidQueueKey, hl, hr']
  · -- egress:cmd:channel
    match segs with
    | [a] => simp [FieldsRoundTrip, HasWebField, routeFields, isValidQueueKey, taskRegion, hl, hr', hcmd, hne]
    | [a, b] =>
        -- チャンネルの始めの欄が、種類の位置に来る
        have hreg : taskRegion ["egress", cmd, a, b] = none := by
          rcases validCmds_cases hcmd with rfl | rfl | rfl | rfl <;> rfl
        have ha : a ∈ validCmds → a ≠ "web" := fun h h' => hweb (h' ▸ h)
        simp [FieldsRoundTrip, HasWebField, routeFields, isValidQueueKey, hl, hr', hne, hreg]
        exact ha
    | [a, b, c] =>
        -- 受け入れられるのは、始めの欄が `web` のときだけである
        have : isValidQueueKey ["egress", cmd, a, b, c] = true → a = "web" := by
          simp only [isValidQueueKey, Bool.and_eq_true, beq_iff_eq]
          tauto
        simp [FieldsRoundTrip, HasWebField, routeFields, hl, hr', hne]
        tauto
    | a :: b :: c :: d :: segs => simp [FieldsRoundTrip, HasWebField, routeFields, isValidQueueKey, hl, hr']
  · -- egress:region:cmd:channel
    match segs with
    | [a] => simp [FieldsRoundTrip, HasWebField, routeFields, isValidQueueKey, taskRegion, hl, hr', hcmd, hr, hne]
    | [a, b] => simp [FieldsRoundTrip, HasWebField, routeFields, isValidQueueKey, hl, hr', hne]
    | a :: b :: c :: segs => simp [FieldsRoundTrip, HasWebField, routeFields, isValidQueueKey, hl, hr']

theorem isWebQueue_iff {key : String} (hhead : (splitColon key)[0]? = some "egress")
    (hlen : 3 ≤ (splitColon key).length) : isWebQueue key = true ↔ HasWebField (splitColon key) := by
  have hne : key ≠ "" := by
    rintro rfl
    exact absurd hlen (by decide)
  have hweb : isWebQueue key =
      (key ≠ "" && 3 ≤ (splitColon key).length && (splitColon key)[0]? == some "egress" &&
        ((splitColon key)[1]? == some "web" || (4 ≤ (splitColon key).length && (splitColon key)[2]? == some "web"))) :=
    rfl
  simp [hweb, hne, hlen, hhead, HasWebField]

theorem isWebQueue_getQueueKey {cmd region : String} (hc : ':' ∉ cmd.toList) (hr : ':' ∉ region.toList)
    (layout channel : String) :
    isWebQueue (getQueueKey layout cmd channel region) = true ↔
      HasWebField (splitColon (getQueueKey layout cmd channel region)) := by
  have hlen := List.length_pos_of_ne_nil (splitColon_ne_nil channel)
  apply isWebQueue_iff
  · simp [splitColon_getQueueKey hc hr]
  · simp only [splitColon_getQueueKey hc hr, List.length_cons, List.length_append]
    omega

theorem isWebTask_native {task : Task} (h : task.payload.bind (·.lookup "layout") = none) :
    isWebTask .modeNative task = isWebQueue task.sourceQueue := by
  have hf : task.isFreestyle = false := by
    have : task.payloadStr? "layout" = none := by
      cases hp : task.payload with
      | none => simp [Task.payloadStr?, hp]
      | some p =>
          rw [hp] at h
          simp only [Option.bind_some] at h
          simp [Task.payloadStr?, hp, Payload.str?, h]
    simp [Task.isFreestyle, this]
  simp [isWebTask, hf]

theorem roundTrips_iff {cmd region : String} (hc : ':' ∉ cmd.toList) (hr : ':' ∉ region.toList)
    {layout channel : String} :
    RoundTrips layout cmd channel region ↔
      FieldsRoundTrip layout region (splitColon (getQueueKey layout cmd channel region)) := by
  have hweb := isWebQueue_getQueueKey hc hr layout channel
  constructor
  · intro h
    refine ⟨h.accepted, ?_, fun podRegion => ?_⟩
    · let task := { Task.published "" cmd "start" channel "" none 0 with
        sourceQueue := getQueueKey layout cmd channel region }
      rw [← hweb, ← h.web task rfl rfl, isWebTask_native rfl]
    · simpa [mem_regionalQueues, h.accepted] using
        h.regional podRegion [getQueueKey layout cmd channel region] (by simp)
  · rintro ⟨hvalid, hlayout, hregion⟩
    refine ⟨hvalid, fun task hsource hpayload => ?_, fun podRegion keys hkeys => ?_⟩
    · rw [isWebTask_native hpayload, hsource, hweb, hlayout]
    · rw [mem_regionalQueues, ← hregion]
      simp [hkeys, hvalid]

/-- 主な結果。チャンネルに `:` がなければ、またそうでなくても、始めの欄が種類の位置に収まれば、往復する。 -/
theorem roundTrips_iff_fields {layout cmd channel region : String} (hcmd : cmd ∈ validCmds)
    (hregion : isRegion region) :
    RoundTrips layout cmd channel region ↔
      ':' ∉ channel.toList ∨
        (layout ≠ "freestyle" ∧ region = "" ∧ ∃ a ∈ validCmds, ∃ b, splitColon channel = [a, b]) := by
  simp only [isRegion, Bool.and_eq_true, decide_eq_true_eq] at hregion
  have hc := notMem_colon_of_validCmds hcmd
  rw [roundTrips_iff hc hregion.1, splitColon_getQueueKey hc hregion.1,
    fieldsRoundTrip_iff hcmd hregion.2 (splitColon_ne_nil channel), splitColon_eq_singleton_iff]

theorem nativeRegional_roundTrips : RoundTrips "flat" "record" "room" "us-west" :=
  (roundTrips_iff_fields (by decide) (by decide)).mpr (.inl (by decide))

/-- チャンネルに `:` があると、記録を載せたキーが受け入れられない。 -/
theorem not_roundTrips : ¬∀ layout cmd channel region, layout ∈ validLayouts → cmd ∈ validCmds →
    isValidChannel channel → isRegion region → RoundTrips layout cmd channel region := by
  intro h
  have h := h "flat" "record" "a:b" "" (by decide) (by decide) (by decide) (by decide)
  exact absurd h.accepted (by decide)

end RtcEgress.Queue
