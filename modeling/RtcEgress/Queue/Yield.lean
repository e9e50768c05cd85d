import RtcEgress.Queue.Routing

/-!
# 他の地域への譲り

`shouldYieldForRegionalTask` は、キーを `getPrioritizedQueues` とは別に読み、`channel` という欄を決まった位置に求める。
`getQueueKey` は、その欄を書かない。
-/

namespace RtcEgress.Queue

/-- 二つの読み取りで地域の位置に現れても、地域とみなさない語。 -/
def nonRegions : List String := ["record", "snapshot", "rtmp", "whip", "web", "cmd"]

/-- 地域の位置の欄。 -/
def possibleRegion : List String → Option String
  | _ :: region :: _ => if region ∈ nonRegions then none else some region
  | _ => none

def shouldYieldForRegionalTask (podRegion queueKey : String) : Bool :=
  let keyParts := splitColon queueKey
  if 2 ≤ keyParts.length ∧ keyParts[1]? = some "stop" then false
  else if keyParts.length < 4 then false
  else
    let taskRegion :=
      if 5 ≤ keyParts.length ∧ keyParts[3]? = some "channel" then possibleRegion keyParts
      else if 6 ≤ keyParts.length ∧ keyParts[4]? = some "channel" then possibleRegion keyParts
      else none
    match taskRegion with
    | some region => podRegion == "" || podRegion != region
    | none => false

/-- `getPrioritizedQueues` の分け方で、他の地域のキーになる。 -/
def OfOtherRegion (podRegion queueKey : String) : Prop :=
  ∃ region, taskRegion (splitColon queueKey) = some region ∧ region ≠ podRegion

/-- 譲るのは、他の地域のキーのとき、またそのときに限る。 -/
structure YieldsToOthers (podRegion layout cmd channel region : String) : Prop where
  named : shouldYieldForRegionalTask podRegion (getQueueKey layout cmd channel region) = true ↔
    region ≠ "" ∧ region ≠ podRegion
  classified : shouldYieldForRegionalTask podRegion (getQueueKey layout cmd channel region) = true ↔
    OfOtherRegion podRegion (getQueueKey layout cmd channel region)

/-- チャンネルの欄が、`channel` の欄の求められる位置に来る。 -/
def ChannelField (layout : String) (segs : List String) : Prop :=
  (2 ≤ segs.length ∧ segs[0]? = some "channel") ∨
    (layout ≠ "freestyle" ∧ 3 ≤ segs.length ∧ segs[1]? = some "channel")

/-! ## 欄についての読み取り -/

theorem taskRegion_cons {f g h : String} {fields : List String} (hf : f ∉ nonRegions) :
    taskRegion ("egress" :: f :: g :: h :: fields) = some f := by
  simpa [taskRegion, nonRegions] using hf

theorem taskRegion_nonRegion {f : String} {fields : List String} (hf : f ∈ nonRegions) :
    taskRegion ("egress" :: f :: fields) = none := by
  unfold taskRegion
  split
  next heq =>
    simp only [List.cons_eq_cons] at heq
    obtain ⟨-, rfl, -⟩ := heq
    exact if_pos hf
  · rfl

theorem mem_nonRegions_of_validCmds {cmd : String} (h : cmd ∈ validCmds) : cmd ∈ nonRegions := by
  rcases validCmds_cases h with rfl | rfl | rfl | rfl <;> decide

section Fields

variable {layout cmd channel region podRegion : String}

theorem notMem_colon_of_isRegion (h : isRegion region) : ':' ∉ region.toList := by
  simp only [isRegion, Bool.and_eq_true, decide_eq_true_eq] at h
  exact h.1

theorem notMem_nonRegions (h : isRegion region) : region ∉ nonRegions ∧ region ≠ "stop" := by
  simp only [isRegion, reservedWords, nonRegions, Bool.and_eq_true, decide_eq_true_eq, List.mem_cons,
    List.not_mem_nil, or_false, not_or] at h ⊢
  tauto

/-- 地域のないキーの、二つ目の欄は、地域とみなされない。 -/
theorem fields_of_empty (layout channel : String) (hcmd : cmd ∈ validCmds) :
    ∃ f ∈ nonRegions, ∃ fields, splitColon (getQueueKey layout cmd channel "") = "egress" :: f :: fields := by
  rw [splitColon_getQueueKey (notMem_colon_of_validCmds hcmd) (by decide)]
  by_cases hl : layout = "freestyle"
  · exact ⟨"web", by decide, cmd :: splitColon channel, by simp [routeFields, hl]⟩
  · exact ⟨cmd, mem_nonRegions_of_validCmds hcmd, splitColon channel, by simp [routeFields, hl]⟩

/-- 分け方は、つないだ地域に従う。 -/
theorem ofOtherRegion_getQueueKey (hcmd : cmd ∈ validCmds) (hregion : isRegion region) :
    OfOtherRegion podRegion (getQueueKey layout cmd channel region) ↔ region ≠ "" ∧ region ≠ podRegion := by
  by_cases hr : region = ""
  · subst hr
    obtain ⟨f, hf, fields, hsplit⟩ := fields_of_empty layout channel hcmd
    simp [OfOtherRegion, hsplit, taskRegion_nonRegion hf]
  · obtain ⟨seg, segs, hsegs⟩ := List.exists_cons_of_ne_nil (splitColon_ne_nil channel)
    have hnon := (notMem_nonRegions hregion).1
    rw [OfOtherRegion, splitColon_getQueueKey (notMem_colon_of_validCmds hcmd) (notMem_colon_of_isRegion hregion), hsegs]
    by_cases hl : layout = "freestyle"
    · simp [routeFields, hr, hl, taskRegion_cons hnon]
    · simp [routeFields, hr, hl, taskRegion_cons hnon]

/-- 譲るのは、他の地域のキーのうち、`channel` の欄があるものだけである。 -/
theorem shouldYield_getQueueKey (hcmd : cmd ∈ validCmds) (hregion : isRegion region) :
    shouldYieldForRegionalTask podRegion (getQueueKey layout cmd channel region) = true ↔
      (region ≠ "" ∧ region ≠ podRegion) ∧ ChannelField layout (splitColon channel) := by
  by_cases hr : region = ""
  · subst hr
    obtain ⟨f, hf, fields, hsplit⟩ := fields_of_empty layout channel hcmd
    simp [shouldYieldForRegionalTask, possibleRegion, hsplit, hf]
  · obtain ⟨hnon, hstop⟩ := notMem_nonRegions hregion
    have hchannel : cmd ≠ "channel" := by
      rcases validCmds_cases hcmd with rfl | rfl | rfl | rfl <;> decide
    have hpod : (podRegion = "" ∨ podRegion ≠ region) ↔ region ≠ podRegion := by
      constructor
      · rintro (rfl | h)
        · exact hr
        · exact Ne.symm h
      · exact fun h => .inr (Ne.symm h)
    have hsegs := splitColon_ne_nil channel
    simp only [shouldYieldForRegionalTask,
      splitColon_getQueueKey (notMem_colon_of_validCmds hcmd) (notMem_colon_of_isRegion hregion)]
    by_cases hl : layout = "freestyle"
    · -- egress:region:web:cmd:channel
      rcases splitColon channel with _ | ⟨a, _ | ⟨b, segs⟩⟩
      · simp [routeFields, hr, hl, hstop, ChannelField]
      · simp [routeFields, hr, hl, hstop, hchannel, ChannelField]
      · by_cases ha : a = "channel" <;>
          simp [routeFields, possibleRegion, hr, hl, hstop, hchannel, hnon, ha, hpod, ChannelField]
    · -- egress:region:cmd:channel
      rcases splitColon channel with _ | ⟨a, _ | ⟨b, _ | ⟨c, segs⟩⟩⟩
      · simp [routeFields, hr, hl, hstop, ChannelField]
      · simp [routeFields, hr, hl, hstop, ChannelField]
      · by_cases ha : a = "channel" <;>
          simp [routeFields, possibleRegion, hr, hl, hstop, hnon, ha, hpod, ChannelField]
      · by_cases ha : a = "channel" <;> by_cases hb : b = "channel" <;>
          simp [routeFields, possibleRegion, hr, hl, hstop, hnon, ha, hb, hpod, ChannelField]

theorem yieldsToOthers_iff (hcmd : cmd ∈ validCmds) (hregion : isRegion region) :
    YieldsToOthers podRegion layout cmd channel region ↔
      region = "" ∨ region = podRegion ∨ ChannelField layout (splitColon channel) := by
  have hyield := @shouldYield_getQueueKey layout cmd channel region podRegion hcmd hregion
  have hother := @ofOtherRegion_getQueueKey layout cmd channel region podRegion hcmd hregion
  constructor
  · intro h
    have hnamed := h.named
    rw [hyield] at hnamed
    by_cases hr : region = ""
    · exact .inl hr
    · by_cases hp : region = podRegion
      · exact .inr (.inl hp)
      · exact .inr (.inr (hnamed.mpr ⟨hr, hp⟩).2)
  · intro h
    have hnamed : shouldYieldForRegionalTask podRegion (getQueueKey layout cmd channel region) = true ↔
        region ≠ "" ∧ region ≠ podRegion := by
      rw [hyield]
      constructor
      · exact fun hy => hy.1
      · rintro ⟨hr, hp⟩
        rcases h with h | h | h
        · exact absurd h hr
        · exact absurd h hp
        · exact ⟨⟨hr, hp⟩, h⟩
    exact ⟨hnamed, hnamed.trans hother.symm⟩

end Fields

theorem demo_yieldsToOthers : YieldsToOthers "us" "flat" "rtmp" "channel:demo" "eu" :=
  (yieldsToOthers_iff (by decide) (by decide)).mpr (.inr (.inr (.inl (by decide))))

/-- `channel` の欄のないチャンネルでは、他の地域のキーにも譲らない。 -/
theorem not_yieldsToOthers : ¬∀ podRegion layout cmd channel region, layout ∈ validLayouts → cmd ∈ validCmds →
    isValidChannel channel → isRegion region → YieldsToOthers podRegion layout cmd channel region := by
  intro h
  have h := h "us" "flat" "record" "demo" "eu" (by decide) (by decide) (by decide) (by decide)
  exact absurd (h.named.mpr (by decide)) (by decide)

end RtcEgress.Queue
