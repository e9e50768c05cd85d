import RtcEgress.Queue.Lemmas.Follows
import RtcEgress.Queue.Routing

/-!
# タスクのリストでないキー

`pkg/queue`、`pkg/webhook`、`pkg/health` は、キューのほかにも `egress:` で始まるキーを使う。そのどれも
`isValidQueueKey` に受け入れられず、パターンがどうであっても `getPrioritizedQueues` の結果に現れない。
-/

namespace RtcEgress.Queue

open RtcEgress.Lib

/-- タスクのリストでないキー。`pod`、`capacity`、`region`、`queues` は稼働の状況の記録である。 -/
inductive OtherKey where
  | task (id : String)
  | lease (id : String)
  | dedupe (cmd channel requestID : String)
  | processing (podID : String)
  | delivered (id state : String)
  | pod (podID : String)
  | capacity (podID : String)
  | region (name : String)
  | queues

namespace OtherKey

def name : OtherKey → String
  | task id => "egress:task:" ++ id
  | lease id => "egress:lease:" ++ id
  | dedupe cmd channel requestID => buildDedupeKey cmd channel requestID
  | processing podID => buildProcessingQueueKey podID
  | delivered id state => "egress:notif:delivered:" ++ id ++ ":" ++ state
  | pod podID => "egress:health:pod:" ++ podID
  | capacity podID => "egress:health:capacity:" ++ podID
  | region r => "egress:health:region:" ++ r
  | queues => "egress:health:queues"

/-- 名前が検査を通ったものである。タスクの名前は十六進で、ポッドの名前は `:` を含まない。 -/
def Allowed : OtherKey → Prop
  | task id | lease id | delivered id _ => id.toList.all isTaskIDChar
  | dedupe cmd channel requestID =>
      cmd ∈ validCmds ∧ isValidChannel channel = true ∧ validateRequestID requestID = none
  | processing podID | pod podID | capacity podID => ':' ∉ podID.toList
  | region _ | queues => True

theorem notMem_colon_of_taskID {id : String} (h : id.toList.all isTaskIDChar) : ':' ∉ id.toList := by
  intro hmem
  exact absurd (List.all_eq_true.mp h _ hmem) (by decide)

end OtherKey

/-- 二つ目の欄が停止でも種類でもなく、三つ目の欄が種類でも `web` でもないキーは、キューのキーでない。 -/
theorem isValidQueueKey_eq_false {a b c : String} {rest : List String} (hb : b ≠ "stop" ∧ b ∉ validCmds)
    (hc : c ∉ validCmds ∧ c ≠ "web") : isValidQueueKey (a :: b :: c :: rest) = false := by
  match rest with
  | [] => simp [isValidQueueKey, hb]
  | [_] => simp [isValidQueueKey, hc]
  | [_, _] => simp [isValidQueueKey, hc]
  | _ :: _ :: _ :: _ => rfl

theorem length_splitColon_append (s t : String) : 2 ≤ (splitColon (s ++ (":" ++ t))).length := by
  have hsingle : ¬∃ a, splitColon (s ++ (":" ++ t)) = [a] := by
    rw [splitColon_eq_singleton_iff]
    simp
  match h : splitColon (s ++ (":" ++ t)) with
  | [] => exact absurd h (splitColon_ne_nil _)
  | [a] => exact absurd ⟨a, h⟩ hsingle
  | _ :: _ :: _ => simp

/-- `:` で終わる接頭辞の欄と、残りの欄。 -/
theorem splitColon_append_of_eq {p q : String} (hp : p = q ++ ":") (s : String) :
    splitColon (p ++ s) = splitColon q ++ splitColon s := by
  have ht : (":" : String).toList = [':'] := rfl
  subst hp
  simp [splitColon, ht, List.splitOn_append_cons_self]

/-- `egress:b:` のあとに `:` のない名前が続くキー。 -/
theorem isValidQueueKey_own (q b : String) {p s : String} (hp : p = q ++ ":") (hq : splitColon q = ["egress", b])
    (hb : b ≠ "stop" ∧ b ∉ validCmds) (hs : ':' ∉ s.toList) : isValidQueueKey (splitColon (p ++ s)) = false := by
  rw [splitColon_append_of_eq hp, hq, splitColon_of_notMem hs]
  simp [isValidQueueKey, hb]

/-- `egress:b:c:` で始まるキー。 -/
theorem isValidQueueKey_nested (q b c : String) {p : String} (hp : p = q ++ ":") (hq : splitColon q = ["egress", b, c])
    (hb : b ≠ "stop" ∧ b ∉ validCmds) (hc : c ∉ validCmds ∧ c ≠ "web") (s : String) :
    isValidQueueKey (splitColon (p ++ s)) = false := by
  rw [splitColon_append_of_eq hp, hq]
  exact isValidQueueKey_eq_false hb hc

/-- 接頭辞 `p` のあとの欄を `:` でつないだもの。 -/
theorem append_fields (p a b : String) : p ++ a ++ ":" ++ b = p ++ (a ++ (":" ++ b)) := by
  simp only [String.append_assoc]

theorem append_fields_fields (p a b c : String) : p ++ a ++ ":" ++ b ++ ":" ++ c = p ++ (a ++ (":" ++ (b ++ (":" ++ c)))) := by
  simp only [String.append_assoc]

theorem isValidQueueKey_dedupe {cmd : String} (hcmd : cmd ∈ validCmds) (channel requestID : String) :
    isValidQueueKey (splitColon (buildDedupeKey cmd channel requestID)) = false := by
  have hp : "egress:dedupe:" = "egress:dedupe" ++ ":" := by decide
  have hq : splitColon "egress:dedupe" = ["egress", "dedupe"] := by decide
  have hweb : cmd ≠ "web" := by
    rcases validCmds_cases hcmd with rfl | rfl | rfl | rfl <;> decide
  have hname : buildDedupeKey cmd channel requestID = "egress:dedupe:" ++ (cmd ++ (":" ++ (channel ++ (":" ++ requestID)))) :=
    append_fields_fields _ _ _ _
  have hsplit : splitColon (buildDedupeKey cmd channel requestID) =
      ["egress", "dedupe"] ++ cmd :: splitColon (channel ++ (":" ++ requestID)) := by
    rw [hname, splitColon_append_of_eq hp, hq, splitColon_append (notMem_colon_of_validCmds hcmd)]
  rw [hsplit]
  -- チャンネルと要求の名前で、欄は五つ以上になる
  have hlen := length_splitColon_append channel requestID
  match splitColon (channel ++ (":" ++ requestID)), hlen with
  | [_, _], _ => simp [isValidQueueKey, hweb]
  | _ :: _ :: _ :: _, _ => rfl

theorem OtherKey.isValidQueueKey_name {k : OtherKey} (h : k.Allowed) : isValidQueueKey (splitColon k.name) = false := by
  cases k with
  | task id => exact isValidQueueKey_own "egress:task" "task" (by decide) (by decide) (by decide) (notMem_colon_of_taskID h)
  | lease id => exact isValidQueueKey_own "egress:lease" "lease" (by decide) (by decide) (by decide) (notMem_colon_of_taskID h)
  | processing podID => exact isValidQueueKey_own "egress:processing" "processing" (by decide) (by decide) (by decide) h
  | dedupe cmd channel requestID => exact isValidQueueKey_dedupe h.1 channel requestID
  | delivered id state =>
      have hname : (delivered id state).name = "egress:notif:delivered:" ++ (id ++ (":" ++ state)) := append_fields _ _ _
      exact hname ▸ isValidQueueKey_nested "egress:notif:delivered" "notif" "delivered"
        (by decide) (by decide) (by decide) (by decide) _
  | pod podID => exact isValidQueueKey_nested "egress:health:pod" "health" "pod" (by decide) (by decide) (by decide) (by decide) _
  | capacity podID =>
      exact isValidQueueKey_nested "egress:health:capacity" "health" "capacity" (by decide) (by decide) (by decide) (by decide) _
  | region r =>
      exact isValidQueueKey_nested "egress:health:region" "health" "region"
        (by decide) (by decide) (by decide) (by decide) _
  | queues => decide

/-- `getPrioritizedQueues` は、KEYS の結果がどうであっても、リストでないキーを返さない。 -/
theorem otherKey_excluded {k : OtherKey} (h : k.Allowed) :
    isValidQueueKey (splitColon k.name) = false ∧ ∀ podRegion patterns, (getPrioritizedQueues podRegion patterns).Follows
      (fun _ _ => True) (fun queues _ => k.name ∉ queues) [] := by
  have hname := OtherKey.isValidQueueKey_name h
  refine ⟨hname, fun podRegion patterns => ?_⟩
  have hfollows : (getPrioritizedQueues podRegion patterns).Follows (Expected .all)
      (fun queues _ => ∀ q ∈ queues, isValidQueueKey (splitColon q) = true) [] := follows_getPrioritizedQueues
  refine hfollows.mono (fun _ _ _ => trivial) fun queues _ hvalid hmem => ?_
  rw [hvalid _ hmem] at hname
  cases hname

/-- チャンネルの名前が種類と同じ欄を含んでも、重複排除のキーは取り出されない。 -/
theorem dedupeKey_excluded : isValidQueueKey (splitColon (OtherKey.dedupe "record" "web:record:a" "r1").name) = false :=
  (otherKey_excluded (k := .dedupe "record" "web:record:a" "r1") ⟨by decide, by decide, by decide⟩).1

end RtcEgress.Queue
