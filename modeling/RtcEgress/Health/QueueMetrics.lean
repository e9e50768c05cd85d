import Mathlib.Algebra.BigOperators.Group.List.Basic
import Mathlib.Algebra.Order.Ring.Nat
import RtcEgress.Health.Manager
import RtcEgress.Queue.Patterns

/-!
# キューの長さの集計

`pkg/health/manager.go` の `calculateQueueMetrics` を写す。パターンは `egress:{region}:{type}:channel:{channel}` の形のキーを集めるが、
公開のキーは `channel` の欄を持たない。
-/

namespace RtcEgress.Health

open RtcEgress.Lib
open RtcEgress.Queue (splitColon matchesKey splitColon_append exists_of_splitColon_cons splitColon_of_notMem routeFields Route)

def queuePattern : String := "egress:*:*:channel:*"

/-- キーを一つ数える。長さを読めないキーは飛ばす。 -/
def countQueue (llen : String → Option Nat) (depths : AList fun _ : String => Nat) (queueKey : String) :
    AList fun _ : String => Nat :=
  match splitColon queueKey, llen queueKey with
  | _ :: region :: cmd :: _ :: _, some length =>
      let key := region ++ ":" ++ cmd
      depths.insert key ((depths.lookup key).getD 0 + length)
  | _, _ => depths

/-- `keys` は Redis にあるキーである。 -/
def calculateQueueMetrics (keys : List String) (llen : String → Option Nat) : AList fun _ : String => Nat :=
  (keys.filter (matchesKey queuePattern)).foldl (countQueue llen) ∅

/-- `getQueueMetrics` の `total_backlog`。 -/
def totalBacklog (depths : AList fun _ : String => Nat) : Nat := (depths.entries.map fun e => e.2).sum

/-! ## 集めるキー -/

/-- `channel` が、三つ目より後の、終わりでない欄に現れるキーに照合する。 -/
theorem matches_queuePattern {key : String} {fields : List String} (hs : splitColon key = "egress" :: fields)
    (hne : fields ≠ []) : matchesKey queuePattern key = true ↔ "channel" ∈ (fields.drop 2).dropLast := by
  have hpat : queuePattern.toList =
      "egress:".toList ++ '*' :: ([':'] ++ '*' :: ((':' :: ("channel".toList ++ [':'])) ++ ['*'])) := by decide
  have hlit : ∀ c ∈ ':' :: ("channel".toList ++ [':']), c ≠ '*' ∧ c ≠ '?' := by simp
  have hfields (t : String) : (splitColon t).dropLast = (terminated ':' t.toList).map String.ofList := by
    rw [splitColon, terminated, List.map_dropLast]
  have hmem (l : List (List Char)) : "channel" ∈ l.map String.ofList ↔ "channel".toList ∈ l := by
    rw [List.mem_map]
    constructor
    · rintro ⟨x, hx, heq⟩
      rwa [← heq, String.toList_ofList]
    · exact fun h => ⟨_, h, String.ofList_toList⟩
  obtain ⟨t, rfl, -, rfl⟩ := exists_of_splitColon_cons hs hne
  have hkey : ("egress" ++ (":" ++ t)).toList = "egress:".toList ++ t.toList := by simp
  have hdrop : ((splitColon t).drop 2).dropLast = ((terminated ':' t.toList).drop 2).map String.ofList := by
    rw [List.dropLast_drop_eq_drop_dropLast, hfields, List.map_drop]
  rw [matchesKey, hpat, hkey, globMatch_literal (by simp), hdrop, hmem, mem_terminated_drop_two]
  constructor
  · rintro ⟨t', ht', hmatch⟩
    obtain rfl := List.append_cancel_left ht'
    obtain ⟨u, ⟨a, ha⟩, hu⟩ := (globMatch_star _ _).mp hmatch
    obtain ⟨v, rfl, hv⟩ := (globMatch_literal (by simp) _ _).mp hu
    exact ⟨a, v, ha.symm, (infix_iff_mem_terminated (by decide) v).mp ((globMatch_contains hlit v).mp hv)⟩
  · rintro ⟨a, v, ha, hv⟩
    refine ⟨t.toList, rfl, (globMatch_star _ _).mpr ⟨':' :: v, ⟨a, ha.symm⟩, ?_⟩⟩
    exact (globMatch_literal (by simp) _ _).mpr
      ⟨v, rfl, (globMatch_contains hlit v).mpr ((infix_iff_mem_terminated (by decide) v).mpr hv)⟩

/-! ## 合計 -/

theorem sum_kerase (k : String) (l : List (Sigma fun _ : String => Nat)) :
    ((l.kerase k).map fun e => e.2).sum + (l.dlookup k).getD 0 = (l.map fun e => e.2).sum := by
  induction l with
  | nil => rfl
  | cons e l ih =>
      obtain ⟨k', n⟩ := e
      by_cases hk : k = k'
      · subst hk
        simp [Nat.add_comm]
      · rw [List.kerase_cons_ne hk, List.dlookup_cons_ne _ _ hk, List.map_cons, List.sum_cons, List.map_cons, List.sum_cons,
          ← ih, Nat.add_assoc]

theorem totalBacklog_insert (depths : AList fun _ : String => Nat) (key : String) (length : Nat) :
    totalBacklog (depths.insert key ((depths.lookup key).getD 0 + length)) = totalBacklog depths + length := by
  have hsum := sum_kerase key depths.entries
  rw [totalBacklog, totalBacklog, AList.entries_insert, List.map_cons, List.sum_cons, ← hsum, AList.lookup]
  dsimp only
  omega

/-- 長さは、どの組に数えても、合計に一度だけ入る。 -/
theorem totalBacklog_countQueue {fields : List String} {queueKey : String} (hs : splitColon queueKey = "egress" :: fields)
    (hlong : 3 ≤ fields.length) (llen : String → Option Nat) (depths : AList fun _ : String => Nat) :
    totalBacklog (countQueue llen depths queueKey) = totalBacklog depths + (llen queueKey).getD 0 := by
  rcases fields with _ | ⟨region, _ | ⟨cmd, _ | ⟨field, rest⟩⟩⟩
  · simp at hlong
  · simp at hlong
  · simp at hlong
  · rw [countQueue, hs]
    cases llen queueKey with
    | none => rfl
    | some length => exact totalBacklog_insert depths _ length

theorem fields_ne_nil (r : Route) : r.fields ≠ [] := by
  simp [Route.fields]

/-- チャンネルの名前に `:` がなければ、`channel` は始めの二つか終わりの欄にしか現れない。 -/
theorem notMem_channel {r : Route} (h : ':' ∉ r.channel.toList) : "channel" ∉ (r.fields.drop 2).dropLast := by
  have hcmd : "channel" ≠ r.cmd := by
    intro heq
    have hvalid := r.cmd_valid
    rw [← heq] at hvalid
    exact absurd hvalid (by decide)
  rw [Route.fields, splitColon_of_notMem h, routeFields]
  split_ifs <;> simp [hcmd]

/-- 合計は、`channel` の欄を持つキューだけの長さの和である。名前に `:` のないチャンネルのキューは、一つも数えない。 -/
theorem totalBacklog_routes (routes : List Route) (llen : String → Option Nat) :
    totalBacklog (calculateQueueMetrics (routes.map Route.key) llen) =
        ((routes.filter fun r => "channel" ∈ (r.fields.drop 2).dropLast).map fun r => (llen r.key).getD 0).sum ∧
      ((∀ r ∈ routes, ':' ∉ r.channel.toList) → calculateQueueMetrics (routes.map Route.key) llen = ∅) := by
  have hmatch (r : Route) : matchesKey queuePattern r.key = decide ("channel" ∈ (r.fields.drop 2).dropLast) := by
    rw [Bool.eq_iff_iff, decide_eq_true_iff]
    exact matches_queuePattern r.splitColon_key (fields_ne_nil r)
  have hfold (rs : List Route) (hrs : ∀ r ∈ rs, "channel" ∈ (r.fields.drop 2).dropLast) (depths : AList fun _ : String => Nat) :
      totalBacklog ((rs.map Route.key).foldl (countQueue llen) depths) =
        totalBacklog depths + (rs.map fun r => (llen r.key).getD 0).sum := by
    induction rs generalizing depths with
    | nil => rfl
    | cons r rs ih =>
        rw [List.forall_mem_cons] at hrs
        have hlong : 3 ≤ r.fields.length := by
          by_contra hshort
          have hnil : r.fields.drop 2 = [] ∨ ∃ x, r.fields.drop 2 = [x] := by
            rw [← List.length_eq_zero_iff, ← List.length_eq_one_iff, List.length_drop]
            omega
          obtain hnil | ⟨x, hx⟩ := hnil
          · simp [hnil] at hrs
          · simp [hx] at hrs
        rw [List.map_cons, List.foldl_cons, ih hrs.2, totalBacklog_countQueue r.splitColon_key hlong, List.map_cons,
          List.sum_cons, Nat.add_assoc]
  have hkeys : (routes.map Route.key).filter (matchesKey queuePattern) =
      (routes.filter fun r => "channel" ∈ (r.fields.drop 2).dropLast).map Route.key := by
    rw [List.filter_map]
    congr 1
    exact List.filter_congr fun r _ => hmatch r
  rw [calculateQueueMetrics, hkeys]
  constructor
  · rw [hfold _ (fun r hr => by simpa using (List.mem_filter.mp hr).2)]
    simp [totalBacklog]
  · intro hplain
    have hnone : routes.filter (fun r => "channel" ∈ (r.fields.drop 2).dropLast) = [] := by
      rw [List.filter_eq_nil_iff]
      intro r hr
      simpa using notMem_channel (hplain r hr)
    rw [hnone]
    rfl

def recordRoute : Route where
  layout := "flat"
  cmd := "record"
  channel := "room"
  region := "eu"
  layout_valid := by decide
  cmd_valid := by decide
  channel_valid := by decide
  region_valid := by decide

def snapshotRoute : Route :=
  { recordRoute with cmd := "snapshot", region := "", cmd_valid := by decide, region_valid := by decide }

/-- チャンネルの名前が `channel:` で始まる。 -/
def namedRoute : Route := { recordRoute with channel := "channel:room", channel_valid := by decide }

/-- 三つのキューのうち、数えるのは `channel` の欄を持つ一つだけであり、他の二つだけなら何も数えない。 -/
theorem totalBacklog_routes_record :
    totalBacklog (calculateQueueMetrics ["egress:eu:record:room", "egress:eu:record:channel:room", "egress:snapshot:room"]
      fun key => some key.length) = 29 ∧
    calculateQueueMetrics ["egress:eu:record:room", "egress:snapshot:room"] (fun key => some key.length) = ∅ := by
  have hplain : ∀ r ∈ [recordRoute, snapshotRoute], ':' ∉ r.channel.toList := by decide
  constructor
  · exact (totalBacklog_routes [recordRoute, namedRoute, snapshotRoute] fun key => some key.length).1.trans (by decide)
  · exact (totalBacklog_routes [recordRoute, snapshotRoute] fun key => some key.length).2 hplain

end RtcEgress.Health
