import RtcEgress.Compositor.Compositor
import RtcEgress.Lib.System
import RtcEgress.Message.Users

/-!
# 合成に並べる利用者

着いた順の列は重ならないが、要求の `userOrder` は、同じ名前を二度挙げることができる。要求の検査は、重なりを調べない。
-/

namespace RtcEgress.Compositor

open RtcEgress.Lib RtcEgress.Message RtcEgress.Queue
open Media (elapsed)

/-! ## 並べること -/

theorem foldl_append_absent {shown : List String} (hnodup : shown.Nodup) (ordered : List String) :
    shown.foldl (fun ordered user => if user ∈ ordered then ordered else ordered ++ [user]) ordered =
      ordered ++ shown.filter (· ∉ ordered) := by
  induction shown generalizing ordered with
  | nil => simp
  | cons user shown ih =>
      obtain ⟨huser, hnodup⟩ := List.nodup_cons.mp hnodup
      rw [List.foldl_cons, ih hnodup]
      by_cases hmem : user ∈ ordered
      · simp [hmem]
      · have hrest : shown.filter (· ∉ ordered ++ [user]) = shown.filter (· ∉ ordered) := by
          refine List.filter_congr fun v hv => ?_
          have hne : v ≠ user := fun h => huser (h ▸ hv)
          simp [hne]
        rw [if_neg hmem, hrest, List.filter_cons_of_pos (by simpa using hmem), List.append_assoc, List.singleton_append]

/-- 挙がった利用者を先に、挙がらない利用者を後に並べる。 -/
theorem arrange_eq (order : List String) {shown : List String} (hnodup : shown.Nodup) :
    arrange order shown = order.filter (· ∈ shown) ++ shown.filter (· ∉ order) := by
  rw [arrange, foldl_append_absent hnodup]
  congr 1
  refine List.filter_congr fun user huser => ?_
  simp [huser]

theorem mem_arrange {order shown : List String} (hnodup : shown.Nodup) (user : String) :
    user ∈ arrange order shown ↔ user ∈ shown := by
  rw [arrange_eq order hnodup, List.mem_append, List.mem_filter, List.mem_filter]
  simp only [decide_eq_true_eq]
  tauto

/-- 重ならずに並ぶのは、表示する利用者を二度挙げないときである。 -/
theorem nodup_arrange_iff (order : List String) {shown : List String} (hnodup : shown.Nodup) :
    (arrange order shown).Nodup ↔ ∀ user ∈ shown, order.count user ≤ 1 := by
  rw [arrange_eq order hnodup, List.nodup_append]
  constructor
  · rintro ⟨hfirst, -, -⟩ user huser
    rw [← List.count_filter (p := (· ∈ shown)) (by simpa using huser)]
    exact List.nodup_iff_count_le_one.mp hfirst user
  · intro hcount
    refine ⟨?_, hnodup.filter _, ?_⟩
    · refine List.nodup_iff_count_le_one.mpr fun user => ?_
      by_cases huser : user ∈ shown
      · rw [List.count_filter (by simpa using huser)]
        exact hcount user huser
      · rw [List.count_eq_zero.mpr (by simp [huser])]
        exact Nat.zero_le 1
    · intro user hleft user' hright heq
      simp only [List.mem_filter, decide_eq_true_eq] at hleft hright
      exact hright.2 (heq ▸ hleft.1)

/-! ## 操作の列 -/

/-- 合成器に行う操作。時刻は、そのつど読んだものである。 -/
inductive Op where
  | addUserFrame (userId : String) (frame : VideoFrame) (activeUsers : List String)
      (currentTime cleanupTime compositeTime : Nat)
  | removeUser (userId : String)
  | clearAllUsers
  | onLayoutChange (activeUsers : List String) (compositeTime : Nat)

/-- ロックの順に並べた操作で進む合成器。 -/
abbrev compositor (h : Host) : System Op where
  State := VideoCompositor
  step
    | .addUserFrame userId frame activeUsers currentTime cleanupTime compositeTime, s =>
        (s.addUserFrame h userId frame activeUsers currentTime cleanupTime compositeTime).2.2
    | .removeUser userId, s => s.removeUser userId
    | .clearAllUsers, s => s.clearAllUsers
    | .onLayoutChange activeUsers compositeTime, s => (s.onLayoutChange h activeUsers compositeTime).2

/-- 状態 `s` での操作が、状態 `t` で、`activeUsers` について `createCompositeFrameWithoutLock` を呼ぶ。 -/
inductive Op.Composes (s : VideoCompositor) : Op → VideoCompositor → List String → Prop where
  | addUserFrame {userId frame activeUsers currentTime cleanupTime compositeTime}
      (hready : (!s.initialized || s.stopRequested) = false)
      (hinterval : (s.receiveFrame userId frame currentTime cleanupTime).intervalPassed currentTime = true) :
      Composes s (.addUserFrame userId frame activeUsers currentTime cleanupTime compositeTime)
        (s.receiveFrame userId frame currentTime cleanupTime) activeUsers
  | onLayoutChange {activeUsers compositeTime} (h : s.layoutComposes activeUsers = true) :
      Composes s (.onLayoutChange activeUsers compositeTime) s activeUsers

/-- フレームのある活動中の利用者が、一度ずつ、挙がった順に並ぶ。 -/
structure ShownOnce (s : VideoCompositor) (activeUsers : List String) : Prop where
  perm : (s.ordered activeUsers).Perm (s.usersWithFrames activeUsers)
  first : s.order.filter (· ∈ s.usersWithFrames activeUsers) <+: s.ordered activeUsers

namespace VideoCompositor

/-- 設定は変わらず、着いた順の列は重ならない。 -/
structure Ordered (config : VideoCompositor.Config) (s : VideoCompositor) : Prop where
  config : s.config = config
  nodup : s.arrivalOrder.Nodup

variable {config : VideoCompositor.Config} {s : VideoCompositor}

theorem Ordered.receiveFrame (h : s.Ordered config) (userId : String) (frame : VideoFrame) (currentTime cleanupTime : Nat) :
    (s.receiveFrame userId frame currentTime cleanupTime).Ordered config := by
  refine ⟨h.config, ?_⟩
  change (if userId ∈ s.arrivalOrder then s.arrivalOrder else s.arrivalOrder ++ [userId]).Nodup
  split_ifs with hmem
  · exact h.nodup
  · exact List.nodup_append.mpr ⟨h.nodup, List.nodup_singleton _, by
      rintro user huser _ (_ | ⟨_, ⟨⟩⟩) rfl
      exact hmem huser⟩

theorem Ordered.createComposite (host : Host) (h : s.Ordered config) (activeUsers : List String) (currentTime : Nat) :
    (s.createCompositeFrameWithoutLock host activeUsers currentTime).2.2.Ordered config := by
  unfold createCompositeFrameWithoutLock
  split_ifs
  · exact h
  · exact h
  · exact h
  · exact ⟨h.config, h.nodup⟩

theorem Ordered.step (host : Host) (op : Op) (h : s.Ordered config) : ((compositor host).step op s).Ordered config := by
  cases op with
  | addUserFrame userId frame activeUsers currentTime cleanupTime compositeTime =>
      have hreceived := h.receiveFrame userId frame currentTime cleanupTime
      simp only [VideoCompositor.addUserFrame]
      split_ifs
      · exact h
      · exact hreceived.createComposite host activeUsers compositeTime
      · exact hreceived
  | removeUser userId => exact ⟨h.config, h.nodup⟩
  | clearAllUsers => exact ⟨h.config, List.nodup_nil⟩
  | onLayoutChange activeUsers compositeTime =>
      simp only [VideoCompositor.onLayoutChange]
      split_ifs
      · exact h.createComposite host activeUsers compositeTime
      · exact h

/-- 一度ずつ並ぶのは、`userOrder` が、表示する利用者を二度挙げないときである。 -/
theorem Ordered.shownOnce_iff (h : s.Ordered config) {activeUsers : List String} (hnodup : activeUsers.Nodup) :
    ShownOnce s activeUsers ↔ ∀ userId ∈ s.usersWithFrames activeUsers, config.userOrder.count userId ≤ 1 := by
  have hshown : (s.usersWithFrames activeUsers).Nodup := hnodup.filter _
  have hperm : (s.ordered activeUsers).Perm (s.usersWithFrames activeUsers) ↔ (s.ordered activeUsers).Nodup := by
    constructor
    · exact fun hp => hp.nodup_iff.mpr hshown
    · exact fun hn => (List.perm_ext_iff_of_nodup hn hshown).mpr (mem_arrange hshown)
  have horder : (∀ userId ∈ s.usersWithFrames activeUsers, s.order.count userId ≤ 1) ↔
      ∀ userId ∈ s.usersWithFrames activeUsers, config.userOrder.count userId ≤ 1 := by
    unfold order
    rw [h.config]
    split_ifs with hempty
    · simp [hempty, List.nodup_iff_count_le_one.mp h.nodup]
    · exact Iff.rfl
  rw [← horder, ← nodup_arrange_iff s.order hshown]
  constructor
  · exact fun hs => hperm.mp hs.perm
  · exact fun hn => ⟨hperm.mpr hn, ⟨_, (arrange_eq s.order hshown).symm⟩⟩

end VideoCompositor

/-- どの操作の列の後の合成でも、利用者が一度ずつ並ぶのは、`userOrder` が、表示する利用者を二度挙げないときである。 -/
theorem shown_once_iff (host : Host) (config : VideoCompositor.Config) (startTime : Nat) (ops : List Op) {op : Op}
    {s : VideoCompositor} {activeUsers : List String}
    (hcomposes : op.Composes ((compositor host).run ops { config, lastCompositeTime := startTime }) s activeUsers)
    (hnodup : activeUsers.Nodup) :
    ShownOnce s activeUsers ↔ ∀ userId ∈ s.usersWithFrames activeUsers, config.userOrder.count userId ≤ 1 := by
  have hrun := System.run_invariant (S := compositor host) (I := VideoCompositor.Ordered config)
    (fun op _ hs => hs.step host op) ops (s := { config, lastCompositeTime := startTime }) ⟨rfl, List.nodup_nil⟩
  cases hcomposes with
  | addUserFrame _ _ => exact (hrun.receiveFrame _ _ _ _).shownOnce_iff hnodup
  | onLayoutChange _ => exact hrun.shownOnce_iff hnodup

/-! ## 例 -/

def plainFrame : VideoFrame where
  width := 320
  height := 180
  timestamp := 1000
  data _ _ _ := 80
  width_range := by decide
  height_range := by decide

def plainHost : Host where
  fl := .exact
  scale frame _ _ := some fun plane _ _ => frame.data plane 0 0
  writable := true

def orderedBy (userOrder : List String) : VideoCompositor.Config where
  outputWidth := 320
  outputHeight := 180
  layout := "flat"
  regions := []
  userOrder

def aliceFrame : Op := .addUserFrame "alice" plainFrame ["alice"] 1016 1016 1016

theorem aliceFrame_composes (userOrder : List String) :
    aliceFrame.Composes { config := orderedBy userOrder, lastCompositeTime := 1000 }
      (VideoCompositor.receiveFrame { config := orderedBy userOrder, lastCompositeTime := 1000 } "alice" plainFrame 1016 1016)
      ["alice"] :=
  .addUserFrame rfl (decide_eq_true (by decide : 16 ≤ elapsed 1016 1000))

/-- `alice` のフレームを合成した後に、`bob` のフレームが着く。 -/
def afterAlice : VideoCompositor :=
  (compositor plainHost).run [aliceFrame] { config := orderedBy ["bob", "alice"], lastCompositeTime := 1000 }

def bobFrame : Op := .addUserFrame "bob" plainFrame ["alice", "bob"] 1040 1040 1040

theorem bobFrame_composes :
    bobFrame.Composes afterAlice (afterAlice.receiveFrame "bob" plainFrame 1040 1040) ["alice", "bob"] := by
  have hlast : afterAlice.lastCompositeTime = 1016 := by decide
  refine .addUserFrame (by decide) (decide_eq_true ?_)
  change 16 ≤ elapsed 1040 afterAlice.lastCompositeTime
  rw [hlast]
  decide

theorem shown_once_iff_alice :
    (VideoCompositor.usersWithFrames (afterAlice.receiveFrame "bob" plainFrame 1040 1040) ["alice", "bob"]).length = 2 ∧
      ShownOnce (afterAlice.receiveFrame "bob" plainFrame 1040 1040) ["alice", "bob"] := by
  refine ⟨by decide, ?_⟩
  have hiff := shown_once_iff plainHost (orderedBy ["bob", "alice"]) 1000 [aliceFrame] bobFrame_composes (by decide)
  exact hiff.mpr (by decide)

def doubledUsers : Payload := samplePayload "users" (.arr [.str "alice", .str "alice"])

/-- 検査を通った要求の名前が重なれば、その利用者は二つの領域に現れる。 -/
theorem not_shown_once : (∃ r', validateStartTaskRequest (sampleRequest doubledUsers) = .ok r') ∧
    (∃ m, buildUDSMessageFromQueueTask (sampleTask doubledUsers) = .ok m ∧ m.uid = ["alice", "alice"]) ∧
    ¬∀ (host : Host) (ops : List Op) (op : Op) (s : VideoCompositor) (activeUsers : List String),
      op.Composes ((compositor host).run ops { config := orderedBy ["alice", "alice"], lastCompositeTime := 1000 }) s
        activeUsers → activeUsers.Nodup → ShownOnce s activeUsers := by
  refine ⟨⟨_, rfl⟩, ⟨_, rfl, by decide⟩, fun h => ?_⟩
  have hlength := (h plainHost [] aliceFrame _ _ (aliceFrame_composes ["alice", "alice"]) (by decide)).perm.length_eq
  revert hlength
  decide

end RtcEgress.Compositor
