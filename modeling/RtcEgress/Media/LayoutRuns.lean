import Mathlib.Data.String.Basic
import RtcEgress.Lib.Assoc
import RtcEgress.Lib.Stamps
import RtcEgress.Lib.System
import RtcEgress.Media.LayoutDetector

/-!
# 配置の検出の流れ

利用者のフレームと、検出のスレッドの周期を、任意の順に行う。フレームの時刻は、ロックを取る前に読んだものなので、前に処理した
フレームより古いことがある。周期の中では、時計は、利用者ごとに読むたびに進みうる。
-/

namespace RtcEgress.Media

open RtcEgress.Lib

namespace LayoutDetector

/-- `stableTime` は、`isUserStable` が利用者ごとに読む時刻である。 -/
def updateUserStates (d : LayoutDetector) (currentTime : Nat) (stableTime : String → Nat) : LayoutDetector :=
  (d.userIds.foldl (fun d userId => d.updateUser userId currentTime (stableTime userId)) d).removeLeft currentTime

def newLayout (d : LayoutDetector) (stableTime : String → Nat) : List String :=
  (d.userIds.filter fun userId =>
    match d.users.lookup userId with
    | some user => shouldIncludeInLayout d.config user (stableTime userId)
    | none => false).insertionSort (· ≤ ·)

def checkLayoutChange (d : LayoutDetector) (currentTime : Nat) (stableTime : String → Nat) : Bool × LayoutDetector :=
  if elapsed currentTime d.lastLayoutChangeMs < d.config.layoutStabilityMs then (false, d)
  else d.changeLayout (d.newLayout stableTime) currentTime

/-- 引き算に使う、記録した時刻。 -/
def Recorded (d : LayoutDetector) (t : Nat) : Prop :=
  t = d.lastLayoutChangeMs ∨ ∃ userId user, d.users.lookup userId = some user ∧ (t = user.firstSeenMs ∨ t = user.lastFrameMs)

end LayoutDetector

/-- `now` はすべてのスレッドが読む時計、`frames` は処理したフレーム、`changes` は配置を変えた時刻である。 -/
structure Detecting where
  now : Nat
  detector : LayoutDetector
  frames : List (String × Nat) := []
  changes : List Nat := []

/-- 検出器の動いている間の動き。周期の間に時計は `spent` 進み、そのうち `delay` が過ぎた時に利用者の時刻を読む。 -/
inductive Detection where
  | tick (ms : Nat)
  | onUserFrame (userId : String) (timestamp : Nat)
  | updateUserStates (spent : Nat) (delay : String → Nat)
  | checkLayoutChange (spent : Nat) (delay : String → Nat)

namespace Detecting

def stableTime (s : Detecting) (spent : Nat) (delay : String → Nat) (userId : String) : Nat :=
  s.now + min (delay userId) spent

/-- できない動きは、何も変えない。フレームの時刻は、前に読んだものである。 -/
def next (s : Detecting) : Detection → Detecting
  | .tick ms => if s.now + ms < 2 ^ 64 then { s with now := s.now + ms } else s
  | .onUserFrame userId timestamp =>
      if userId = "" ∨ s.now < timestamp then s
      else { s with detector := (s.detector.recordFrame userId timestamp).2, frames := s.frames ++ [(userId, timestamp)] }
  | .updateUserStates spent delay =>
      if s.now + spent < 2 ^ 64 then
        { s with
          now := s.now + spent
          detector := s.detector.updateUserStates s.now (s.stableTime spent delay) }
      else s
  | .checkLayoutChange spent delay =>
      if s.now + spent < 2 ^ 64 then
        let (changed, detector) := s.detector.checkLayoutChange s.now (s.stableTime spent delay)
        { s with
          now := s.now + spent
          detector
          changes := if changed then s.changes ++ [s.now] else s.changes }
      else s

/-- 利用者を決めずに、フレームを送る者を数える。 -/
def start (config : LayoutDetector.Config) (now : UInt64) : Detecting where
  now := now.toNat
  detector := .init { config with expectedUsers := [] } now.toNat

end Detecting

abbrev detecting : System Detection where
  State := Detecting
  step e s := s.next e

/-- 動きの中で、検出のスレッドが読む時刻。 -/
def Detection.Reads (s : Detecting) (now : Nat) : Detection → Prop
  | .tick _ | .onUserFrame _ _ => False
  | .updateUserStates spent delay | .checkLayoutChange spent delay =>
      s.now + spent < 2 ^ 64 ∧ (now = s.now ∨ ∃ userId, now = s.stableTime spent delay userId)

/-- 一つの動きについて求めること。 -/
structure Lawful (e : Detection) (s : Detecting) : Prop where
  bounded : (s.next e).detector.users.keys.length ≤ s.detector.config.maxUsers
  spaced : (s.next e).changes.IsChain fun a b => a + s.detector.config.layoutStabilityMs ≤ b
  sorted : (s.next e).detector.currentLayout.Pairwise (· < ·)
  /-- 変わった配置は、その周期で活動中の者と、参加中で安定した者とからなる。 -/
  exact : (s.next e).detector.currentLayout ≠ s.detector.currentLayout →
    (s.next e).changes = s.changes ++ [s.now] ∧ ∃ spent delay, e = .checkLayoutChange spent delay ∧
      ∀ userId, userId ∈ (s.next e).detector.currentLayout ↔ ∃ user, s.detector.users.lookup userId = some user ∧
        (user.state = .active ∨ user.state = .joining ∧
          LayoutDetector.isUserStable s.detector.config user (s.stableTime spent delay userId) = true)
  /-- 参加中から活動中になるのは、初めのフレームの後に五つのフレームがあり、定めた時間を過ごした者である。 -/
  activated : ∀ userId user user', s.detector.users.lookup userId = some user → user.state = .joining →
    (s.next e).detector.users.lookup userId = some user' → user'.state = .active →
      ∃ earlier t later, s.frames = earlier ++ (userId, t) :: later ∧
        5 ≤ (later.filter (·.1 = userId)).length ∧
          ∃ now, e.Reads s now ∧ t + s.detector.config.layoutStabilityMs / 3 ≤ now
  wrapFree : ∀ now t, e.Reads s now → s.detector.Recorded t → t ≤ now ∧ elapsed now t = now - t

/-! ## 周期の中の更新 -/

theorem elapsed_eq_sub {now t : Nat} (ht : t ≤ now) (hnow : now < 2 ^ 64) : elapsed now t = now - t := by
  unfold elapsed
  omega

namespace LayoutDetector

variable {d : LayoutDetector} {currentTime : Nat}

def UserInfo.updated (config : Config) (user : UserInfo) (currentTime stableTime : Nat) : UserInfo :=
  { user with state := UserInfo.nextState config user currentTime stableTime, hasRecentFrames := false }

/-- 利用者の表のほかと、利用者の数は変わらない。 -/
structure SameLayout (d d' : LayoutDetector) : Prop where
  config : d'.config = d.config
  layout : d'.currentLayout = d.currentLayout
  changed : d'.lastLayoutChangeMs = d.lastLayoutChangeMs
  length : d'.users.keys.length ≤ d.users.keys.length

theorem SameLayout.refl (d : LayoutDetector) : SameLayout d d := ⟨rfl, rfl, rfl, Nat.le_refl _⟩

theorem SameLayout.trans {d d' d'' : LayoutDetector} (h : SameLayout d d') (h' : SameLayout d' d'') : SameLayout d d'' :=
  ⟨h'.config.trans h.config, h'.layout.trans h.layout, h'.changed.trans h.changed, h'.length.trans h.length⟩

theorem sameLayout_updateUser (d : LayoutDetector) (userId : String) (currentTime stableTime : Nat) :
    SameLayout d (d.updateUser userId currentTime stableTime) := by
  unfold updateUser
  cases hlookup : d.users.lookup userId with
  | none => exact .refl d
  | some user =>
      refine ⟨rfl, rfl, rfl, ?_⟩
      simp only [length_keys_insert, hlookup, Option.isSome_some, if_true, Nat.le_refl]

theorem lookup_updateUser (d : LayoutDetector) (userId userId' : String) (currentTime stableTime : Nat) :
    (d.updateUser userId currentTime stableTime).users.lookup userId' =
      if userId' = userId then (d.users.lookup userId').map fun user => UserInfo.updated d.config user currentTime stableTime
      else d.users.lookup userId' := by
  unfold updateUser
  cases hlookup : d.users.lookup userId with
  | none =>
      by_cases heq : userId' = userId
      · subst heq
        simp [hlookup]
      · simp [heq]
  | some user =>
      by_cases heq : userId' = userId
      · subst heq
        simp [hlookup, UserInfo.updated]
      · simp [heq, AList.lookup_insert_ne]

/-- 名前の列に重なりがなければ、どの利用者も一度ずつ更新する。 -/
theorem foldl_updateUser (currentTime : Nat) (stableTime : String → Nat) {l : List String} (hl : l.Nodup) (d : LayoutDetector) :
    let d' := l.foldl (fun d userId => d.updateUser userId currentTime (stableTime userId)) d
    SameLayout d d' ∧ ∀ userId, d'.users.lookup userId =
      if userId ∈ l then
        (d.users.lookup userId).map fun user => UserInfo.updated d.config user currentTime (stableTime userId)
      else d.users.lookup userId := by
  induction l generalizing d with
  | nil => exact ⟨.refl d, fun userId => by simp⟩
  | cons a l ih =>
      obtain ⟨ha, hl⟩ := List.nodup_cons.mp hl
      have hsame := d.sameLayout_updateUser a currentTime (stableTime a)
      obtain ⟨hrest, hlookup⟩ := ih hl (d.updateUser a currentTime (stableTime a))
      refine ⟨hsame.trans hrest, fun userId => ?_⟩
      rw [List.foldl_cons, hlookup, hsame.config, lookup_updateUser]
      by_cases heq : userId = a
      · subst heq
        simp [ha]
      · simp [heq]

theorem removeLeft_spec (d : LayoutDetector) (currentTime : Nat) :
    SameLayout d (d.removeLeft currentTime) ∧ ∀ userId user, (d.removeLeft currentTime).users.lookup userId = some user →
      d.users.lookup userId = some user := by
  have hfold (gone : List String) : ∀ users : AList fun _ : String => UserInfo,
      (gone.foldl (fun users userId => users.erase userId) users).keys.length ≤ users.keys.length ∧
        ∀ userId user, (gone.foldl (fun users userId => users.erase userId) users).lookup userId = some user →
          users.lookup userId = some user := by
    induction gone with
    | nil => exact fun users => ⟨Nat.le_refl _, fun _ _ h => h⟩
    | cons a gone ih =>
        intro users
        obtain ⟨hlength, hlookup⟩ := ih (users.erase a)
        refine ⟨hlength.trans (length_keys_erase_le users a), fun userId user h => ?_⟩
        have h := hlookup userId user h
        rw [lookup_erase_ite] at h
        split_ifs at h
        exact h
  exact ⟨⟨rfl, rfl, rfl, (hfold _ d.users).1⟩, (hfold _ d.users).2⟩

theorem nodup_userIds (d : LayoutDetector) : d.userIds.Nodup :=
  (List.perm_insertionSort _ _).nodup_iff.mpr d.users.keys_nodup

theorem mem_userIds {userId : String} : userId ∈ d.userIds ↔ (d.users.lookup userId).isSome = true := by
  rw [userIds, List.mem_insertionSort, AList.lookup_isSome]
  exact AList.mem_keys.symm

/-- 周期の後に残る利用者は、周期の前の値を一度更新したものである。 -/
theorem updateUserStates_spec (d : LayoutDetector) (currentTime : Nat) (stableTime : String → Nat) :
    SameLayout d (d.updateUserStates currentTime stableTime) ∧
      ∀ userId user', (d.updateUserStates currentTime stableTime).users.lookup userId = some user' →
        ∃ user, d.users.lookup userId = some user ∧
          user' = UserInfo.updated d.config user currentTime (stableTime userId) := by
  obtain ⟨hsame, hlookup⟩ := foldl_updateUser currentTime stableTime d.nodup_userIds d
  obtain ⟨hremoved, hkept⟩ := removeLeft_spec
    (d.userIds.foldl (fun d userId => d.updateUser userId currentTime (stableTime userId)) d) currentTime
  refine ⟨hsame.trans hremoved, fun userId user' h => ?_⟩
  have h := hkept userId user' h
  rw [hlookup] at h
  split_ifs at h with hmem
  · obtain ⟨user, huser, rfl⟩ := Option.map_eq_some_iff.mp h
    exact ⟨user, huser, rfl⟩
  · rw [mem_userIds, h] at hmem
    exact absurd rfl hmem

theorem stable_of_nextState {config : Config} {user : UserInfo} {stableTime : Nat} (hjoining : user.state = .joining)
    (hactive : UserInfo.nextState config user currentTime stableTime = .active) :
    isUserStable config user stableTime = true := by
  simp only [UserInfo.nextState, hjoining] at hactive
  split_ifs at hactive with hstable
  exact hstable.2

/-! ## フレーム -/

/-- フレームの後の利用者の項。作り直したものか、一つ数えたものである。 -/
structure Framed (d : LayoutDetector) (userId : String) (timestamp : Nat) (user' : UserInfo) : Prop where
  last : user'.lastFrameMs = timestamp
  counted : user'.firstSeenMs = timestamp ∧ user'.frameCount = 0 ∨
    ∃ user, d.users.lookup userId = some user ∧ user'.firstSeenMs = user.firstSeenMs ∧ user'.frameCount = user.frameCount + 1
  joining : ∀ user, d.users.lookup userId = some user → user.state = .joining → user'.state = .joining
  bounded : d.users.keys.length ≤ d.config.maxUsers → (d.users.insert userId user').keys.length ≤ d.config.maxUsers

theorem framed_withFrame {userId : String} {user : UserInfo} (h : d.users.lookup userId = some user) (timestamp : Nat) :
    Framed d userId timestamp (UserInfo.withFrame user timestamp) := by
  have hbounded (user' : UserInfo) (hle : d.users.keys.length ≤ d.config.maxUsers) :
      (d.users.insert userId user').keys.length ≤ d.config.maxUsers := by
    rw [length_keys_insert, h]
    exact hle
  cases hstate : user.state with
  | left =>
      refine ⟨by simp [UserInfo.withFrame, hstate], .inl (by simp [UserInfo.withFrame, hstate]), ?_, hbounded _⟩
      intro user' huser' hjoining
      obtain rfl := Option.some.inj (h.symm.trans huser')
      rw [hstate] at hjoining
      cases hjoining
  | joining | active | leaving =>
      refine ⟨by simp [UserInfo.withFrame, hstate], .inr ⟨user, h, by simp [UserInfo.withFrame, hstate]⟩, ?_, hbounded _⟩
      intro user' huser' hjoining
      obtain rfl := Option.some.inj (h.symm.trans huser')
      simp [UserInfo.withFrame, hjoining]

/-- 自動の方式のフレームは、断られるか、一人の項を書き換える。 -/
theorem recordFrame_cases (hauto : d.config.expectedUsers = []) (userId : String) (timestamp : Nat) :
    (d.recordFrame userId timestamp).2 = d ∨ ∃ user', (d.recordFrame userId timestamp).2 =
      { d with users := d.users.insert userId user' } ∧ Framed d userId timestamp user' := by
  unfold recordFrame
  cases hlookup : d.users.lookup userId with
  | none =>
      cases haccepts : d.accepts userId with
      | false => exact .inl rfl
      | true =>
          refine .inr ⟨_, rfl, rfl, .inl ⟨rfl, rfl⟩, by simp [hlookup], fun _ => ?_⟩
          simp only [accepts, hauto, ne_eq, not_true_eq_false, if_false, decide_eq_true_eq] at haccepts
          rw [length_keys_insert, hlookup]
          exact haccepts
  | some user => exact .inr ⟨_, rfl, framed_withFrame hlookup timestamp⟩

/-! ## 配置 -/

theorem mem_newLayout {stableTime : String → Nat} {userId : String} :
    userId ∈ d.newLayout stableTime ↔ ∃ user, d.users.lookup userId = some user ∧
      (user.state = .active ∨ user.state = .joining ∧ isUserStable d.config user (stableTime userId) = true) := by
  rw [newLayout, List.mem_insertionSort, List.mem_filter, mem_userIds]
  cases d.users.lookup userId with
  | none => simp
  | some user => simp [shouldIncludeInLayout]

theorem pairwise_newLayout (d : LayoutDetector) (stableTime : String → Nat) :
    (d.newLayout stableTime).Pairwise (· < ·) := by
  have hnodup : (d.newLayout stableTime).Nodup :=
    (List.perm_insertionSort _ _).nodup_iff.mpr (d.nodup_userIds.filter _)
  exact (List.sortedLE_insertionSort.sortedLT_of_nodup hnodup).pairwise

/-- 配置を変えないか、間隔が過ぎていて、新しい配置に変える。 -/
theorem checkLayoutChange_cases (d : LayoutDetector) (currentTime : Nat) (stableTime : String → Nat) :
    d.checkLayoutChange currentTime stableTime = (false, d) ∨
      d.config.layoutStabilityMs ≤ elapsed currentTime d.lastLayoutChangeMs ∧
        d.checkLayoutChange currentTime stableTime =
          (true, { d with currentLayout := d.newLayout stableTime, lastLayoutChangeMs := currentTime }) := by
  unfold checkLayoutChange changeLayout
  split_ifs with hearly hchanged
  · exact .inl rfl
  · exact .inr ⟨Nat.not_lt.mp hearly, rfl⟩
  · exact .inl rfl

end LayoutDetector

/-! ## 不変条件 -/

/-- 利用者の項は、`firstSeenMs` に来たフレームで作られ、その後のフレームを数える。 -/
def Counted (frames : List (String × Nat)) (userId : String) (user : UserInfo) : Prop :=
  ∃ earlier later, frames = earlier ++ (userId, user.firstSeenMs) :: later ∧
    user.frameCount ≤ (later.filter (·.1 = userId)).length

theorem Counted.concat {frames : List (String × Nat)} {userId : String} {user user' : UserInfo}
    (h : Counted frames userId user) (hfirst : user'.firstSeenMs = user.firstSeenMs) {frame : String × Nat}
    (hcount : user'.frameCount ≤ user.frameCount + if frame.1 = userId then 1 else 0) :
    Counted (frames ++ [frame]) userId user' := by
  obtain ⟨earlier, later, hframes, hle⟩ := h
  refine ⟨earlier, later ++ [frame], by simp [hframes, hfirst], ?_⟩
  rw [List.filter_append, List.length_append]
  by_cases heq : frame.1 = userId
  · simp only [heq, if_true] at hcount
    simp [heq]
    omega
  · simp only [heq, if_false] at hcount
    omega

theorem counted_first (frames : List (String × Nat)) (userId : String) {user : UserInfo} (h : user.frameCount = 0) :
    Counted (frames ++ [(userId, user.firstSeenMs)]) userId user :=
  ⟨frames, [], rfl, by simp [h]⟩

namespace Detecting

/-- 記録した時刻は、いまの時刻までである。 -/
structure Timely (s : Detecting) : Prop where
  clock : s.now < 2 ^ 64
  auto : s.detector.config.expectedUsers = []
  bounded : s.detector.users.keys.length ≤ s.detector.config.maxUsers
  seen : ∀ userId user, s.detector.users.lookup userId = some user → user.firstSeenMs ≤ s.now ∧ user.lastFrameMs ≤ s.now
  counted : ∀ userId user, s.detector.users.lookup userId = some user → Counted s.frames userId user
  changed : s.detector.lastLayoutChangeMs ≤ s.now
  spaced : s.changes.IsChain fun a b => a + s.detector.config.layoutStabilityMs ≤ b
  recorded : ∀ t ∈ s.changes.getLast?, t = s.detector.lastLayoutChangeMs
  sorted : s.detector.currentLayout.Pairwise (· < ·)

variable {s : Detecting}

theorem timely_start (config : LayoutDetector.Config) (now : UInt64) : (start config now).Timely where
  clock := now.toNat_lt
  auto := rfl
  bounded := by simp [start, LayoutDetector.init]
  seen := by simp [start, LayoutDetector.init]
  counted := by simp [start, LayoutDetector.init]
  changed := Nat.zero_le _
  spaced := .nil
  recorded := by simp [start]
  sorted := .nil

theorem Timely.recorded_le (h : s.Timely) {t : Nat} (ht : s.detector.Recorded t) : t ≤ s.now := by
  rcases ht with rfl | ⟨userId, user, huser, rfl | rfl⟩
  · exact h.changed
  · exact (h.seen userId user huser).1
  · exact (h.seen userId user huser).2

/-- 検出のスレッドの読む時刻は、記録したどの時刻よりも前でない。 -/
theorem Timely.wrapFree (h : s.Timely) {e : Detection} {now t : Nat} (hreads : e.Reads s now)
    (ht : s.detector.Recorded t) : t ≤ now ∧ elapsed now t = now - t := by
  have hle := h.recorded_le ht
  have hnow : s.now ≤ now ∧ now < 2 ^ 64 := by
    cases e with
    | tick ms | onUserFrame userId timestamp => exact hreads.elim
    | updateUserStates spent delay | checkLayoutChange spent delay =>
        obtain ⟨hspent, rfl | ⟨userId, rfl⟩⟩ := hreads
        · exact ⟨Nat.le_refl _, h.clock⟩
        · unfold stableTime
          omega
  exact ⟨hle.trans hnow.1, elapsed_eq_sub (hle.trans hnow.1) hnow.2⟩

theorem Timely.onUserFrame (h : s.Timely) (userId : String) {timestamp : Nat} (ht : timestamp ≤ s.now) :
    Timely { s with
      detector := (s.detector.recordFrame userId timestamp).2
      frames := s.frames ++ [(userId, timestamp)] } := by
  rcases LayoutDetector.recordFrame_cases h.auto userId timestamp with heq | ⟨user', heq, hframed⟩
  · rw [heq]
    exact ⟨h.clock, h.auto, h.bounded, h.seen, fun userId' user huser => (h.counted userId' user huser).concat rfl
      (Nat.le_add_right _ _), h.changed, h.spaced, h.recorded, h.sorted⟩
  · rw [heq]
    have hlookup {userId' : String} {user : UserInfo}
        (huser : (s.detector.users.insert userId user').lookup userId' = some user) :
        userId' = userId ∧ user = user' ∨ userId' ≠ userId ∧ s.detector.users.lookup userId' = some user := by
      rw [lookup_insert_ite] at huser
      split_ifs at huser with hid
      · exact .inl ⟨hid, (Option.some.inj huser).symm⟩
      · exact .inr ⟨hid, huser⟩
    refine ⟨h.clock, h.auto, hframed.bounded h.bounded, fun userId' user huser => ?_, fun userId' user huser => ?_,
      h.changed, h.spaced, h.recorded, h.sorted⟩
    · obtain ⟨rfl, rfl⟩ | ⟨-, hold⟩ := hlookup huser
      · refine ⟨?_, hframed.last ▸ ht⟩
        rcases hframed.counted with ⟨hfirst, -⟩ | ⟨old, hold, hfirst, -⟩
        · exact hfirst ▸ ht
        · exact hfirst ▸ (h.seen userId' old hold).1
      · exact h.seen userId' user hold
    · obtain ⟨rfl, rfl⟩ | ⟨-, hold⟩ := hlookup huser
      · rcases hframed.counted with ⟨hfirst, hzero⟩ | ⟨old, hold, hfirst, hcount⟩
        · exact hfirst ▸ counted_first s.frames userId' hzero
        · exact (h.counted userId' old hold).concat hfirst (by simp [hcount])
      · exact (h.counted userId' user hold).concat rfl (Nat.le_add_right _ _)

theorem Timely.updateUserStates (h : s.Timely) {spent : Nat} (hspent : s.now + spent < 2 ^ 64) (delay : String → Nat) :
    Timely { s with
      now := s.now + spent
      detector := s.detector.updateUserStates s.now (s.stableTime spent delay) } := by
  obtain ⟨hsame, hlookup⟩ := s.detector.updateUserStates_spec s.now (s.stableTime spent delay)
  have hlater : s.now ≤ s.now + spent := Nat.le_add_right _ _
  refine ⟨hspent, ?_, ?_, fun userId user' huser' => ?_, fun userId user' huser' => ?_, ?_, ?_, ?_, ?_⟩
  · exact hsame.config ▸ h.auto
  · exact hsame.config ▸ hsame.length.trans h.bounded
  · obtain ⟨user, huser, rfl⟩ := hlookup userId user' huser'
    obtain ⟨hfirst, hlast⟩ := h.seen userId user huser
    exact ⟨hfirst.trans hlater, hlast.trans hlater⟩
  · obtain ⟨user, huser, rfl⟩ := hlookup userId user' huser'
    exact h.counted userId user huser
  · exact hsame.changed ▸ h.changed.trans hlater
  · exact hsame.config ▸ h.spaced
  · exact hsame.changed ▸ h.recorded
  · exact hsame.layout ▸ h.sorted

theorem next_checkLayoutChange (s : Detecting) (spent : Nat) (delay : String → Nat) :
    let s' := s.next (.checkLayoutChange spent delay)
    s'.detector = s.detector ∧ s'.changes = s.changes ∨
      s.detector.config.layoutStabilityMs ≤ elapsed s.now s.detector.lastLayoutChangeMs ∧
        s'.changes = s.changes ++ [s.now] ∧ s'.detector =
          { s.detector with currentLayout := s.detector.newLayout (s.stableTime spent delay), lastLayoutChangeMs := s.now } := by
  by_cases hspent : s.now + spent < 2 ^ 64
  · simp only [next, if_pos hspent]
    rcases s.detector.checkLayoutChange_cases s.now (s.stableTime spent delay) with heq | ⟨hstable, heq⟩ <;> rw [heq]
    · exact .inl ⟨rfl, rfl⟩
    · exact .inr ⟨hstable, rfl, rfl⟩
  · rw [next, if_neg hspent]
    exact .inl ⟨rfl, rfl⟩

theorem next_checkLayoutChange_clock (h : s.now < 2 ^ 64) (spent : Nat) (delay : String → Nat) :
    s.now ≤ (s.next (.checkLayoutChange spent delay)).now ∧ (s.next (.checkLayoutChange spent delay)).now < 2 ^ 64 ∧
      (s.next (.checkLayoutChange spent delay)).frames = s.frames := by
  by_cases hspent : s.now + spent < 2 ^ 64
  · rw [next, if_pos hspent]
    exact ⟨Nat.le_add_right _ _, hspent, rfl⟩
  · rw [next, if_neg hspent]
    exact ⟨Nat.le_refl _, h, rfl⟩

theorem Timely.checkLayoutChange (h : s.Timely) (spent : Nat) (delay : String → Nat) :
    (s.next (.checkLayoutChange spent delay)).Timely := by
  obtain ⟨hlater, hclock, hframes⟩ := s.next_checkLayoutChange_clock h.clock spent delay
  have hresult := s.next_checkLayoutChange spent delay
  generalize s.next (.checkLayoutChange spent delay) = s' at *
  have hseen : ∀ userId user, s.detector.users.lookup userId = some user →
      user.firstSeenMs ≤ s'.now ∧ user.lastFrameMs ≤ s'.now := fun userId user huser =>
    ⟨(h.seen userId user huser).1.trans hlater, (h.seen userId user huser).2.trans hlater⟩
  have hcounted : ∀ userId user, s.detector.users.lookup userId = some user → Counted s'.frames userId user :=
    hframes ▸ h.counted
  rcases hresult with ⟨hdetector, hchanges⟩ | ⟨hstable, hchanges, hdetector⟩
  · constructor <;> try rw [hdetector]
    · exact hclock
    · exact h.auto
    · exact h.bounded
    · exact hseen
    · exact hcounted
    · exact h.changed.trans hlater
    · exact hchanges ▸ h.spaced
    · exact hchanges ▸ h.recorded
    · exact h.sorted
  · have hspaced : (s.changes ++ [s.now]).IsChain fun a b => a + s.detector.config.layoutStabilityMs ≤ b := by
      refine isChain_concat.mpr ⟨h.spaced, fun t ht => ?_⟩
      -- 前の変更は、最後に記録したものである
      have hchanged := h.changed
      rw [elapsed_eq_sub hchanged h.clock] at hstable
      rw [h.recorded t ht]
      omega
    constructor <;> try rw [hdetector]
    · exact hclock
    · exact h.auto
    · exact h.bounded
    · exact hseen
    · exact hcounted
    · exact hlater
    · exact hchanges ▸ hspaced
    · simp [hchanges]
    · exact s.detector.pairwise_newLayout _

theorem Timely.next (h : s.Timely) (e : Detection) : (s.next e).Timely := by
  cases e with
  | tick ms =>
      simp only [Detecting.next]
      split_ifs with hclock
      · have hlater : s.now ≤ s.now + ms := Nat.le_add_right _ _
        exact ⟨hclock, h.auto, h.bounded, fun userId user huser => ⟨(h.seen userId user huser).1.trans hlater,
          (h.seen userId user huser).2.trans hlater⟩, h.counted, h.changed.trans hlater, h.spaced, h.recorded, h.sorted⟩
      · exact h
  | onUserFrame userId timestamp =>
      simp only [Detecting.next]
      split_ifs with hskip
      · exact h
      · exact h.onUserFrame userId (Nat.not_lt.mp (not_or.mp hskip).2)
  | updateUserStates spent delay =>
      simp only [Detecting.next]
      split_ifs with hspent
      · exact h.updateUserStates hspent delay
      · exact h
  | checkLayoutChange spent delay => exact h.checkLayoutChange spent delay

theorem config_next (h : s.Timely) (e : Detection) : (s.next e).detector.config = s.detector.config := by
  cases e with
  | tick ms =>
      simp only [Detecting.next]
      split_ifs <;> rfl
  | onUserFrame userId timestamp =>
      simp only [Detecting.next]
      split_ifs
      · rfl
      · rcases LayoutDetector.recordFrame_cases h.auto userId timestamp with heq | ⟨user', heq, -⟩ <;> simp [heq]
  | updateUserStates spent delay =>
      simp only [Detecting.next]
      split_ifs
      · exact (s.detector.updateUserStates_spec s.now (s.stableTime spent delay)).1.config
      · rfl
  | checkLayoutChange spent delay =>
      rcases s.next_checkLayoutChange spent delay with ⟨hdetector, -⟩ | ⟨-, -, hdetector⟩ <;> rw [hdetector]

/-- 配置を変えるのは、配置を調べる周期だけである。 -/
theorem Timely.exact (h : s.Timely) {e : Detection} (hchanged : (s.next e).detector.currentLayout ≠ s.detector.currentLayout) :
    (s.next e).changes = s.changes ++ [s.now] ∧ ∃ spent delay, e = .checkLayoutChange spent delay ∧
      ∀ userId, userId ∈ (s.next e).detector.currentLayout ↔ ∃ user, s.detector.users.lookup userId = some user ∧
        (user.state = .active ∨ user.state = .joining ∧
          LayoutDetector.isUserStable s.detector.config user (s.stableTime spent delay userId) = true) := by
  cases e with
  | tick ms =>
      simp only [Detecting.next] at hchanged
      split_ifs at hchanged <;> exact absurd rfl hchanged
  | onUserFrame userId timestamp =>
      simp only [Detecting.next] at hchanged
      split_ifs at hchanged
      · exact absurd rfl hchanged
      · rcases LayoutDetector.recordFrame_cases h.auto userId timestamp with heq | ⟨user', heq, -⟩ <;>
          simp [heq] at hchanged
  | updateUserStates spent delay =>
      simp only [Detecting.next] at hchanged
      split_ifs at hchanged
      · exact absurd (s.detector.updateUserStates_spec s.now (s.stableTime spent delay)).1.layout hchanged
      · exact absurd rfl hchanged
  | checkLayoutChange spent delay =>
      rcases s.next_checkLayoutChange spent delay with ⟨hdetector, -⟩ | ⟨-, hchanges, hdetector⟩
      · exact absurd (congrArg LayoutDetector.currentLayout hdetector) hchanged
      · refine ⟨hchanges, spent, delay, rfl, fun userId => ?_⟩
        rw [hdetector]
        exact LayoutDetector.mem_newLayout

/-- 参加中の者を活動中にするのは、利用者の状態を更新する周期だけである。 -/
theorem Timely.activated (h : s.Timely) {e : Detection} {userId : String} {user user' : UserInfo}
    (huser : s.detector.users.lookup userId = some user) (hjoining : user.state = .joining)
    (huser' : (s.next e).detector.users.lookup userId = some user') (hactive : user'.state = .active) :
    ∃ earlier t later, s.frames = earlier ++ (userId, t) :: later ∧ 5 ≤ (later.filter (·.1 = userId)).length ∧
      ∃ now, e.Reads s now ∧ t + s.detector.config.layoutStabilityMs / 3 ≤ now := by
  have hsame : s.detector.users.lookup userId ≠ some user' := by
    intro hlookup
    obtain rfl := Option.some.inj (huser.symm.trans hlookup)
    rw [hjoining] at hactive
    cases hactive
  cases e with
  | tick ms =>
      simp only [Detecting.next] at huser'
      split_ifs at huser' <;> exact absurd huser' hsame
  | onUserFrame id timestamp =>
      simp only [Detecting.next] at huser'
      split_ifs at huser'
      · exact absurd huser' hsame
      · rcases LayoutDetector.recordFrame_cases h.auto id timestamp with heq | ⟨framed, heq, hframed⟩ <;>
          rw [heq] at huser'
        · exact absurd huser' hsame
        · rw [lookup_insert_ite] at huser'
          split_ifs at huser' with hid
          · subst hid
            obtain rfl := Option.some.inj huser'
            rw [hframed.joining user huser hjoining] at hactive
            cases hactive
          · exact absurd huser' hsame
  | updateUserStates spent delay =>
      simp only [Detecting.next] at huser'
      split_ifs at huser' with hspent
      · obtain ⟨old, hold, rfl⟩ := (s.detector.updateUserStates_spec s.now (s.stableTime spent delay)).2 userId user' huser'
        obtain rfl := Option.some.inj (huser.symm.trans hold)
        have hstable := LayoutDetector.stable_of_nextState hjoining hactive
        simp only [LayoutDetector.isUserStable, Bool.and_eq_true, decide_eq_true_eq] at hstable
        obtain ⟨⟨hpresence, hcount⟩, -⟩ := hstable
        obtain ⟨earlier, later, hframes, hle⟩ := h.counted userId user huser
        have hreads : (Detection.updateUserStates spent delay).Reads s (s.stableTime spent delay userId) :=
          ⟨hspent, .inr ⟨userId, rfl⟩⟩
        obtain ⟨hfirst, helapsed⟩ := h.wrapFree hreads (.inr ⟨userId, user, huser, .inl rfl⟩)
        rw [helapsed] at hpresence
        exact ⟨earlier, user.firstSeenMs, later, hframes, hcount.trans hle, _, hreads, by omega⟩
      · exact absurd huser' hsame
  | checkLayoutChange spent delay =>
      rcases s.next_checkLayoutChange spent delay with ⟨hdetector, -⟩ | ⟨-, -, hdetector⟩ <;> rw [hdetector] at huser' <;>
        exact absurd huser' hsame

end Detecting

/-! ## 主な結果 -/

theorem Detecting.Timely.lawful {s : Detecting} (h : s.Timely) (e : Detection) : Lawful e s := by
  have hnext := h.next e
  have hconfig := Detecting.config_next h e
  constructor
  · exact hconfig ▸ hnext.bounded
  · exact hconfig ▸ hnext.spaced
  · exact hnext.sorted
  · exact h.exact
  · exact fun _ _ _ => h.activated
  · exact fun _ _ => h.wrapFree

/-- どの順にフレームと周期が来ても、検出の規則が守られる。 -/
theorem detecting_lawful (config : LayoutDetector.Config) (now : UInt64) (events : List Detection) :
    detecting.AllMeet Lawful events (.start config now) := by
  have hall := System.allMeet_of_forall (S := detecting) (g := fun _ _ => True) (fun _ _ => trivial) events
    (Detecting.start config now)
  exact System.AllMeet.imp (S := detecting) (I := Detecting.Timely)
    (fun e _ h _ => ⟨Detecting.Timely.next h e, h.lawful e⟩) (Detecting.timely_start config now) hall

end RtcEgress.Media
