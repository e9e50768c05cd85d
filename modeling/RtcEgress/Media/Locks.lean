import RtcEgress.Lib.Lock
import RtcEgress.Media.SnapshotSink

/-!
# 静止画の合成でのロックの待ち合わせ

`onVideoFrame` は `frameMutex_` を持ったまま合成に入り、合成したフレームを受け取る `onComposedFrame` は、再び
`frameMutex_` を取る。配置を調べるスレッドは、他の二つのロックを持って、同じ関数に反対の側から入る。
-/

namespace RtcEgress.Media

open RtcEgress.Lib

def locking : Locking Cmd Mutex where
  acquires
    | .lock m => some m
    | _ => none
  releases
    | .unlock m => some m
    | _ => none

/-- どの順に進めてもよい。 -/
def anyOrder (config : SnapshotSink.Config) : Guard (machine config) := .ofCalls fun _ => True

/-- 合成の静止画では、どのスレッドも自分の持つロックを取ろうとせず、互いに待つ輪もない。 -/
def NeverLocksUp (g : ∀ config, Guard (machine config)) : Prop :=
  ∀ config : SnapshotSink.Config, config.mode = .composite → ∀ steadyMs systemMs p,
    Run (g config) (.start (.init config steadyMs systemMs)) p → locking.Free p

/-! ## 成り立たない実行 -/

def compositeConfig : SnapshotSink.Config := { mode := .composite }

def frameFrom (userId : String) : YuvFrame where
  yStride := 640
  uStride := 320
  vStride := 320
  width := 640
  height := 480
  timestamp := 1
  userId := userId

/-- 最初の利用者の最初のフレーム。合成したフレームを渡すところまで進む。 -/
def firstFrame : List (Move (machine compositeConfig)) :=
  .env (.tick 20 20000) :: .spawn (.onVideoFrame (frameFrom "u")) :: List.replicate 28 (.run 0 true)

/-- スレッド `i` の次の命令が取るロック。 -/
def nextLock {config : SnapshotSink.Config} (p : Pool (machine config)) (i : Nat) : Option Mutex :=
  match p.threads[i]? with
  | some (.call c _) => locking.acquires c
  | _ => none

theorem requests_of_nextLock {config : SnapshotSink.Config} {p : Pool (machine config)} {i : Nat} {m : Mutex}
    (h : nextLock p i = some m) : locking.Requests p i m := by
  unfold nextLock at h
  split at h
  · rename_i c k ht
    exact ⟨c, k, ht, h⟩
  · cases h

theorem not_neverLocksUp : ¬NeverLocksUp anyOrder := by
  intro h
  have hlast : (Pool.play firstFrame (.start (.init compositeConfig 0 0))).map
      (fun p => (nextLock p 0, locking.owner .frameMutex p.trace)) = some (some .frameMutex, some 0) := by decide
  obtain ⟨p, hp, heq⟩ := Option.map_eq_some_iff.mp hlast
  obtain ⟨hnext, howner⟩ := Prod.mk.inj heq
  have hrun : Run (anyOrder compositeConfig) (.start (.init compositeConfig 0 0)) p :=
    Pool.play_sound (Pool.allMeet_ofCalls fun _ _ => trivial) hp
  exact (h compositeConfig rfl 0 0 p hrun).self 0 .frameMutex (requests_of_nextLock hnext) howner

/-! ## 自分の命令の列から分かること -/

/-- 持っているロックと、二つの区間の中にいるか。 -/
structure Status where
  held : List Mutex
  /-- `frameMutex_` を持って `onUserFrame` に入り、まだ `frameBufferMutex_` を取っていない。 -/
  adding : Bool
  /-- `frameBufferMutex_` を持って `onComposedFrame` の `isCapturing_` を確かめ、まだ `frameMutex_` を取っていない。 -/
  composing : Bool

def Status.init : Status := ⟨[], false, false⟩

def Status.next (c : Cmd) (r : c.Resp) (s : Status) : Status where
  held := locking.heldAfter c s.held
  adding := match c with
    | .running => s.adding || .frameMutex ∈ s.held
    | .lock .frameBufferMutex | .unlock .frameMutex => false
    | _ => s.adding
  composing := match c, r with
    | .isCapturing, true => s.composing || .frameBufferMutex ∈ s.held
    | .lock .frameMutex, _ | .unlock .frameBufferMutex, _ => false
    | _, _ => s.composing

abbrev status (h : List (Act Cmd Cmd.Resp)) : Status := Prog.summary .init Status.next h

theorem status_held : (h : List (Act Cmd Cmd.Resp)) → (status h).held = locking.held h
  | [] => rfl
  | ⟨c, r⟩ :: h => by
      change locking.heldAfter c (status h).held = locking.heldAfter c (locking.held h)
      rw [status_held h]

/-- ロックを取るときの様子。 -/
def Ok : Cmd → Status → Prop
  | .lock .frameMutex, s => s.held = [] ∨ s.composing = true
  | .lock .detectorMutex, s => s.held = [] ∨ s.adding = true ∧ s.held = [.frameMutex]
  | .lock .frameBufferMutex, s => s.held = [.detectorMutex] ∨ s.adding = true ∧ s.held = [.frameMutex]
  | _, _ => True

/-! ## 各プログラムの様子 -/

/-- `held` を持って始め、持ったまま終わる。 -/
abbrev Keeps {α : Type} (held : List Mutex) (p : P α) : Prop :=
  p.Tracks Ok Status.next (fun _ s => s = ⟨held, false, false⟩) ⟨held, false, false⟩

/-- 呼び出しの前後で様子の変わらないプログラムの続き。 -/
theorem Keeps.andThen {α β : Type} {held : List Mutex} {p : P α} {f : α → P β} {Q : β → Status → Prop}
    (hp : Keeps held p) (hf : ∀ a, (f a).Tracks Ok Status.next Q ⟨held, false, false⟩) :
    (p >>= f).Tracks Ok Status.next Q ⟨held, false, false⟩ := by
  refine hp.bind ?_
  rintro a _ rfl
  exact hf a

variable {config : SnapshotSink.Config}

section Programs

attribute [local simp] Ok Status.next locking Locking.heldAfter Prog.perform

variable {held : List Mutex}

theorem keeps_onComposedFrame {pts : Nat} (h : .frameBufferMutex ∈ held) : Keeps held (onComposedFrame config pts) := by
  simp [onComposedFrame, h]

theorem keeps_createCompositeFrame {users : List String} (h : .frameBufferMutex ∈ held) :
    Keeps held (createCompositeFrameWithoutLock config users) := by
  simp [createCompositeFrameWithoutLock, (keeps_onComposedFrame h).andThen]

/-- 区間 `adding` に入る。 -/
theorem tracks_onUserFrame {userId : String} {timestamp : Nat} :
    (onUserFrame userId timestamp).Tracks Ok Status.next (fun _ s => s = ⟨[.frameMutex], true, false⟩)
      ⟨[.frameMutex], false, false⟩ := by
  simp [onUserFrame]

theorem keeps_addUserFrame {userId : String} {timestamp : Nat} :
    Keeps [.frameMutex] (addUserFrame config userId timestamp) := by
  have hcreate {users} : Keeps [.frameBufferMutex, .frameMutex] (createCompositeFrameWithoutLock config users) :=
    keeps_createCompositeFrame (by simp)
  simp [addUserFrame]
  intro currentTime
  refine tracks_onUserFrame.bind ?_
  rintro users _ rfl
  simp [hcreate.andThen]

theorem keeps_onVideoFrame {f : YuvFrame} : Keeps [] (onVideoFrame config f) := by
  cases hmode : config.mode with
  | composite => simp [onVideoFrame, hmode, keeps_addUserFrame.andThen]
  | individual => simp [onVideoFrame, hmode]

theorem keeps_onLayoutChange {users : List String} : Keeps [.detectorMutex] (onLayoutChange config users) := by
  have hcreate : Keeps [.frameBufferMutex, .detectorMutex] (createCompositeFrameWithoutLock config users) :=
    keeps_createCompositeFrame (by simp)
  simp [onLayoutChange, hcreate.andThen]

theorem keeps_updateUserStates : Keeps [] updateUserStates := by
  have hloop {currentTime : Nat} {ids : List String} : Keeps [.detectorMutex] (Prog.forEach (fun userId => do
      let stableTime : Nat ← perform .steadyNow
      perform (.updateUser userId currentTime stableTime)) ids) := by
    refine Prog.Tracks.forEach (P := fun s : Status => s = ⟨[.detectorMutex], false, false⟩) ?_ rfl
    rintro userId _ rfl
    simp
  simp [updateUserStates]
  intro currentTime ids
  refine hloop.andThen ?_
  simp

theorem keeps_collectLayout : (ids : List String) → Keeps [.detectorMutex] (collectLayout ids)
  | [] => by simp [collectLayout]
  | userId :: ids => by simp [collectLayout, (keeps_collectLayout ids).andThen]

theorem keeps_checkLayoutChange : Keeps [] (checkLayoutChange config) := by
  simp [checkLayoutChange, (keeps_collectLayout _).andThen, keeps_onLayoutChange.andThen]

theorem keeps_detectionThread : {n : Nat} → Keeps [] (detectionThread config n)
  | 0 => by simp [detectionThread]
  | n + 1 => by
      simp [detectionThread, keeps_updateUserStates.andThen, keeps_checkLayoutChange.andThen, keeps_detectionThread]

/-- 待つスレッドは、ロックを持って戻るか、放して終わる。 -/
theorem tracks_waitFrame : {n : Nat} → (waitFrame n).Tracks Ok Status.next
    (fun ready s => s = ⟨if ready then [.frameMutex] else [], false, false⟩) ⟨[.frameMutex], false, false⟩
  | 0 => by simp [waitFrame]
  | n + 1 => by simp [waitFrame, tracks_waitFrame]

theorem keeps_captureThread {wakeups : Nat} : {n : Nat} → Keeps [] (captureThread wakeups n)
  | 0 => by simp [captureThread]
  | n + 1 => by
      simp [captureThread]
      refine tracks_waitFrame.bind ?_
      rintro ready _ rfl
      cases ready with
      | false => simp
      | true =>
          simp
          intro frame
          cases frame with
          | none => simp [keeps_captureThread]
          | some frame => simp [keeps_captureThread]

end Programs

theorem bodies {g : Guard (machine config)} : Bodies g fun c h => Ok c (status h) := by
  intro k _
  have hbody : Keeps [] (k.body config) := by
    cases k with
    | onVideoFrame f => exact keeps_onVideoFrame
    | detectionThread n => exact keeps_detectionThread
    | captureThread wakeups n => exact keeps_captureThread
  exact (Prog.Tracks.follows (h := []) hbody).mono (fun _ _ h => h) fun _ _ _ => trivial

/-! ## 成り立つ条件 -/

/-- `frameMutex_` を持つスレッドは、合成したフレームを受け取らない。また、受け取って `frameMutex_` を待つスレッドと、
`frameMutex_` を持って他のロックを待つスレッドが、同時にはいない。 -/
def noReentry (config : SnapshotSink.Config) : Guard (machine config) where
  call := fun _ => True
  cmd := fun i c s tr => match c with
    | .isCapturing => s.isCapturing = true → .frameBufferMutex ∈ (status (own i tr)).held →
        .frameMutex ∉ (status (own i tr)).held ∧ ∀ j, (status (own j tr)).adding = false
    | .running => .frameMutex ∈ (status (own i tr)).held → ∀ j, (status (own j tr)).composing = false
    | _ => True

/-- 受け取るスレッドは `frameMutex_` を持たず、そのとき `adding` の区間のスレッドはいない。 -/
def Separate (tr : List (Event (machine config))) : Prop :=
  ∀ i, (status (own i tr)).composing = true →
    .frameMutex ∉ (status (own i tr)).held ∧ ∀ j, (status (own j tr)).adding = false

section Next

variable {ok : Bool} {c : Cmd} {r : c.Resp} {w w' : State} {s : Status}

/-- 区間 `composing` に入る命令。 -/
theorem Status.composing_next (he : c.exec ok w = some (r, w')) (h : (s.next c r).composing = true) :
    s.composing = true ∧ c ≠ .lock .frameMutex ∨
      c = .isCapturing ∧ w.isCapturing = true ∧ .frameBufferMutex ∈ s.held := by
  cases c
  case isCapturing =>
      simp only [Cmd.exec, Option.some.injEq, Prod.mk.injEq] at he
      rw [← he.1] at h
      cases hw : w.isCapturing <;> simp_all [Status.next]
  case lock m => cases m <;> simp_all [Status.next]
  case unlock m => cases m <;> simp_all [Status.next]
  all_goals exact .inl ⟨h, by simp⟩

/-- 区間 `adding` に入る命令。 -/
theorem Status.adding_next (h : (s.next c r).adding = true) :
    s.adding = true ∨ c = .running ∧ .frameMutex ∈ s.held := by
  cases c
  case running => simpa [Status.next] using h
  case lock m => cases m <;> simp_all [Status.next]
  case unlock m => cases m <;> simp_all [Status.next]
  all_goals exact .inl h

theorem Status.not_mem_held_next (h : .frameMutex ∉ s.held) (hc : c ≠ .lock .frameMutex) :
    .frameMutex ∉ (s.next c r).held := by
  cases c
  case lock m => cases m <;> simp_all [Status.next, locking, Locking.heldAfter]
  case unlock m => exact fun hmem => h (List.mem_of_mem_erase hmem)
  all_goals exact h

end Next

theorem status_own_self {i c r s} {tr : List (Event (machine config))} :
    status (own i (⟨i, c, r, s⟩ :: tr)) = (status (own i tr)).next c r := by
  rw [own_cons_self]
  rfl

theorem separate_inductive : Inductive (noReentry config) (fun c h => Ok c (status h)) fun _ tr => Separate tr := by
  refine ⟨fun {i c o s tr r s'} hsep hg _ he k hk => ?_, fun h _ => h⟩
  -- どのスレッドも、`adding` の区間に新しく入るのは、受け取るスレッドのいないときに限る
  have hadding : (∀ j, (status (own j tr)).adding = false) → .frameMutex ∉ (status (own i tr)).held →
      ∀ j, (status (own j (⟨i, c, r, s⟩ :: tr))).adding = false := by
    intro hno hmem j
    by_cases hj : j = i
    · subst hj
      rw [status_own_self, Bool.eq_false_iff]
      intro hadd
      rcases Status.adding_next hadd with h | ⟨-, h⟩
      · rw [hno j] at h
        cases h
      · exact hmem h
    · rw [own_cons_ne hj]
      exact hno j
  by_cases hki : k = i
  · subst hki
    rw [status_own_self] at hk ⊢
    rcases Status.composing_next he hk with ⟨hold, hc⟩ | ⟨rfl, hcap, hbuf⟩
    · obtain ⟨hmem, hno⟩ := hsep k hold
      exact ⟨Status.not_mem_held_next hmem hc, hadding hno hmem⟩
    · obtain ⟨hmem, hno⟩ := hg hcap hbuf
      exact ⟨Status.not_mem_held_next hmem (by simp), hadding hno hmem⟩
  · rw [own_cons_ne hki] at hk ⊢
    obtain ⟨hmem, hno⟩ := hsep k hk
    refine ⟨hmem, fun j => ?_⟩
    by_cases hj : j = i
    · subst hj
      rw [status_own_self, Bool.eq_false_iff]
      intro hadd
      rcases Status.adding_next hadd with h | ⟨rfl, h⟩
      · rw [hno j] at h
        cases h
      · rw [hg h k] at hk
        cases hk
    · rw [own_cons_ne hj]
      exact hno j

/-- 受け取るスレッドがいるときの順位と、いないときの順位。 -/
def composingRank : Mutex → Nat
  | .detectorMutex => 0
  | .frameBufferMutex => 1
  | .frameMutex => 2

def addingRank : Mutex → Nat
  | .frameMutex => 0
  | .detectorMutex => 1
  | .frameBufferMutex => 2

theorem ok_of_requests {p : Pool (machine config)} (hp : p.Follows fun c h => Ok c (status h)) {i : Nat} {m : Mutex}
    (h : locking.Requests p i m) : Ok (.lock m) (status (own i p.trace)) := by
  obtain ⟨c, k, ht, hc⟩ := h
  have hok := (hp.thread i _ ht).1
  cases c <;> simp_all [locking]

section Rank

variable {p : Pool (machine config)} (hp : p.Follows fun c h => Ok c (status h))
include hp

theorem ascending_composing (hsep : Separate p.trace) {k : Nat} (hk : (status (own k p.trace)).composing = true) :
    locking.Ascending composingRank p := by
  intro i m hreq l hl
  have hok := ok_of_requests hp hreq
  rw [← status_held] at hl
  obtain ⟨-, hno⟩ := hsep k hk
  cases m with
  | frameMutex =>
      rcases hok with hempty | hi
      · simp [hempty] at hl
      · have hmem := (hsep i hi).1
        cases l with
        | frameMutex => exact absurd hl hmem
        | frameBufferMutex | detectorMutex => decide
  | detectorMutex =>
      rcases hok with hempty | ⟨hadd, -⟩
      · simp [hempty] at hl
      · rw [hno i] at hadd
        cases hadd
  | frameBufferMutex =>
      rcases hok with hheld | ⟨hadd, -⟩
      · rw [hheld, List.mem_singleton] at hl
        subst hl
        decide
      · rw [hno i] at hadd
        cases hadd

theorem ascending_adding (hno : ∀ i, (status (own i p.trace)).composing = false) :
    locking.Ascending addingRank p := by
  intro i m hreq l hl
  have hok := ok_of_requests hp hreq
  rw [← status_held] at hl
  cases m with
  | frameMutex =>
      rcases hok with hempty | hi
      · simp [hempty] at hl
      · rw [hno i] at hi
        cases hi
  | detectorMutex =>
      rcases hok with hempty | ⟨-, hheld⟩
      · simp [hempty] at hl
      · rw [hheld, List.mem_singleton] at hl
        subst hl
        decide
  | frameBufferMutex =>
      rcases hok with hheld | ⟨-, hheld⟩
      · rw [hheld, List.mem_singleton] at hl
        subst hl
        decide
      · rw [hheld, List.mem_singleton] at hl
        subst hl
        decide

end Rank

theorem neverLocksUp_of_noReentry {config : SnapshotSink.Config} (_ : config.mode = .composite) {steadyMs systemMs : Nat}
    {p : Pool (machine config)} (hrun : Run (noReentry config) (.start (.init config steadyMs systemMs)) p) :
    locking.Free p := by
  have hstart : Separate (Pool.start (State.init config steadyMs systemMs) : Pool (machine config)).trace := by
    intro i hi
    cases hi
  obtain ⟨hp, hsep⟩ := separate_inductive.run bodies (Pool.follows_start _) hstart hrun
  by_cases hcomposing : ∃ i, (status (own i p.trace)).composing = true
  · obtain ⟨k, hk⟩ := hcomposing
    exact (ascending_composing hp hsep hk).free
  · refine (ascending_adding hp fun i => ?_).free
    rw [Bool.eq_false_iff]
    exact fun hi => hcomposing ⟨i, hi⟩

instance {k} : Decidable ((noReentry compositeConfig).call k) := .isTrue trivial

instance {i c s tr} : Decidable ((noReentry compositeConfig).cmd i c s tr) := by
  cases c
  case isCapturing =>
      exact decidable_of_iff (s.isCapturing = true → .frameBufferMutex ∈ (status (own i tr)).held →
          .frameMutex ∉ (status (own i tr)).held ∧ (status []).adding = false ∧ ∀ e ∈ tr, (status (own e.tid tr)).adding = false)
        (by simp only [noReentry, forall_own (P := fun h => (status h).adding = false)])
  case running =>
      exact decidable_of_iff (.frameMutex ∈ (status (own i tr)).held →
          (status []).composing = false ∧ ∀ e ∈ tr, (status (own e.tid tr)).composing = false)
        (by simp only [noReentry, forall_own (P := fun h => (status h).composing = false)])
  all_goals exact .isTrue trivial

/-- 最初のフレームを数える間、配置を調べるスレッドが `LayoutDetector` のロックを待つ。 -/
def earlyFrame : List (Move (machine compositeConfig)) :=
  .env (.tick 1 20000) :: .spawn (.onVideoFrame (frameFrom "u")) :: List.replicate 11 (.run 0 true) ++
    .spawn (.detectionThread 1) :: List.replicate 2 (.run 1 true)

theorem earlyFrame_free : ∃ p, Run (noReentry compositeConfig) (.start (.init compositeConfig 0 0)) p ∧
    nextLock p 1 = some .detectorMutex ∧ locking.owner .detectorMutex p.trace = some 0 ∧ locking.Free p := by
  have hlast : (Pool.play earlyFrame (.start (.init compositeConfig 0 0))).map
      (fun p => (nextLock p 1, locking.owner .detectorMutex p.trace)) = some (some .detectorMutex, some 0) := by decide
  obtain ⟨p, hp, heq⟩ := Option.map_eq_some_iff.mp hlast
  obtain ⟨hnext, howner⟩ := Prod.mk.inj heq
  have hrun : Run (noReentry compositeConfig) (.start (.init compositeConfig 0 0)) p := Pool.play_sound (by decide) hp
  exact ⟨p, hrun, hnext, howner, neverLocksUp_of_noReentry rfl hrun⟩

end RtcEgress.Media
