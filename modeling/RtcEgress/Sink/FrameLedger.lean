import RtcEgress.Sink.FrameQueues

/-!
# 待ち行列のフレームの行方

入れたフレームは、エンコーダーに渡されたか、取り出されて渡される前であるか、待ち行列にあるか、一杯で捨てられたか、停止で
捨てられたかの、ちょうど一つである。渡される順は、入れた順である。
-/

namespace RtcEgress.Sink.FrameQueues

open RtcEgress.Lib
open Function (update)

variable {I F : Type} {config : Config I F}

/-! ## 一歩の場合分け -/

/-- 一つの操作による変化。条件の成り立たない操作は、何も変えない。 -/
inductive Move (config : Config I F) (s : State F) : State F → Prop where
  | stay : Move config s s
  | offer {i input frame} : s.producers i = .idle → config.build input = some frame → s.isActive →
      Move config s (s.setProducer i (.entering frame))
  | check {i frame} : s.producers i = .entering frame → s.holder = none → s.isActive → config.record →
      Move config s { s.setProducer i (.checked frame) with holder := some (.producer i) }
  | refuse {i frame} : s.producers i = .entering frame → Move config s (s.setProducer i .idle)
  | push {i frame} : s.producers i = .checked frame →
      Move config s { (s.push config frame).setProducer i .notifying with holder := none }
  | notify {i} : s.producers i = .notifying → Move config s (s.notify.setProducer i .idle)
  | spurious : Move config s s.notify
  | loop : s.consumer = .top → s.stopRequested = false → Move config s { s with consumer := .locking }
  | drain : s.consumer = .top → s.stopRequested → config.track = .audio →
      Move config s { s with consumer := .popping true }
  | quit : s.consumer = .top → s.stopRequested → config.track = .video → Move config s { s with consumer := .ended }
  | proceed : s.consumer = .locking → s.holder = none → s.ready →
      Move config s { s with consumer := State.woken config }
  | doze : s.consumer = .locking → s.holder = none → s.ready = false →
      Move config s { s with consumer := .dozing, holder := some .consumer }
  | sleep : s.consumer = .dozing → Move config s { s with consumer := .asleep, holder := none }
  | timeout : s.consumer = .asleep → s.holder = none → config.track = .audio →
      Move config s { s with consumer := .popping false }
  | enter : s.consumer = .entering → s.stopRequested = false → Move config s { s with consumer := .popping false }
  | leave : s.consumer = .entering → s.stopRequested → Move config s { s with consumer := .top }
  | finishRound {last} : s.consumer = .popping last → s.holder = none → s.queue = [] ∨ s.stopsEarly config →
      Move config s { s with consumer := State.afterRound last }
  | pop {last frame queue} : s.consumer = .popping last → s.holder = none → s.queue = frame :: queue →
      Move config s { s with consumer := .encoding last frame, queue }
  | encode {last frame} : s.consumer = .encoding last frame → config.valid frame →
      Move config s { s with consumer := .popping last, encoded := s.encoded ++ [frame] }
  | discard {last frame} : s.consumer = .encoding last frame → config.valid frame = false ∨ s.stopsEarly config →
      Move config s { s with consumer := .popping last, discarded := s.discarded ++ [frame] }
  | requestStop {j} : s.stops j = .idle → Move config s { s.setStop j .requested with stopRequested := true }
  | wake {j} : s.stops j = .requested → s.holder = none → Move config s (s.notify.setStop j .woken)
  | join {j} : s.stops j = .woken → s.consumer = .ended → Move config s (s.setStop j .joined)
  | clear {j} : s.stops j = .joined → s.holder = none →
      Move config s { s.setStop j .cleared with queue := [], discarded := s.discarded ++ s.queue }
  | finish {j} : s.stops j = .cleared → Move config s { s.setStop j .finished with isRecording := false }

theorem stepProducer_move (s : State F) (i : Nat) : Move config s (s.stepProducer config i) := by
  unfold State.stepProducer
  split
  · exact .stay
  next frame hi =>
    split
    next hholder =>
      split
      next hactive =>
        rw [Bool.and_eq_true] at hactive
        exact .check hi (Option.isNone_iff_eq_none.mp hholder) hactive.1 hactive.2
      · exact .refuse hi
    · exact .stay
  next frame hi => exact .push hi
  next hi => exact .notify hi

theorem stepConsumer_move (s : State F) : Move config s (s.stepConsumer config) := by
  unfold State.stepConsumer
  split
  next hc =>
    split
    next hstop =>
      cases htrack : config.track with
      | audio => exact .drain hc hstop htrack
      | video => exact .quit hc hstop htrack
    next hstop => exact .loop hc (by simpa using hstop)
  next hc =>
    split
    next hholder =>
      have hholder := Option.isNone_iff_eq_none.mp hholder
      split
      next hready => exact .proceed hc hholder hready
      next hready => exact .doze hc hholder (by simpa using hready)
    · exact .stay
  next hc => exact .sleep hc
  · exact .stay
  next hc =>
    split
    next hstop => exact .leave hc hstop
    next hstop => exact .enter hc (by simpa using hstop)
  next last hc =>
    split
    next hholder =>
      have hholder := Option.isNone_iff_eq_none.mp hholder
      split
      next hqueue => exact .finishRound hc hholder (.inl hqueue)
      next frame queue hqueue =>
        split
        next hstops => exact .finishRound hc hholder (.inr hstops)
        · exact .pop hc hholder hqueue
    · exact .stay
  next last frame hc =>
    split
    next hvalid =>
      rw [Bool.and_eq_true] at hvalid
      exact .encode hc hvalid.1
    next hvalid =>
      refine .discard hc ?_
      cases hv : config.valid frame with
      | false => exact .inl rfl
      | true => exact .inr (by simpa [hv] using hvalid)
  · exact .stay

theorem stepStop_move (s : State F) (j : Nat) : Move config s (s.stepStop j) := by
  unfold State.stepStop
  split
  · exact .stay
  · exact .stay
  next hj =>
    split
    next hholder => exact .wake hj (Option.isNone_iff_eq_none.mp hholder)
    · exact .stay
  next hj =>
    split
    next hc => exact .join hj hc
    · exact .stay
  next hj =>
    split
    next hholder => exact .clear hj (Option.isNone_iff_eq_none.mp hholder)
    · exact .stay
  next hj => exact .finish hj

theorem step_move (op : Op I) (s : State F) : Move config s (s.step config op) := by
  cases op with
  | onFrame i input =>
      simp only [State.step]
      split
      next frame hi hframe =>
        split
        next hactive => exact .offer hi hframe hactive
        · exact .stay
      · exact .stay
  | produce i => exact stepProducer_move s i
  | consume => exact stepConsumer_move s
  | spurious => exact .spurious
  | timeout =>
      simp only [State.step]
      split
      next hc =>
        split
        next h => exact .timeout hc h.2 h.1
        · exact .stay
      · exact .stay
  | requestStop j =>
      simp only [State.step]
      split
      next hj => exact .requestStop hj
      · exact .stay
  | stop j => exact stepStop_move s j

/-- 各変化が保つ性質は、到達できるすべての状態で成り立つ。 -/
theorem reach_invariant {P : State F → Prop} {g : (queues config).Condition} {s s' : State F}
    (hreach : (queues config).Reach g s s') (hs : P s) (h : ∀ s s', P s → Move config s s' → P s') : P s' :=
  hreach.invariant hs fun op s hP _ => h s _ hP (step_move op s)

/-! ## 帳簿 -/

/-- 取り出したが、まだ渡していないフレーム。 -/
def Consumer.inFlight : Consumer F → List F
  | .encoding _ frame => [frame]
  | _ => []

/-- フレームの行方。 -/
structure Ledger (s : State F) : Prop where
  /-- 渡したフレーム、渡すフレーム、待つフレームは、入れた順に並ぶ。 -/
  ordered : (s.encoded ++ s.consumer.inFlight ++ s.queue).Sublist s.accepted
  /-- 入れたフレームは、どこかにちょうど一度ある。 -/
  kept : s.accepted.Perm (s.encoded ++ s.consumer.inFlight ++ s.queue ++ s.overflowed ++ s.discarded)

@[simp] theorem inFlight_woken : (State.woken config).inFlight = ([] : List F) := by
  cases h : config.track <;> simp [State.woken, h, Consumer.inFlight]

@[simp] theorem inFlight_afterRound (last : Bool) : (State.afterRound last : Consumer F).inFlight = [] := by
  cases last <;> rfl

/-- 眠るスレッドを起こすことは、処理のスレッドの段階だけを変える。 -/
theorem notify_cases (s : State F) : s.consumer = .asleep ∧ s.notify = { s with consumer := .locking } ∨
    s.consumer ≠ .asleep ∧ s.notify = s := by
  unfold State.notify
  split
  next h => exact .inl ⟨h, rfl⟩
  next h => exact .inr ⟨h, rfl⟩

/-- 帳簿に関わる欄が等しい。 -/
structure SameLedger (s s' : State F) : Prop where
  queue : s'.queue = s.queue
  inFlight : s'.consumer.inFlight = s.consumer.inFlight
  accepted : s'.accepted = s.accepted
  encoded : s'.encoded = s.encoded
  overflowed : s'.overflowed = s.overflowed
  discarded : s'.discarded = s.discarded

theorem SameLedger.ledger {s s' : State F} (h : SameLedger s s') (hs : Ledger s) : Ledger s' := by
  constructor
  · rw [h.encoded, h.inFlight, h.queue, h.accepted]
    exact hs.ordered
  · rw [h.encoded, h.inFlight, h.queue, h.accepted, h.overflowed, h.discarded]
    exact hs.kept

theorem SameLedger.notify (s : State F) : SameLedger s s.notify := by
  rcases notify_cases s with ⟨hc, h⟩ | ⟨_, h⟩
  · rw [h]
    exact ⟨rfl, by rw [hc]; rfl, rfl, rfl, rfl, rfl⟩
  · rw [h]
    exact ⟨rfl, rfl, rfl, rfl, rfl, rfl⟩

/-- フレームを入れる、取り出す、渡す、捨てる、空にするの他に、帳簿を変える変化はない。 -/
inductive LedgerMove (config : Config I F) (s : State F) : State F → Prop where
  | same {s'} : SameLedger s s' → LedgerMove config s s'
  | push {frame s'} : SameLedger (s.push config frame) s' → LedgerMove config s s'
  | pop {last frame queue} : s.consumer = .popping last → s.queue = frame :: queue →
      LedgerMove config s { s with consumer := .encoding last frame, queue }
  | encode {last frame} : s.consumer = .encoding last frame →
      LedgerMove config s { s with consumer := .popping last, encoded := s.encoded ++ [frame] }
  | discard {last frame} : s.consumer = .encoding last frame →
      config.valid frame = false ∨ s.stopsEarly config →
      LedgerMove config s { s with consumer := .popping last, discarded := s.discarded ++ [frame] }
  | clear {j} : s.stops j = .joined →
      LedgerMove config s { s.setStop j .cleared with queue := [], discarded := s.discarded ++ s.queue }

theorem Move.ledgerMove {s s' : State F} (h : Move config s s') : LedgerMove config s s' := by
  cases h with
  | stay | offer | check | refuse | requestStop | join | finish => exact .same ⟨rfl, rfl, rfl, rfl, rfl, rfl⟩
  | push => exact .push ⟨rfl, rfl, rfl, rfl, rfl, rfl⟩
  | notify | wake =>
      have h := SameLedger.notify s
      exact .same ⟨h.queue, h.inFlight, h.accepted, h.encoded, h.overflowed, h.discarded⟩
  | spurious => exact .same (.notify s)
  | loop hc | drain hc | quit hc | doze hc | sleep hc | timeout hc | enter hc | leave hc =>
      exact .same ⟨rfl, by rw [hc]; rfl, rfl, rfl, rfl, rfl⟩
  | proceed hc => exact .same ⟨rfl, by rw [hc]; exact inFlight_woken, rfl, rfl, rfl, rfl⟩
  | finishRound hc => exact .same ⟨rfl, by rw [hc]; exact inFlight_afterRound _, rfl, rfl, rfl, rfl⟩
  | pop hc _ hqueue => exact .pop hc hqueue
  | encode hc => exact .encode hc
  | discard hc hvalid => exact .discard hc hvalid
  | clear hj => exact .clear hj

/-- 二つの並べ替えは、要素ごとの数で比べる。 -/
theorem perm_of_count {α : Type} {l l' m m' : List α} (h : l.Perm m)
    (hcount : ∀ [DecidableEq α] (a : α), l.count a = m.count a → l'.count a = m'.count a) : l'.Perm m' := by
  classical
  rw [List.perm_iff_count]
  exact fun a => hcount a (h.count_eq a)

namespace Ledger

variable {s : State F} {last : Bool} {frame : F} {queue : List F}

theorem push (h : Ledger s) (frame : F) : Ledger (s.push config frame) where
  ordered := by
    have hqueue := trim_append config.bufferSize s.queue
    have hsub : (s.encoded ++ s.consumer.inFlight ++ (trim config.bufferSize s.queue).2).Sublist s.accepted := by
      refine (List.Sublist.append_left ?_ _).trans h.ordered
      conv_rhs => rw [← hqueue]
      exact List.sublist_append_right ..
    simpa [State.push, List.append_assoc] using hsub.append_right [frame]
  kept := by
    have hqueue := trim_append config.bufferSize s.queue
    refine perm_of_count h.kept ?_
    intro _ a hcount
    rw [← hqueue] at hcount
    simp only [State.push, List.count_append] at hcount ⊢
    omega

theorem pop (h : Ledger s) (hc : s.consumer = .popping last) (hqueue : s.queue = frame :: queue) :
    Ledger { s with consumer := .encoding last frame, queue } where
  ordered := by
    have := h.ordered
    simpa [hc, hqueue, Consumer.inFlight] using this
  kept := by
    have := h.kept
    simpa [hc, hqueue, Consumer.inFlight] using this

theorem encode (h : Ledger s) (hc : s.consumer = .encoding last frame) :
    Ledger { s with consumer := .popping last, encoded := s.encoded ++ [frame] } where
  ordered := by
    have := h.ordered
    simpa [hc, Consumer.inFlight] using this
  kept := by
    have := h.kept
    simpa [hc, Consumer.inFlight] using this

theorem discard (h : Ledger s) (hc : s.consumer = .encoding last frame) :
    Ledger { s with consumer := .popping last, discarded := s.discarded ++ [frame] } where
  ordered := by
    have hordered := h.ordered
    rw [hc] at hordered
    refine List.Sublist.trans ?_ hordered
    exact ((List.nil_sublist [frame]).append_left s.encoded).append_right s.queue
  kept := by
    refine perm_of_count h.kept ?_
    intro _ a hcount
    simp only [hc, Consumer.inFlight, List.count_append, List.count_nil] at hcount ⊢
    omega

theorem clear {j : Nat} (h : Ledger s) :
    Ledger { s.setStop j .cleared with queue := [], discarded := s.discarded ++ s.queue } where
  ordered := by
    refine List.Sublist.trans ?_ h.ordered
    exact List.Sublist.append_left (List.nil_sublist _) _
  kept := by
    refine perm_of_count h.kept ?_
    intro _ a hcount
    simp only [State.setStop, List.count_append, List.count_nil] at hcount ⊢
    omega

theorem move {s' : State F} (h : Ledger s) (hmove : Move config s s') : Ledger s' := by
  cases hmove.ledgerMove with
  | same hsame => exact hsame.ledger h
  | push hsame => exact hsame.ledger (h.push _)
  | pop hc hqueue => exact h.pop hc hqueue
  | encode hc => exact h.encode hc
  | discard hc => exact h.discard hc
  | clear => exact h.clear

theorem started (config : Config I F) : Ledger (State.started config) := by
  cases hrecord : config.record <;>
    exact ⟨by simp [State.started, hrecord, Consumer.inFlight], by simp [State.started, hrecord, Consumer.inFlight]⟩

end Ledger

theorem Move.length_le {s s' : State F} (hpos : 0 < config.bufferSize) (h : s.queue.length ≤ config.bufferSize)
    (hmove : Move config s s') : s'.queue.length ≤ config.bufferSize := by
  cases hmove.ledgerMove with
  | same hsame => rwa [hsame.queue]
  | push hsame =>
      rw [hsame.queue, State.push, List.length_append]
      exact length_trim hpos s.queue
  | pop _ hqueue =>
      rw [hqueue, List.length_cons] at h
      exact Nat.le_of_succ_le h
  | encode => exact h
  | discard => exact h
  | clear => exact Nat.zero_le _

/-- どの順に動いても、待ち行列は上限を超えず、帳簿は合う。 -/
theorem queue_accounted (hpos : 0 < config.bufferSize) {s : State F}
    (hreach : (queues config).Reach (fun _ _ => True) (State.started config) s) :
    s.queue.length ≤ config.bufferSize ∧ Ledger s :=
  reach_invariant (P := fun s => s.queue.length ≤ config.bufferSize ∧ Ledger s) hreach
    ⟨Nat.zero_le _, .started config⟩ fun _ _ h hmove => ⟨hmove.length_le hpos h.1, h.2.move hmove⟩

/-- 一つの音声のフレーム。 -/
def oneSample : AudioSource := ⟨some [0, 0, 0, 0], 1, 48000, 2, 0, "user_1"⟩

/-- 大きさ 1 の待ち行列に、二つのフレームを入れる。 -/
theorem queue_accounted_full :
    let config := audio true 1 []
    let s := (queues config).run
      [.onFrame 0 oneSample, .produce 0, .produce 0, .onFrame 1 oneSample, .produce 1, .produce 1] (State.started config)
    s.overflowed.length = 1 ∧ s.queue.length ≤ 1 ∧ Ledger s :=
  ⟨rfl, queue_accounted (by decide) (System.reach_run (System.allMeet_of_forall (fun _ _ => trivial) _ _))⟩

end RtcEgress.Sink.FrameQueues
