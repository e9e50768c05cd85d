import RtcEgress.Sink.FrameLedger

/-!
# 待ち行列のスレッドの不変条件

ミューテックスを持つスレッドの段階と、停止の旗と、待ち行列との関係を定める。ロックを放して眠る前に調べた条件は、眠るまで
変わらない。停止の旗だけは、ロックの外で立つ。
-/

namespace RtcEgress.Sink.FrameQueues

open RtcEgress.Lib
open Function (update)

variable {I F : Type} {config : Config I F} {s s' : State F}

/-! ## 不変条件 -/

/-- `stopRequested_` を見た後の段階。 -/
def Consumer.isLast : Consumer F → Bool
  | .popping last | .encoding last _ => last
  | _ => false

/-- `wakeProcessingThreads` を終えている。 -/
def Stop.past : Stop → Bool
  | .idle | .requested => false
  | _ => true

/-- 処理のスレッドを `join` した。 -/
def Stop.hasJoined : Stop → Bool
  | .joined | .cleared | .finished => true
  | _ => false

/-- ミューテックスを持つスレッドの段階と、旗の関係。 -/
structure Inv (config : Config I F) (s : State F) : Prop where
  producer : ∀ i, s.holder = some (.producer i) ↔ ∃ frame, s.producers i = .checked frame
  consumer : s.holder = some .consumer ↔ s.consumer = .dozing
  requested : ∀ j, s.stops j ≠ .idle → s.stopRequested
  requestedBy : s.stopRequested → ∃ j, s.stops j ≠ .idle
  last : s.consumer.isLast → s.stopRequested
  /-- 録らないトラックでは、誰も待ち行列に触れない。 -/
  unrecorded : config.record = false → s.queue = [] ∧ ∀ i, s.holder ≠ some (.producer i)
  ended : s.consumer = .ended → config.record → s.stopRequested
  /-- 終わった音声のスレッドの後には、フレームが残らず、入りもしない。 -/
  drained : config.track = .audio → s.consumer = .ended → s.queue = [] ∧ ∀ i, s.holder ≠ some (.producer i)
  dozing : s.consumer = .dozing → s.queue = []
  joined : ∀ j, (s.stops j).hasJoined → s.consumer = .ended
  /-- 起こされた後には、眠らない。 -/
  awake : ∀ j, (s.stops j).past → s.consumer ≠ .asleep ∧ s.consumer ≠ .dozing
  /-- 眠る間に入ったフレームの知らせは、これから届く。 -/
  notified : s.consumer = .asleep → s.queue ≠ [] → ∃ i, s.producers i = .notifying

section producers
variable {i j : Nat} {p : Producer F}

theorem checked_update (hold : ∀ frame, s.producers i ≠ .checked frame) (hnew : ∀ frame, p ≠ .checked frame) :
    (∃ frame, update s.producers i p j = .checked frame) ↔ ∃ frame, s.producers j = .checked frame := by
  by_cases hj : j = i
  · subst hj
    rw [Function.update_self]
    constructor
    · rintro ⟨frame, h⟩
      exact absurd h (hnew frame)
    · rintro ⟨frame, h⟩
      exact absurd h (hold frame)
  · rw [Function.update_of_ne hj]

theorem notifying_update (hold : s.producers i ≠ .notifying) (h : ∃ j, s.producers j = .notifying) :
    ∃ j, update s.producers i p j = .notifying := by
  obtain ⟨j, hj⟩ := h
  have hne : j ≠ i := by
    rintro rfl
    exact hold hj
  exact ⟨j, by rw [Function.update_of_ne hne, hj]⟩

end producers

/-- 渡すスレッドが、ミューテックスを持たずに進む。 -/
theorem Inv.setProducer {i : Nat} {p : Producer F} (h : Inv config s) (hold : ∀ frame, s.producers i ≠ .checked frame)
    (hnotifying : s.producers i ≠ .notifying) (hnew : ∀ frame, p ≠ .checked frame) : Inv config (s.setProducer i p) :=
  { h with
    producer := fun j => (h.producer j).trans (checked_update hold hnew).symm
    notified := fun hc hqueue => notifying_update hnotifying (h.notified hc hqueue) }

/-- 処理のスレッドが、眠らずに進む。フレームを入れる変化はない。 -/
theorem Inv.setConsumer {c : Consumer F} {queue encoded discarded : List F} (h : Inv config s)
    (hold : s.consumer ≠ .dozing) (hrunning : s.consumer ≠ .ended) (hdozing : c ≠ .dozing) (hasleep : c ≠ .asleep)
    (hlast : c.isLast → s.stopRequested) (hqueue : s.queue = [] → queue = [])
    (hended : c = .ended → s.stopRequested ∧ (config.track = .audio → queue = [] ∧ ∀ i, s.holder ≠ some (.producer i))) :
    Inv config { s with consumer := c, queue, encoded, discarded } :=
  { h with
    consumer := ⟨fun hholder => absurd (h.consumer.mp hholder) hold, fun hc => absurd hc hdozing⟩
    last := hlast
    unrecorded := fun hrecord => ⟨hqueue (h.unrecorded hrecord).1, (h.unrecorded hrecord).2⟩
    ended := fun hc _ => (hended hc).1
    drained := fun htrack hc => (hended hc).2 htrack
    dozing := fun hc => absurd hc hdozing
    joined := fun j hj => absurd (h.joined j hj) hrunning
    awake := fun _ _ => ⟨hasleep, hdozing⟩
    notified := fun hc => absurd hc hasleep }

theorem Inv.notify (h : Inv config s) : Inv config s.notify := by
  rcases notify_cases s with ⟨hc, heq⟩ | ⟨_, heq⟩
  · rw [heq]
    refine h.setConsumer (by simp [hc]) (by simp [hc]) (by simp) (by simp) (by simp [Consumer.isLast]) id (by simp)
  · rwa [heq]

theorem notify_ne_asleep (s : State F) : s.notify.consumer ≠ .asleep := by
  rcases notify_cases s with ⟨_, heq⟩ | ⟨hc, heq⟩
  · rw [heq]
    simp
  · rwa [heq]

theorem notify_same (s : State F) : s.notify.producers = s.producers ∧ s.notify.holder = s.holder ∧
    s.notify.stops = s.stops ∧ s.notify.stopRequested = s.stopRequested ∧ s.notify.queue = s.queue := by
  rcases notify_cases s with ⟨_, heq⟩ | ⟨_, heq⟩
  · rw [heq]
    exact ⟨rfl, rfl, rfl, rfl, rfl⟩
  · rw [heq]
    exact ⟨rfl, rfl, rfl, rfl, rfl⟩

theorem isActive_iff : s.isActive = true ↔ s.isRecording = true ∧ s.stopRequested = false := by
  simp [State.isActive]

theorem Inv.check {i : Nat} {frame : F} (h : Inv config s) (hi : s.producers i = .entering frame)
    (hholder : s.holder = none) (hactive : s.isActive) (hrecord : config.record) :
    Inv config { s.setProducer i (.checked frame) with holder := some (.producer i) } where
  producer j := by
    by_cases hj : j = i
    · subst hj
      simp [State.setProducer]
    · have hnone : ¬∃ f, s.producers j = .checked f := fun hf => by
        rw [← h.producer j, hholder] at hf
        cases hf
      simp only [State.setProducer, Function.update_of_ne hj, iff_false_intro hnone, iff_false]
      intro heq
      cases heq
      exact hj rfl
  consumer := by
    have hc : ¬s.consumer = .dozing := fun hc => by
      rw [← h.consumer, hholder] at hc
      cases hc
    simp [State.setProducer, hc]
  requested := h.requested
  requestedBy := h.requestedBy
  last := h.last
  unrecorded hfalse := by
    rw [hrecord] at hfalse
    cases hfalse
  ended := h.ended
  drained _ hc := by
    have hstop := h.ended hc hrecord
    rw [(isActive_iff.mp hactive).2] at hstop
    cases hstop
  dozing := h.dozing
  joined := h.joined
  awake := h.awake
  notified hc hqueue := notifying_update (by rw [hi]; simp) (h.notified hc hqueue)

theorem Inv.push {i : Nat} {frame : F} (h : Inv config s) (hi : s.producers i = .checked frame) :
    Inv config { (s.push config frame).setProducer i .notifying with holder := none } := by
  have hholder : s.holder = some (.producer i) := (h.producer i).mpr ⟨frame, hi⟩
  have hdozing : s.consumer ≠ .dozing := fun hc => by
    rw [← h.consumer, hholder] at hc
    cases hc
  refine { h with
    producer := ?_
    consumer := ⟨fun hnone => (Option.some_ne_none _ hnone.symm).elim, fun hc => absurd hc hdozing⟩
    unrecorded := fun hrecord => absurd hholder ((h.unrecorded hrecord).2 i)
    drained := fun htrack hc => absurd hholder ((h.drained htrack hc).2 i)
    dozing := fun hc => absurd hc hdozing
    notified := fun _ _ => ⟨i, Function.update_self ..⟩ }
  intro j
  by_cases hj : j = i
  · subst hj
    simp [State.setProducer]
  · have hnone : ¬∃ f, s.producers j = .checked f := fun hf => by
      rw [← h.producer j, hholder] at hf
      cases hf
      exact hj rfl
    simpa [State.setProducer, State.push, Function.update_of_ne hj] using hnone

/-- `stop` を呼ぶスレッドが進む。 -/
theorem Inv.setStop {j : Nat} {p : Stop} (h : Inv config s) (hstop : s.stopRequested) (hidle : p ≠ .idle)
    (hp : p.past → s.consumer ≠ .asleep ∧ s.consumer ≠ .dozing) (hjoined : p.hasJoined → s.consumer = .ended) :
    Inv config (s.setStop j p) := by
  refine { h with
    requested := fun _ _ => hstop
    requestedBy := fun _ => ⟨j, by simpa [State.setStop] using hidle⟩
    joined := ?_
    awake := ?_ }
  all_goals
    intro i hi
    by_cases hij : i = j
    · subst hij
      simp only [State.setStop, Function.update_self] at hi
      first | exact hp hi | exact hjoined hi
    · simp only [State.setStop, Function.update_of_ne hij] at hi
      first | exact h.awake i hi | exact h.joined i hi

theorem Inv.stopRequested_of {j : Nat} {p : Stop} (h : Inv config s) (hj : s.stops j = p) (hp : p ≠ .idle) :
    s.stopRequested :=
  h.requested j (by rwa [hj])

/-- 起こした後の `stop` の一歩。 -/
theorem Inv.advanceStop {j : Nat} {p p' : Stop} (h : Inv config s) (hj : s.stops j = p) (hp : p.past) (hidle : p' ≠ .idle)
    (hjoined : p'.hasJoined → s.consumer = .ended) : Inv config (s.setStop j p') := by
  refine h.setStop (h.stopRequested_of hj ?_) hidle (fun _ => h.awake j (by rwa [hj])) hjoined
  rintro rfl
  cases hp

theorem Inv.requestStop {j : Nat} (h : Inv config s) (hj : s.stops j = .idle) :
    Inv config { s.setStop j .requested with stopRequested := true } := by
  refine { h with
    requested := fun _ _ => rfl
    requestedBy := fun _ => ⟨j, by simp [State.setStop]⟩
    last := fun _ => rfl
    ended := fun _ _ => rfl
    joined := ?_
    awake := ?_ }
  all_goals
    intro i hi
    by_cases hij : i = j
    · subst hij
      simp [State.setStop, Stop.hasJoined, Stop.past] at hi
    · simp only [State.setStop, Function.update_of_ne hij] at hi
      first | exact h.awake i hi | exact h.joined i hi

/-- 停止の後に、待ち行列を空にする。 -/
theorem Inv.clear {discarded : List F} (h : Inv config s) : Inv config { s with queue := [], discarded } :=
  { h with
    unrecorded := fun hrecord => ⟨rfl, (h.unrecorded hrecord).2⟩
    drained := fun htrack hc => ⟨rfl, (h.drained htrack hc).2⟩
    dozing := fun _ => rfl
    notified := fun _ hne => absurd rfl hne }

theorem Inv.finish {isRecording : Bool} (h : Inv config s) : Inv config { s with isRecording } :=
  { h with producer := h.producer }

theorem Inv.doze (h : Inv config s) (hrunning : s.consumer = .locking) (hholder : s.holder = none) (hready : s.ready = false) :
    Inv config { s with consumer := .dozing, holder := some .consumer } := by
  obtain ⟨hstop, hqueue⟩ : s.stopRequested = false ∧ s.queue = [] := by
    simpa [State.ready] using hready
  refine { h with
    producer := ?_
    consumer := ⟨fun _ => rfl, fun _ => rfl⟩
    last := by simp [Consumer.isLast]
    unrecorded := fun hrecord => ⟨hqueue, by simp⟩
    ended := by simp
    drained := by simp
    dozing := fun _ => hqueue
    joined := fun j hj => by simp [h.joined j hj] at hrunning
    awake := ?_
    notified := by simp }
  · intro i
    have := h.producer i
    rw [hholder] at this
    simpa using this
  · intro j hj
    have := h.requested j fun hidle => by simp [hidle, Stop.past] at hj
    rw [hstop] at this
    cases this

theorem Inv.sleep (h : Inv config s) (hc : s.consumer = .dozing) :
    Inv config { s with consumer := .asleep, holder := none } := by
  have hholder : s.holder = some .consumer := h.consumer.mpr hc
  refine { h with
    producer := ?_
    consumer := by simp
    last := by simp [Consumer.isLast]
    unrecorded := fun hrecord => ⟨(h.unrecorded hrecord).1, by simp⟩
    ended := by simp
    drained := by simp
    dozing := by simp
    joined := fun j hj => by simp [h.joined j hj] at hc
    awake := fun j hj => absurd hc (h.awake j hj).2
    notified := fun _ hne => absurd (h.dozing hc) hne }
  intro i
  have := h.producer i
  rw [hholder] at this
  simpa using this

theorem Inv.finishRound {last : Bool} (h : Inv config s) (hc : s.consumer = .popping last) (hholder : s.holder = none)
    (hqueue : s.queue = [] ∨ s.stopsEarly config) : Inv config { s with consumer := State.afterRound last } := by
  refine h.setConsumer (by simp [hc]) (by simp [hc]) ?_ ?_ ?_ id ?_
  · cases last <;> simp [State.afterRound]
  · cases last <;> simp [State.afterRound]
  · cases last <;> simp [State.afterRound, Consumer.isLast]
  · intro hended
    cases last with
    | false => simp [State.afterRound] at hended
    | true =>
        refine ⟨h.last (by rw [hc]; rfl), fun htrack => ⟨?_, by simp [hholder]⟩⟩
        rcases hqueue with hqueue | hstops
        · exact hqueue
        · simp [State.stopsEarly, htrack] at hstops

theorem Inv.move (h : Inv config s) (hmove : Move config s s') : Inv config s' := by
  cases hmove with
  | stay => exact h
  | offer hi => exact h.setProducer (by simp [hi]) (by simp [hi]) (by simp)
  | check hi hholder hactive hrecord => exact h.check hi hholder hactive hrecord
  | refuse hi => exact h.setProducer (by simp [hi]) (by simp [hi]) (by simp)
  | push hi => exact h.push hi
  | notify hi =>
      have hsame := notify_same s
      refine { h.notify with
        producer := fun j => (h.notify.producer j).trans (checked_update ?_ (by simp)).symm
        notified := fun hc => absurd hc (notify_ne_asleep s) }
      rw [hsame.1, hi]
      simp
  | spurious => exact h.notify
  | loop hc => exact h.setConsumer (by simp [hc]) (by simp [hc]) (by simp) (by simp) (by simp [Consumer.isLast]) id (by simp)
  | drain hc hstop => exact h.setConsumer (by simp [hc]) (by simp [hc]) (by simp) (by simp) (fun _ => hstop) id (by simp)
  | quit hc hstop htrack =>
      exact h.setConsumer (by simp [hc]) (by simp [hc]) (by simp) (by simp) (fun _ => hstop) id fun _ => ⟨hstop, by simp [htrack]⟩
  | proceed hc =>
      cases htrack : config.track <;>
        exact h.setConsumer (by simp [hc]) (by simp [hc]) (by simp [State.woken, htrack]) (by simp [State.woken, htrack])
          (by simp [State.woken, htrack, Consumer.isLast]) id (by simp [State.woken, htrack])
  | doze hc hholder hready => exact h.doze hc hholder hready
  | sleep hc => exact h.sleep hc
  | timeout hc => exact h.setConsumer (by simp [hc]) (by simp [hc]) (by simp) (by simp) (by simp [Consumer.isLast]) id (by simp)
  | enter hc => exact h.setConsumer (by simp [hc]) (by simp [hc]) (by simp) (by simp) (by simp [Consumer.isLast]) id (by simp)
  | leave hc => exact h.setConsumer (by simp [hc]) (by simp [hc]) (by simp) (by simp) (by simp [Consumer.isLast]) id (by simp)
  | finishRound hc hholder hqueue => exact h.finishRound hc hholder hqueue
  | pop hc _ hqueue =>
      refine h.setConsumer (by simp [hc]) (by simp [hc]) (by simp) (by simp)
        (fun hlast => h.last (by rw [hc]; exact hlast)) ?_ (by simp)
      simp [hqueue]
  | encode hc =>
      exact h.setConsumer (by simp [hc]) (by simp [hc]) (by simp) (by simp)
        (fun hlast => h.last (by rw [hc]; exact hlast)) id (by simp)
  | discard hc =>
      exact h.setConsumer (by simp [hc]) (by simp [hc]) (by simp) (by simp)
        (fun hlast => h.last (by rw [hc]; exact hlast)) id (by simp)
  | requestStop hj => exact h.requestStop hj
  | wake hj hholder =>
      have hsame := notify_same s
      refine h.notify.setStop ?_ (by simp) (fun _ => ⟨notify_ne_asleep s, fun hc => ?_⟩) (by simp [Stop.hasJoined])
      · rw [hsame.2.2.2.1]
        exact h.stopRequested_of hj (by simp)
      · rw [← h.notify.consumer, hsame.2.1, hholder] at hc
        cases hc
  | join hj hc => exact h.advanceStop hj rfl (by simp) fun _ => hc
  | clear hj => exact (h.advanceStop hj rfl (by simp) fun _ => h.joined _ (by rw [hj]; rfl)).clear
  | finish hj => exact (h.advanceStop hj rfl (by simp) fun _ => h.joined _ (by rw [hj]; rfl)).finish

theorem Inv.started (config : Config I F) : Inv config (State.started config) where
  producer := by simp [State.started]
  consumer := by cases hrecord : config.record <;> simp [State.started, hrecord]
  requested := by simp [State.started]
  last := by cases hrecord : config.record <;> simp [State.started, hrecord, Consumer.isLast]
  unrecorded := by simp [State.started]
  ended := by
    intro hc hrecord
    simp [State.started, hrecord] at hc
  drained := by simp [State.started]
  dozing := by simp [State.started]
  requestedBy := by simp [State.started]
  joined := by simp [State.started, Stop.hasJoined]
  awake := by simp [State.started, Stop.past]
  notified := by simp [State.started]

theorem reach_inv {g : (queues config).Condition} (hreach : (queues config).Reach g (State.started config) s) :
    Inv config s :=
  reach_invariant hreach (.started config) fun _ _ => Inv.move

end RtcEgress.Sink.FrameQueues
