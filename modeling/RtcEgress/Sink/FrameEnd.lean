import RtcEgress.Sink.FrameThreads

/-!
# 待ち行列のスレッドの停止

音声のスレッドは、停止の前に入れたフレームをすべて処理してから終わる。条件変数で待つスレッドを起こし損ねることはなく、
`wakeProcessingThreads` の後の `join` は、待ち行列の長さで決まる歩数の後に戻る。
-/

namespace RtcEgress.Sink.FrameQueues

open RtcEgress.Lib
open Function (update)

variable {I F : Type} {config : Config I F} {s s' : State F}

/-! ## 起こし損ねない -/

/-- 待つ条件が成り立つのに眠るスレッドには、知らせがこれから届く。 -/
theorem wakeup_pending (hreach : (queues config).Reach (fun _ _ => True) (State.started config) s)
    (hc : s.consumer = .asleep) (hready : s.ready) :
    (∃ i, s.producers i = .notifying) ∨ ∃ j, s.stops j = .requested := by
  have h := reach_inv hreach
  by_cases hqueue : s.queue = []
  · have hstop : s.stopRequested := by simpa [State.ready, hqueue] using hready
    obtain ⟨j, hj⟩ := h.requestedBy hstop
    refine .inr ⟨j, ?_⟩
    cases hp : s.stops j with
    | idle => exact absurd hp hj
    | requested => rfl
    | woken | joined | cleared | finished => exact absurd hc (h.awake j (by rw [hp]; rfl)).1
  · exact .inl (h.notified hc hqueue)

/-- 空の待ち行列を待つ間に、一つのフレームが入る。 -/
def pushWhileAsleep : List (Op AudioSource) :=
  [.consume, .consume, .consume, .onFrame 0 oneSample, .produce 0, .produce 0]

theorem wakeup_pending_pushed :
    let config := audio true 100 []
    let s := (queues config).run pushWhileAsleep (State.started config)
    (∃ i, s.producers i = .notifying) ∨ ∃ j, s.stops j = .requested :=
  wakeup_pending (System.reach_run (System.allMeet_of_forall (fun _ _ => trivial) _ _)) rfl rfl

/-! ## 音声の処理の終わり -/

/-- 渡すスレッドが持つフレーム。 -/
def Producer.frame : Producer F → Option F
  | .entering frame | .checked frame => some frame
  | _ => none

/-- どのフレームも、ロックを取る前の検査に通っている。 -/
structure Built (config : Config I F) (s : State F) : Prop where
  producers : ∀ i, ∀ frame ∈ (s.producers i).frame, config.valid frame
  queue : ∀ frame ∈ s.queue, config.valid frame
  inFlight : ∀ frame ∈ s.consumer.inFlight, config.valid frame

theorem Built.setProducer {i : Nat} {p : Producer F} (h : Built config s) (hp : ∀ frame ∈ p.frame, config.valid frame) :
    Built config (s.setProducer i p) := by
  refine { h with producers := ?_ }
  intro j
  simp only [State.setProducer, Function.update_apply]
  split
  · exact hp
  · exact h.producers j

/-- 渡すスレッドを動かさず、待ち行列に何も入れない変化。 -/
theorem Built.shrink (h : Built config s) (hproducers : s'.producers = s.producers)
    (hqueue : ∀ frame ∈ s'.queue, frame ∈ s.queue)
    (hinFlight : ∀ frame ∈ s'.consumer.inFlight, frame ∈ s.consumer.inFlight ∨ frame ∈ s.queue) : Built config s' where
  producers := by
    rw [hproducers]
    exact h.producers
  queue frame hframe := h.queue frame (hqueue frame hframe)
  inFlight frame hframe := (hinFlight frame hframe).elim (h.inFlight frame) (h.queue frame)

theorem Built.notify (h : Built config s) : Built config s.notify :=
  h.shrink (notify_same s).1 (by simp [(notify_same s).2.2.2.2]) (by simp +contextual [(SameLedger.notify s).inFlight])

theorem Built.check {i : Nat} {frame : F} {holder : Option Holder} (h : Built config s)
    (hi : s.producers i = .entering frame) : Built config { s.setProducer i (.checked frame) with holder } where
  producers := by
    refine (h.setProducer ?_).producers
    intro f hf
    exact h.producers i f (by rw [hi]; exact hf)
  queue := h.queue
  inFlight := h.inFlight

theorem Built.push {i : Nat} {frame : F} {holder : Option Holder} (h : Built config s)
    (hi : s.producers i = .checked frame) :
    Built config { (s.push config frame).setProducer i .notifying with holder } where
  producers := (h.setProducer (by simp [Producer.frame])).producers
  queue f hf := by
    simp only [State.setProducer, State.push, List.mem_append, List.mem_singleton] at hf
    rcases hf with hf | rfl
    · refine h.queue f ?_
      rw [← trim_append config.bufferSize s.queue]
      exact List.mem_append_right _ hf
    · exact h.producers i f (by rw [hi]; rfl)
  inFlight := h.inFlight

theorem Built.move (hvalid : ∀ input frame, config.build input = some frame → config.valid frame) (h : Built config s)
    (hmove : Move config s s') : Built config s' := by
  cases hmove with
  | stay => exact h
  | offer _ hbuild =>
      refine h.setProducer ?_
      rintro f ⟨⟩
      exact hvalid _ _ hbuild
  | check hi => exact h.check hi
  | refuse => exact h.setProducer (by simp [Producer.frame])
  | push hi => exact h.push hi
  | notify => exact h.notify.setProducer (by simp [Producer.frame])
  | spurious => exact h.notify
  | loop | drain | quit | doze | sleep | timeout | enter | leave | encode | discard =>
      exact h.shrink rfl (fun _ => id) (by simp [Consumer.inFlight])
  | proceed | finishRound => exact h.shrink rfl (fun _ => id) (by simp)
  | pop _ _ hqueue =>
      refine h.shrink rfl ?_ ?_
      · simp +contextual [hqueue]
      · simp [hqueue, Consumer.inFlight]
  | requestStop | join | finish => exact h.shrink rfl (fun _ => id) fun _ => .inl
  | wake => exact ⟨h.notify.producers, h.notify.queue, h.notify.inFlight⟩
  | clear => exact h.shrink rfl (by simp) fun _ => .inl

theorem Built.started (config : Config I F) : Built config (State.started config) := by
  cases hrecord : config.record <;>
    constructor <;> simp [State.started, hrecord, Producer.frame, Consumer.inFlight]

/-- 音声のスレッドは、検査に通ったフレームを捨てない。 -/
theorem discarded_nil (htrack : config.track = .audio) (h : Inv config s) (hbuilt : Built config s)
    (hnil : s.discarded = []) (hmove : Move config s s') : s'.discarded = [] := by
  cases hmove.ledgerMove with
  | same hsame => exact hsame.discarded.trans hnil
  | push hsame => exact hsame.discarded.trans hnil
  | pop | encode => exact hnil
  | discard hc hcause =>
      have hvalid := hbuilt.inFlight _ (by rw [hc]; exact List.mem_singleton.mpr rfl)
      rcases hcause with hcause | hstops
      · rw [hvalid] at hcause
        cases hcause
      · simp [State.stopsEarly, htrack] at hstops
  | clear hj =>
      have hqueue := (h.drained htrack (h.joined _ (by rw [hj]; rfl))).1
      simp [hnil, hqueue]

theorem AudioFrame.valid_of_build {targetUsers : List String} {source : AudioSource} {frame : AudioFrame}
    (h : AudioFrame.build targetUsers source = some frame) : frame.valid := by
  unfold AudioFrame.build at h
  split at h
  · split at h
    · cases h
    · split at h
      · cases h
      · simp only at h
        split at h
        · cases h
        · cases h
          rfl
  · cases h

/-- 音声のトラックの状態。 -/
structure Whole (config : Config I F) (s : State F) : Prop where
  inv : Inv config s
  built : Built config s
  ledger : Ledger s
  discarded : s.discarded = []

theorem Whole.move (htrack : config.track = .audio)
    (hvalid : ∀ input frame, config.build input = some frame → config.valid frame) (h : Whole config s)
    (hmove : Move config s s') : Whole config s' :=
  ⟨h.inv.move hmove, h.built.move hvalid hmove, h.ledger.move hmove,
    discarded_nil htrack h.inv h.built h.discarded hmove⟩

theorem Whole.started (config : Config I F) : Whole config (State.started config) :=
  ⟨.started config, .started config, .started config, rfl⟩

/-- 音声のスレッドが終わったとき、入れたフレームは、一杯で捨てたものの他は、入れた順にすべてエンコーダーに渡されている。 -/
theorem audio_drained {record : Bool} {bufferSize : Nat} {targetUsers : List String} {s : State AudioFrame}
    (hreach : (queues (audio record bufferSize targetUsers)).Reach (fun _ _ => True)
      (State.started (audio record bufferSize targetUsers)) s) (hc : s.consumer = .ended) :
    s.accepted.Perm (s.encoded ++ s.overflowed) ∧ s.encoded.Sublist s.accepted := by
  have h : Whole (audio record bufferSize targetUsers) s :=
    reach_invariant hreach (.started _) fun _ _ => Whole.move rfl fun _ _ => AudioFrame.valid_of_build
  have hqueue := (h.inv.drained rfl hc).1
  have hordered := h.ledger.ordered
  have hkept := h.ledger.kept
  simp only [hc, Consumer.inFlight, hqueue, h.discarded, List.append_nil] at hordered hkept
  exact ⟨hkept, hordered⟩

/-- 取り出した後に停止し、処理を終える。 -/
def stopAfterPop : List (Op AudioSource) :=
  pushWhileAsleep ++ [.produce 0, .consume, .consume, .requestStop 0, .stop 0]

def drainAfterStop : List (Op AudioSource) := stopAfterPop ++ [.consume, .consume, .consume, .consume]

theorem audio_drained_stopped :
    let config := audio true 100 []
    let s := (queues config).run drainAfterStop (State.started config)
    s.encoded.length = 1 ∧ s.accepted.Perm (s.encoded ++ s.overflowed) ∧ s.encoded.Sublist s.accepted :=
  ⟨rfl, audio_drained (System.reach_run (System.allMeet_of_forall (fun _ _ => trivial) _ _)) rfl⟩

/-! ## `join` が戻る -/

/-- 処理のスレッドの残りの歩数。`n` は、待ち行列の長さである。 -/
def Consumer.rank (n : Nat) : Consumer F → Nat
  | .ended => 0
  | .popping true => 2 * n + 1
  | .top | .encoding true _ => 2 * n + 2
  | .entering | .popping false => 2 * n + 3
  | .locking | .encoding false _ => 2 * n + 4
  | .asleep => 2 * n + 5
  | .dozing => 2 * n + 6

/-- ロックを取り、これから待ち行列に入れるフレームの数。 -/
def pending : Option Holder → Nat
  | some (.producer _) => 1
  | _ => 0

namespace State

def rank (s : State F) : Nat := s.consumer.rank (s.queue.length + pending s.holder)

/-- 処理のスレッドが、次の一歩で進む。 -/
def movable (s : State F) : Bool :=
  match s.consumer with
  | .ended | .asleep => false
  | .locking | .popping _ => s.holder.isNone
  | .top | .dozing | .entering | .encoding _ _ => true

end State

theorem Consumer.rank_mono {m n : Nat} (h : m ≤ n) (c : Consumer F) : c.rank m ≤ c.rank n := by
  cases c with
  | ended => exact le_rfl
  | popping last | encoding last => cases last <;> simp only [rank] <;> omega
  | top | locking | dozing | asleep | entering => simp only [rank]; omega

/-- 停止の後に起こされた状態。 -/
structure Woken (config : Config I F) (s : State F) : Prop where
  inv : Inv config s
  woken : ∃ j, (s.stops j).past

theorem Woken.stopRequested (h : Woken config s) : s.stopRequested := by
  obtain ⟨j, hj⟩ := h.woken
  refine h.inv.requested j ?_
  intro hidle
  simp [hidle, Stop.past] at hj

theorem Woken.notify (h : Woken config s) : s.notify = s := by
  obtain ⟨j, hj⟩ := h.woken
  rcases notify_cases s with ⟨hc, _⟩ | ⟨_, heq⟩
  · exact absurd hc (h.inv.awake j hj).1
  · exact heq

theorem Woken.not_active (h : Woken config s) : ¬s.isActive := by
  simp [State.isActive, h.stopRequested]

theorem past_setStop {i j : Nat} {p : Stop} (hj : (s.stops j).past) (hp : i = j → p.past) :
    ((s.setStop i p).stops j).past := by
  by_cases hij : j = i
  · subst hij
    simpa [State.setStop] using hp rfl
  · simpa [State.setStop, Function.update_of_ne hij] using hj

theorem Woken.move (h : Woken config s) (hmove : Move config s s') : Woken config s' := by
  refine ⟨h.inv.move hmove, ?_⟩
  obtain ⟨j, hj⟩ := h.woken
  refine ⟨j, ?_⟩
  cases hmove with
  | requestStop hidle =>
      refine past_setStop hj ?_
      rintro rfl
      simp [hidle, Stop.past] at hj
  | wake => exact past_setStop (by rwa [(notify_same s).2.2.1]) fun _ => rfl
  | join | clear | finish => exact past_setStop hj fun _ => rfl
  | notify | spurious =>
      rw [h.notify]
      exact hj
  | _ => exact hj

/-- 起こされた後の一歩は、処理のスレッドの残りの歩数を減らすか、そのスレッドを動かさずに残りの歩数を増やさない。 -/
theorem Woken.rank_move (h : Woken config s) (hmove : Move config s s') :
    s'.rank < s.rank ∨ s'.consumer = s.consumer ∧ s'.rank ≤ s.rank := by
  have hstop := h.stopRequested
  obtain ⟨j, hj⟩ := h.woken
  cases hmove with
  | stay | refuse | requestStop | join | finish => exact .inr ⟨rfl, le_rfl⟩
  | offer _ _ hactive | check _ _ hactive => exact absurd hactive h.not_active
  | push hi =>
      have hholder := (h.inv.producer _).mpr ⟨_, hi⟩
      have hle := length_trim_le config.bufferSize s.queue
      refine .inr ⟨rfl, Consumer.rank_mono ?_ _⟩
      simp only [State.setProducer, State.push, List.length_append, List.length_singleton, hholder, pending]
      omega
  | notify | spurious | wake =>
      rw [h.notify]
      exact .inr ⟨rfl, le_rfl⟩
  | loop _ hrunning | enter _ hrunning => simp [hstop] at hrunning
  | drain hc | quit hc | leave hc => exact .inl (by simp [State.rank, hc, Consumer.rank])
  | proceed hc => cases htrack : config.track <;> simp [State.rank, hc, State.woken, htrack, Consumer.rank]
  | doze _ _ hready => simp [State.ready, hstop] at hready
  | sleep hc => exact absurd hc (h.inv.awake j hj).2
  | timeout hc => exact absurd hc (h.inv.awake j hj).1
  | @finishRound last hc => cases last <;> simp [State.rank, hc, State.afterRound, Consumer.rank]
  | @pop last _ _ hc _ hqueue =>
      left
      cases last <;> simp only [State.rank, hc, hqueue, Consumer.rank, List.length_cons] <;> omega
  | @encode last _ hc | @discard last _ hc => cases last <;> simp [State.rank, hc, Consumer.rank]
  | clear => exact .inr ⟨rfl, Consumer.rank_mono (Nat.add_le_add_right (Nat.zero_le _) _) _⟩

/-- 進める処理のスレッドは、段階を変える。 -/
theorem stepConsumer_ne (hmovable : s.movable) : (s.stepConsumer config).consumer ≠ s.consumer := by
  cases hc : s.consumer with
  | ended | asleep => simp [State.movable, hc] at hmovable
  | dozing => simp [State.stepConsumer, hc]
  | top =>
      simp only [State.stepConsumer, hc]
      split
      · cases config.track <;> simp
      · simp
  | entering =>
      simp only [State.stepConsumer, hc]
      split <;> simp
  | locking =>
      have hholder : s.holder.isNone := by simpa [State.movable, hc] using hmovable
      simp only [State.stepConsumer, hc, hholder, if_true]
      split
      · cases htrack : config.track <;> simp [State.woken, htrack]
      · simp
  | popping last =>
      have hholder : s.holder.isNone := by simpa [State.movable, hc] using hmovable
      have hround : State.afterRound last ≠ (.popping last : Consumer F) := by cases last <;> simp [State.afterRound]
      simp only [State.stepConsumer, hc, hholder, if_true]
      split
      · exact hround
      · split
        · exact hround
        · simp
  | encoding last frame =>
      simp only [State.stepConsumer, hc]
      split <;> simp

theorem Woken.rank_lt (h : Woken config s) (hmovable : s.movable) : (s.stepConsumer config).rank < s.rank := by
  have hmove : Move config s (s.stepConsumer config) := stepConsumer_move s
  rcases h.rank_move hmove with hlt | ⟨heq, _⟩
  · exact hlt
  · exact absurd heq (stepConsumer_ne hmovable)

/-- 操作の列の中で、処理のスレッドが進んだ歩数。 -/
def consumed (config : Config I F) : List (Op I) → State F → Nat
  | [], _ => 0
  | .consume :: ops, s => (if s.movable then 1 else 0) + consumed config ops (s.step config .consume)
  | op :: ops, s => consumed config ops (s.step config op)

theorem Woken.step (h : Woken config s) (op : Op I) : Woken config (s.step config op) := h.move (step_move op s)

theorem Woken.rank_step_le (h : Woken config s) (op : Op I) : (s.step config op).rank ≤ s.rank :=
  (h.rank_move (step_move op s)).elim Nat.le_of_lt fun hle => hle.2

/-- 起こされた後、処理のスレッドが進む歩数は限られている。 -/
theorem Woken.consumed_le (h : Woken config s) (ops : List (Op I)) : consumed config ops s ≤ s.rank := by
  induction ops generalizing s with
  | nil => exact Nat.zero_le _
  | cons op ops ih =>
      have hrest := ih (h.step op)
      have hle := h.rank_step_le op
      cases op with
      | consume =>
          rw [consumed]
          split
          next hmovable =>
            have hlt : (s.step config .consume).rank < s.rank := h.rank_lt hmovable
            omega
          · omega
      | _ =>
          rw [consumed]
          · omega
          · simp

theorem Consumer.rank_le (n : Nat) (c : Consumer F) (hc : c ≠ .asleep ∧ c ≠ .dozing) : c.rank n ≤ 2 * n + 4 := by
  cases c with
  | asleep => exact absurd rfl hc.1
  | dozing => exact absurd rfl hc.2
  | ended => exact Nat.zero_le _
  | popping last | encoding last => cases last <;> simp [rank]
  | top | locking | entering => simp [rank]

theorem Woken.rank_bound (h : Woken config s) : s.rank ≤ 2 * s.queue.length + 6 := by
  obtain ⟨j, hj⟩ := h.woken
  have hle : pending s.holder ≤ 1 := by
    unfold pending
    split <;> simp
  have hrank := Consumer.rank_le (s.queue.length + pending s.holder) s.consumer (h.inv.awake j hj)
  rw [State.rank]
  omega

/-- 進めない処理のスレッドは、フレームを入れるスレッドのロックを待っている。 -/
theorem Woken.blocked (h : Woken config s) (hc : s.consumer ≠ .ended) (hmovable : ¬s.movable) :
    ∃ i frame, s.producers i = .checked frame := by
  obtain ⟨j, hj⟩ := h.woken
  have hdozing := (h.inv.awake j hj).2
  have hheld : s.holder ≠ none := by
    intro hholder
    cases hcons : s.consumer with
    | ended => exact hc hcons
    | asleep => exact (h.inv.awake j hj).1 hcons
    | dozing => exact hdozing hcons
    | top | locking | entering | popping | encoding => simp [State.movable, hcons, hholder] at hmovable
  obtain ⟨holder, hholder⟩ := Option.ne_none_iff_exists'.mp hheld
  cases holder with
  | producer i => exact ⟨i, (h.inv.producer i).mp hholder⟩
  | consumer => exact absurd (h.inv.consumer.mp hholder) hdozing

/-- `wakeProcessingThreads` の後は、処理のスレッドは限られた歩数で終わる。進めないのは、一歩でロックを放すスレッドを待つ間だけ
である。 -/
theorem stop_joins (hreach : (queues config).Reach (fun _ _ => True) (State.started config) s) {j : Nat}
    (hj : (s.stops j).past) :
    (∀ ops, consumed config ops s ≤ 2 * s.queue.length + 6) ∧
      (s.consumer = .ended ∨ s.movable ∨
        ∃ i, s.holder = some (.producer i) ∧ (s.step config (.produce i)).holder = none) := by
  have h : Woken config s := ⟨reach_inv hreach, j, hj⟩
  refine ⟨fun ops => (h.consumed_le ops).trans h.rank_bound, ?_⟩
  by_cases hc : s.consumer = .ended
  · exact .inl hc
  by_cases hmovable : s.movable
  · exact .inr (.inl hmovable)
  obtain ⟨i, frame, hi⟩ := h.blocked hc hmovable
  refine .inr (.inr ⟨i, (h.inv.producer i).mpr ⟨frame, hi⟩, ?_⟩)
  simp [State.step, State.stepProducer, hi]

theorem stop_joins_popped :
    let config := audio true 100 []
    let s := (queues config).run stopAfterPop (State.started config)
    (∀ ops, consumed config ops s ≤ 2 * s.queue.length + 6) ∧
      (s.consumer = .ended ∨ s.movable ∨
        ∃ i, s.holder = some (.producer i) ∧ (s.step config (.produce i)).holder = none) :=
  stop_joins (System.reach_run (System.allMeet_of_forall (fun _ _ => trivial) _ _)) (j := 0) rfl

end RtcEgress.Sink.FrameQueues
