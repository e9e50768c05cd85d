import RtcEgress.Worker.Handling
import RtcEgress.Worker.Listing

/-!
# 開始への完了の通知

読んだ開始の一つ一つに、完了の通知がちょうど一つ送られるかを調べる。完了は、停止、録画の長さの通知、配信の通知、部品を
始められなかった開始、SDK のエラーの五か所から送られる。タスクを探すことと完了を送ることの間には、ほかのスレッドの命令が
入る。
-/

namespace RtcEgress.Worker.Threads

open RtcEgress.Lib

/-- 読んだ開始のうち、`taskId` のもの。 -/
def starts (taskId : String) (tr : List (Event machine)) : List UDSMessage :=
  tr.filterMap fun e => match e.cmd with
    | .receive msg => if msg.action = .start ∧ msg.taskId = taskId then some msg else none
    | _ => none

/-- `taskId` の完了の通知の数。 -/
def answers (taskId : String) (s : Shared) : Nat := s.pipe.sent.countP (·.taskId == taskId)

/-- 名前の付いたタスクの、ただ一つの開始である。 -/
structure Fresh (msg : UDSMessage) (tr : List (Event machine)) : Prop where
  taskId : msg.taskId ≠ ""
  channel : msg.channel ≠ ""
  only : starts msg.taskId tr = [msg]

/-- 引き受けたタスクの完了をまだ送っていない、動いているスレッドがある。 -/
def InHand (taskId : String) (p : Pool machine) : Prop :=
  ∃ i c k, p.threads[i]? = some (.call c k) ∧ (phase (own i p.trace)).holder = some taskId

/-- どの開始についても、完了は多くとも一つであり、タスクが `channel_states_` になければちょうど一つである。タスクを除いた
スレッドが完了を送るまでの間は別とする。 -/
def AnsweredOnce (g : Guard machine) : Prop :=
  ∀ snapshot recording p, Run g (.start (.init snapshot recording)) p → ∀ msg, Fresh msg p.trace →
    answers msg.taskId p.state ≤ 1 ∧
      (¬Active msg.taskId p.state → ¬InHand msg.taskId p → answers msg.taskId p.state = 1)

def anyOrder : Guard machine := .ofCalls knownActions

/-! ## 成り立たない実行 -/

def snapshotStart : UDSMessage := { taskId := "t", cmd := .snapshot, action := .start, channel := "c" }

/-- 接続できなかった静止画の開始。 -/
def failedConnection : List (Move machine) :=
  .spawn (.threadFunc [(snapshotStart, { connect := false })]) :: List.replicate 5 (.run 0 ())

def recordCommand (action : Action) : UDSMessage := { taskId := "t", cmd := .record, action, channel := "c" }

/-- 録画の停止は、長さに達した通知が終わるのを待ってから、同じタスクの完了を送る。 -/
def stopDuringCallback : List (Move machine) :=
  .spawn (.threadFunc [(recordCommand .start, {}), (recordCommand .stop, {})]) :: List.replicate 9 (.run 0 ()) ++
    .spawn (.recordingThread {}) :: .run 1 () :: List.replicate 2 (.run 0 ()) ++ List.replicate 11 (.run 1 ()) ++
    List.replicate 3 (.run 0 ())

theorem stopDuringCallback_twice : ∃ p, Run anyOrder (.start (.init sinkDefaults.1 sinkDefaults.2)) p ∧
    starts "t" p.trace = [recordCommand .start] ∧ p.threads = [.ret (), .ret ()] ∧ answers "t" p.state = 2 := by
  have hlast : (Pool.play stopDuringCallback (.start (.init sinkDefaults.1 sinkDefaults.2))).map
      (fun p => (starts "t" p.trace, p.threads, answers "t" p.state)) =
        some ([recordCommand .start], [.ret (), .ret ()], 2) := rfl
  obtain ⟨p, hp, heq⟩ := Option.map_eq_some_iff.mp hlast
  simp only [Prod.mk.injEq] at heq
  exact ⟨p, Pool.play_sound (Pool.allMeet_ofCalls (by decide)) hp, heq⟩

/-! ## 成り立つ条件 -/

variable {i : Nat} {taskId : String} {s s' : Shared} {tr : List (Event machine)}

/-- タスクを引き受けたスレッドがある。 -/
def Held (taskId : String) (tr : List (Event machine)) : Prop := ∃ i, (phase (own i tr)).holder = some taskId

/-- 名前の付いたタスクであり、その開始をまだ読んでいないか、チャンネルのあるものを一度だけ読んだ。 -/
def Claimed (taskId : String) (tr : List (Event machine)) : Prop :=
  taskId ≠ "" ∧ (starts taskId tr).length ≤ 1 ∧ ∀ msg ∈ starts taskId tr, msg.channel ≠ ""

/-- 命令が新しく引き受けるタスク。 -/
def taken (phase : Phase) (s : Shared) : Cmd → Option String
  | .receive _ => none
  | c =>
      match c.exec s with
      | some (r, _) => (phase.next c r).holder.filter fun taskId => phase.holder ≠ some taskId
      | none => none

/-- 静止画と録画の開始のうち、接続できないもの。 -/
def unconnected (s : Shared) : Cmd → Phase → Option String
  | .connect ok, .starting msg =>
      if (msg.cmd = .snapshot ∨ msg.cmd = .record) ∧ (s.pipe.rtcClient.connect ok).1 = false then some msg.taskId else none
  | _, _ => none

/-- 完了を送らずに消えるタスク。始められなかった静止画と、チャンネルごと消えるタスクである。 -/
def dropped (s : Shared) : Cmd → Phase → List String
  | .startSnapshot false, .engaged taskId _ => if Active taskId s then [taskId] else []
  | .eraseChannel channel, _ => (TaskPipe.channelState s.pipe channel).activeTasks.keys
  | _, _ => []

/-- SDK のエラーで失敗させるタスク。 -/
def failed (s : Shared) : Cmd → List String
  | .failAll _ _ => s.pipe.tasks.map fun t => t.2.1
  | _ => []

/-- 静止画と録画の開始は接続できる。タスクを引き受けるのは、表にあって誰も引き受けていないときに限る。完了を送らずに消える
タスクは誰かが引き受けており、失敗させるタスクは誰も引き受けていない。 -/
structure Careful (c : Cmd) (phase : Phase) (s : Shared) (tr : List (Event machine)) : Prop where
  connects : ∀ taskId ∈ unconnected s c phase, ¬Claimed taskId tr
  takes : ∀ taskId ∈ taken phase s c, Claimed taskId tr → Active taskId s ∧ ¬Held taskId tr
  drops : ∀ taskId ∈ dropped s c phase, Claimed taskId tr → Held taskId tr
  fails : ∀ taskId ∈ failed s c, Claimed taskId tr → ¬Held taskId tr

def careful : Guard machine where
  call := knownActions
  cmd := fun i c s tr => Careful c (phase (own i tr)) s tr

/-! ### 一つのタスクの依頼 -/

/-- `taskId` の開始を一つの依頼とみなす。 -/
def desk (taskId : String) (s : Shared) (tr : List (Event machine)) : Desk String where
  role i := (phase (own i tr)).role taskId
  listed channel := Listed taskId channel s
  answers := answers taskId s
  requests := (starts taskId tr).length

theorem held_iff : (desk taskId s tr).Held ↔ Held taskId tr :=
  exists_congr fun _ => Phase.role_holds

theorem phase_own_self {c : Cmd} {r : c.Resp} :
    phase (own i (⟨i, c, r, s⟩ :: tr)) = (phase (own i tr)).next c r := by
  rw [own_cons_self]
  rfl

theorem starts_cons {c : Cmd} {r : c.Resp} (h : ∀ msg, c ≠ .receive msg) :
    starts taskId (⟨i, c, r, s⟩ :: tr) = starts taskId tr := by
  cases c
  case receive msg => exact absurd rfl (h msg)
  all_goals rfl

theorem starts_receive {msg : UDSMessage} {r} : starts taskId (⟨i, .receive msg, r, s⟩ :: tr) =
    if msg.action = .start ∧ msg.taskId = taskId then msg :: starts taskId tr else starts taskId tr := by
  simp only [starts, List.filterMap_cons]
  split <;> rename_i h <;> split at h <;> simp_all

theorem Claimed.of_cons {e : Event machine} (h : Claimed taskId (e :: tr)) : Claimed taskId tr := by
  obtain ⟨hne, hlength, hchannel⟩ := h
  have hsub : (starts taskId tr).Sublist (starts taskId (e :: tr)) :=
    (List.sublist_cons_self e tr).filterMap _
  exact ⟨hne, Nat.le_trans hsub.length_le hlength, fun msg hmsg => hchannel msg (hsub.subset hmsg)⟩

/-- 開始を読む命令のほかでは、`i` の役割だけが変わる。 -/
theorem desk_role {c : Cmd} {r : c.Resp} (j : Nat) : (desk taskId s' (⟨i, c, r, s⟩ :: tr)).role j =
    if j = i then ((phase (own i tr)).next c r).role taskId else (desk taskId s tr).role j := by
  by_cases hj : j = i
  · subst hj
    rw [if_pos rfl, ← phase_own_self]
    rfl
  · rw [if_neg hj]
    simp only [desk, own_cons_ne hj]

theorem desk_role_eq {c : Cmd} {r : c.Resp}
    (hrole : ((phase (own i tr)).next c r).role taskId = (phase (own i tr)).role taskId) (j : Nat) :
    (desk taskId s' (⟨i, c, r, s⟩ :: tr)).role j = (desk taskId s tr).role j := by
  rw [desk_role]
  split
  · rename_i hj
    rw [hrole, hj]
    rfl
  · rfl

theorem desk_requests {c : Cmd} {r : c.Resp} (hc : ∀ msg, c ≠ .receive msg) :
    (desk taskId s' (⟨i, c, r, s⟩ :: tr)).requests = (desk taskId s tr).requests :=
  congrArg List.length (starts_cons hc)

theorem desk_turns {c : Cmd} {r : c.Resp} {role : Role String} (hc : ∀ msg, c ≠ .receive msg)
    (hrole : ((phase (own i tr)).next c r).role taskId = role) (hanswers : answers taskId s' = answers taskId s) :
    (desk taskId s tr).Turns (desk taskId s' (⟨i, c, r, s⟩ :: tr)) i role where
  role j := by rw [desk_role, hrole]
  answers := hanswers
  requests := desk_requests hc

theorem Frame.answers (h : Frame s s') : answers taskId s' = answers taskId s := by
  simp only [Threads.answers, h.sent]

/-- 役割も表も変わらない命令。 -/
theorem sound_same {c : Cmd} {r : c.Resp} (hd : (desk taskId s tr).Sound) (hc : ∀ msg, c ≠ .receive msg)
    (hrole : ((phase (own i tr)).next c r).role taskId = (phase (own i tr)).role taskId)
    (hlisted : ∀ q, Listed taskId q s' ↔ Listed taskId q s) (hanswers : answers taskId s' = answers taskId s) :
    (desk taskId s' (⟨i, c, r, s⟩ :: tr)).Sound :=
  hd.same (desk_role_eq hrole) hlisted hanswers (desk_requests hc)

theorem sound_frame {c : Cmd} {r : c.Resp} (hd : (desk taskId s tr).Sound) (hc : ∀ msg, c ≠ .receive msg)
    (hframe : Frame s s') (hrole : ((phase (own i tr)).next c r).role taskId = (phase (own i tr)).role taskId) :
    (desk taskId s' (⟨i, c, r, s⟩ :: tr)).Sound :=
  sound_same hd hc hrole (fun q => hframe.listed taskId q) hframe.answers

theorem sound_receive {msg : UDSMessage} {r} (hd : (desk taskId s tr).Sound)
    (hfree : (phase (own i tr)).holder = none) (he : Cmd.exec (.receive msg) s = some (r, s'))
    (hclaimed : Claimed taskId (⟨i, .receive msg, r, s⟩ :: tr)) :
    (desk taskId s' (⟨i, .receive msg, r, s⟩ :: tr)).Sound := by
  cases he
  have hidle : ((desk taskId s tr).role i).holds = false := by
    rw [← Bool.not_eq_true]
    exact fun h => by rw [Phase.role_holds.mp h] at hfree; cases hfree
  obtain ⟨hne, hlength, hchannel⟩ := hclaimed
  simp only [starts_receive] at hlength hchannel
  by_cases hstart : msg.action = .start ∧ msg.taskId = taskId
  · rw [if_pos hstart] at hlength hchannel
    have hstarts : starts taskId tr = [] := by
      rw [← List.length_eq_zero_iff]
      simpa using hlength
    have hnext (ph : Phase) : (ph.next (.receive msg) ()).role taskId = .starting := by
      have hc := hchannel msg List.mem_cons_self
      simp [Phase.next, hstart.1, hc, Phase.role, hstart.2]
    refine hd.request (i := i) ?_ (fun j => ?_) (fun _ => .rfl) rfl ?_
    · simp [desk, hstarts]
    · rw [desk_role, hnext]
    · simp [desk, starts_receive, hstart, hstarts]
  · have hnext (ph : Phase) : (ph.next (.receive msg) ()).role taskId = .idle := by
      simp only [Phase.next]
      split
      · rename_i hstarts
        simp only [Phase.role, ite_eq_right_iff]
        exact fun heq => absurd ⟨hstarts.1, heq⟩ hstart
      · rfl
    refine hd.rest hidle ⟨fun j => ?_, rfl, ?_⟩ fun _ => .rfl
    · rw [desk_role, hnext]
    · simp [desk, starts_receive, hstart]

theorem sound_connect {ok : Bool} {r} (hd : (desk taskId s tr).Sound)
    (hg : Careful (.connect ok) (phase (own i tr)) s tr) (he : Cmd.exec (.connect ok) s = some (r, s'))
    (hclaimed : Claimed taskId tr) : (desk taskId s' (⟨i, .connect ok, r, s⟩ :: tr)).Sound := by
  have hframe := exec_frame rfl he
  refine sound_frame hd (by simp) hframe ?_
  have hr : r = (s.pipe.rtcClient.connect ok).1 := by
    cases he
    rfl
  cases hresp : r with
  | true => rfl
  | false =>
      change ((phase (own i tr)).disconnected).role taskId = _
      cases hph : phase (own i tr) with
      | resting | engaged _ _ => rfl
      | starting msg =>
          rw [hph] at hg
          simp only [Phase.disconnected]
          split
          · rename_i hcmd
            by_cases hid : msg.taskId = taskId
            · rw [← hid] at hclaimed
              exact absurd hclaimed (hg.connects _ (by simp [unconnected, hcmd, ← hr, hresp]))
            · simp [Phase.role, hid]
          · rfl

theorem sound_register {c : Cmd} {r : c.Resp} {channel id : String} (hd : (desk taskId s tr).Sound)
    (hc : ∀ msg, c ≠ .receive msg) (hok : ∃ msg, phase (own i tr) = .starting msg ∧ msg.taskId = id)
    (hnext : (phase (own i tr)).next c r = .engaged id (.registered channel))
    (hlisted : ∀ id' q, Listed id' q s' ↔ Listed id' q s ∨ q = channel ∧ id' = id)
    (hsent : s'.pipe.sent = s.pipe.sent) : (desk taskId s' (⟨i, c, r, s⟩ :: tr)).Sound := by
  obtain ⟨msg, hph, hmsg⟩ := hok
  have hanswers : answers taskId s' = answers taskId s := by simp only [answers, hsent]
  by_cases hid : id = taskId
  · subst hid
    refine hd.register (i := i) (p := channel) ?_ (desk_turns hc ?_ hanswers) fun q => ?_
    · simp [desk, hph, Phase.role, hmsg]
    · simp [hnext, Phase.role]
    · simp [desk, hlisted]
  · refine sound_same hd hc ?_ (fun q => ?_) hanswers
    · rw [hnext, hph]
      simp [Phase.role, hmsg, hid]
    · simp [hlisted, Ne.symm hid]

theorem sound_startSnapshot {ok : Bool} {r} (hd : (desk taskId s tr).Sound) (hok : Ok (.startSnapshot ok) (phase (own i tr)))
    (hg : Careful (.startSnapshot ok) (phase (own i tr)) s tr) (he : Cmd.exec (.startSnapshot ok) s = some (r, s'))
    (hclaimed : Claimed taskId tr) : (desk taskId s' (⟨i, .startSnapshot ok, r, s⟩ :: tr)).Sound := by
  have hframe := exec_frame rfl he
  cases he
  obtain ⟨id, channel, hph⟩ := hok
  by_cases hcase : ok = false ∧ id = taskId
  · obtain ⟨rfl, rfl⟩ := hcase
    rw [hph] at hg
    refine hd.abandon (i := i) (p := channel) ?_ ?_ (desk_turns (by simp) ?_ hframe.answers) fun q => hframe.listed id q
    · simp [desk, hph, Phase.role]
    · rw [held_iff]
      by_cases hactive : Active id s
      · exact .inr (hg.drops id (by simp [dropped, hactive]) hclaimed)
      · exact .inl fun q hq => hactive (active_iff.mpr ⟨q, hq⟩)
    · simp [hph, Phase.next, Phase.unstarted, Phase.role]
  · refine sound_frame hd (by simp) hframe ?_
    rw [hph]
    cases ok with
    | true => rfl
    | false =>
        have hid : id ≠ taskId := fun heq => hcase ⟨rfl, heq⟩
        simp [Phase.next, Phase.unstarted, Phase.role, hid]

/-- 引き受けていないタスクを、新しく引き受ける。 -/
theorem free_of_taken {c : Cmd} {r : c.Resp} (hc : ∀ msg, c ≠ .receive msg) (he : c.exec s = some (r, s'))
    (hnew : ((phase (own i tr)).next c r).holder = some taskId) (hold : (phase (own i tr)).holder ≠ some taskId)
    (hg : Careful c (phase (own i tr)) s tr) (hclaimed : Claimed taskId tr) : Active taskId s ∧ ¬Held taskId tr := by
  apply hg.takes taskId _ hclaimed
  rw [taken]
  · simp only [he, hnew]
    simpa using hold
  · exact hc

/-- 表にあるタスクを引き受ける命令。 -/
theorem sound_take {c : Cmd} {r : c.Resp} {id : String} {role : Role String} (hd : (desk taskId s tr).Sound)
    (hc : ∀ msg, c ≠ .receive msg) (hframe : Frame s s') (he : c.exec s = some (r, s'))
    (hph : phase (own i tr) = .resting) (hnext : (phase (own i tr)).next c r = .engaged id role)
    (hrole : role = .due ∨ ∃ channel, role = .found channel ∧ Listed id channel s)
    (hg : Careful c (phase (own i tr)) s tr) (hclaimed : Claimed taskId tr) :
    (desk taskId s' (⟨i, c, r, s⟩ :: tr)).Sound := by
  by_cases hid : id = taskId
  · subst hid
    have hholds : role.holds = true := by
      rcases hrole with rfl | ⟨channel, rfl, -⟩ <;> rfl
    have hnew : ((phase (own i tr)).next c r).holder = some id := by
      rw [hnext, Phase.holder, if_pos hholds]
    obtain ⟨hactive, hfree⟩ := free_of_taken hc he hnew (by simp [hph, Phase.holder]) hg hclaimed
    obtain ⟨channel, hlisted, hrole⟩ : ∃ channel, Listed id channel s ∧ (role = .due ∨ role = .found channel) := by
      rcases hrole with hdue | ⟨channel, hfound, hlisted⟩
      · obtain ⟨channel, hlisted⟩ := active_iff.mp hactive
        exact ⟨channel, hlisted, .inl hdue⟩
      · exact ⟨channel, hlisted, .inr hfound⟩
    refine hd.take (i := i) (p := channel) hlisted (held_iff.not.mpr hfree) hrole (desk_turns hc ?_ hframe.answers) fun q =>
      hframe.listed id q
    simp [hnext, Phase.role]
  · refine sound_frame hd hc hframe ?_
    rw [hnext, hph]
    simp [Phase.role, hid]

/-- 部品を始められなかった開始は、載せたタスクを引き受ける。 -/
theorem sound_unstarted {c : Cmd} {r : c.Resp} (hd : (desk taskId s tr).Sound)
    (hc : ∀ msg, c ≠ .receive msg) (hframe : Frame s s') (he : c.exec s = some (r, s'))
    (hok : ∃ id channel, phase (own i tr) = .engaged id (.registered channel))
    (hnext : (phase (own i tr)).next c r = phase (own i tr) ∨ (phase (own i tr)).next c r = (phase (own i tr)).unstarted .found)
    (hg : Careful c (phase (own i tr)) s tr) (hclaimed : Claimed taskId tr) :
    (desk taskId s' (⟨i, c, r, s⟩ :: tr)).Sound := by
  rcases hnext with hnext | hnext
  · exact sound_frame hd hc hframe (by rw [hnext])
  · obtain ⟨id, channel, hph⟩ := hok
    rw [hph] at hnext
    have hold : (phase (own i tr)).holder = none := by rw [hph]; rfl
    by_cases hid : id = taskId
    · subst hid
      have hnew : ((phase (own i tr)).next c r).holder = some id := by
        rw [hph, hnext]
        rfl
      obtain ⟨hactive, hfree⟩ := free_of_taken hc he hnew (by rw [hold]; simp) hg hclaimed
      obtain ⟨q, hlisted⟩ := active_iff.mp hactive
      have hrole : (desk id s tr).role i = .registered channel := by simp [desk, hph, Phase.role]
      obtain rfl := hd.registered_eq hrole hlisted (held_iff.not.mpr hfree)
      refine hd.take (i := i) hlisted (held_iff.not.mpr hfree) (.inr rfl) (desk_turns hc ?_ hframe.answers) fun q =>
        hframe.listed id q
      simp [hph, hnext, Phase.unstarted, Phase.role]
    · refine sound_frame hd hc hframe ?_
      simp [hph, hnext, Phase.unstarted, Phase.role, hid]

theorem sound_takeSnapshot {msg : UDSMessage} {pick : Option (String × String)} {r} (hunnamed : ∀ id, ¬Listed id "" s)
    (hd : (desk taskId s tr).Sound) (hph : phase (own i tr) = .resting)
    (he : Cmd.exec (.takeSnapshot msg pick) s = some (r, s'))
    (hg : Careful (.takeSnapshot msg pick) (phase (own i tr)) s tr)
    (hclaimed : Claimed taskId tr) : (desk taskId s' (⟨i, .takeSnapshot msg pick, r, s⟩ :: tr)).Sound := by
  obtain ⟨hsent, ⟨rfl, hlisted⟩ | ⟨channel, id, rfl, hfound, hlisted⟩⟩ := exec_takeSnapshot hunnamed he
  · refine sound_same hd (by simp) (by rw [hph]; rfl) (fun q => ?_) (by simp only [answers, hsent])
    exact ⟨(hlisted taskId q).1, (hlisted taskId q).2 hclaimed.1⟩
  · have hanswers : answers taskId s' = answers taskId s := by simp only [answers, hsent]
    by_cases hid : id = taskId
    · subst hid
      obtain ⟨-, hfree⟩ := free_of_taken (by simp) he rfl (by simp [hph, Phase.holder]) hg hclaimed
      refine hd.takeOut (i := i) hfound (held_iff.not.mpr hfree) (desk_turns (by simp) ?_ hanswers) fun q => ?_
      · simp [Phase.next, Phase.role]
      · simp [desk, hlisted]
    · refine sound_same hd (by simp) ?_ (fun q => ?_) hanswers
      · rw [hph]
        simp [Phase.next, Phase.role, hid]
      · simp [hlisted, Ne.symm hid]

/-- 完了の通知が、タスクを探す。 -/
theorem sound_findTask {id : String} {pick : Option (String × String)} {r} (hunnamed : ∀ id, ¬Listed id "" s)
    (hd : (desk taskId s tr).Sound) (hok : Ok (.findTask id pick) (phase (own i tr)))
    (he : Cmd.exec (.findTask id pick) s = some (r, s'))
    (hg : Careful (.findTask id pick) (phase (own i tr)) s tr)
    (hclaimed : Claimed taskId tr) : (desk taskId s' (⟨i, .findTask id pick, r, s⟩ :: tr)).Sound := by
  have hframe := exec_frame rfl he
  have hfind : TaskPipe.findTask s.pipe id pick = r := by
    cases he
    rfl
  have hchannel (channel : String) (hr : r = some channel) : Listed id channel s ∧ channel ≠ "" := by
    have hlisted := listed_of_findTask (hfind.trans hr)
    refine ⟨hlisted, ?_⟩
    rintro rfl
    exact hunnamed id hlisted
  rcases hok with hph | hph
  · cases r with
    | none => exact sound_frame hd (by simp) hframe (by rw [hph]; rfl)
    | some channel =>
        obtain ⟨hlisted, hne⟩ := hchannel channel rfl
        refine sound_take hd (by simp) hframe he hph ?_ (.inr ⟨channel, rfl, hlisted⟩) hg hclaimed
        simp [Phase.next, Phase.searched, hne]
  · by_cases hid : id = taskId
    · subst hid
      have hrole : (desk id s tr).role i = .due := by simp [desk, hph, Phase.role]
      cases r with
      | none =>
          refine hd.miss (i := i) hrole (fun q hq => ?_) (desk_turns (by simp) ?_ hframe.answers) fun q => hframe.listed id q
          · exact not_listed_of_findTask hfind hq
          · rw [hph]
            simp [Phase.next, Phase.searched, Phase.missed, Phase.role]
      | some channel =>
          obtain ⟨hlisted, hne⟩ := hchannel channel rfl
          refine hd.find (i := i) hrole hlisted (desk_turns (by simp) ?_ hframe.answers) fun q => hframe.listed id q
          rw [hph]
          simp [Phase.next, Phase.searched, hne, Phase.role]
    · refine sound_frame hd (by simp) hframe ?_
      rw [hph]
      cases r with
      | none => simp [Phase.next, Phase.searched, Phase.missed, Phase.role, hid]
      | some channel => simp [Phase.next, Phase.searched, (hchannel channel rfl).2, Phase.role, hid]

theorem sound_release {channel id : String} {r} (hd : (desk taskId s tr).Sound)
    (hok : Ok (.release channel id) (phase (own i tr))) (he : Cmd.exec (.release channel id) s = some (r, s')) :
    (desk taskId s' (⟨i, .release channel id, r, s⟩ :: tr)).Sound := by
  obtain ⟨hsent, hlisted⟩ := exec_release he
  have hanswers : answers taskId s' = answers taskId s := by simp only [answers, hsent]
  obtain ⟨role, hph, hrole⟩ := hok
  by_cases hid : id = taskId
  · subst hid
    have hi : (desk id s tr).role i = role := by simp [desk, hph, Phase.role]
    have hgone (q : String) : Listed id q s' ↔ Listed id q s ∧ q ≠ channel := by simp [hlisted]
    have hkeep (hstays : (phase (own i tr)).removed = phase (own i tr)) (hheld : Listed id channel s → (desk id s tr).Held) :
        (desk id s' (⟨i, .release channel id, r, s⟩ :: tr)).Sound :=
      hd.drop hheld (desk_role_eq (congrArg (Phase.role id) hstays)) hgone hanswers (desk_requests (by simp))
    rcases hrole with rfl | rfl | rfl
    · refine hd.release (i := i) hi (desk_turns (by simp) ?_ hanswers) hgone
      simp [Phase.next, hph, Phase.removed, Phase.role]
    · exact hkeep (by rw [hph]; rfl) fun _ => ⟨i, by rw [hi]; rfl⟩
    · exact hkeep (by rw [hph]; rfl) fun hq => hd.held_of_abandoned hi hq
  · refine sound_same hd (by simp) ?_ (fun q => ?_) hanswers
    · rw [hph]
      rcases hrole with rfl | rfl | rfl <;> simp [Phase.next, Phase.removed, Phase.role, hid]
    · simp [hlisted, Ne.symm hid]

theorem sound_eraseChannel {channel : String} {r} (hd : (desk taskId s tr).Sound)
    (hg : Careful (.eraseChannel channel) (phase (own i tr)) s tr) (he : Cmd.exec (.eraseChannel channel) s = some (r, s'))
    (hclaimed : Claimed taskId tr) : (desk taskId s' (⟨i, .eraseChannel channel, r, s⟩ :: tr)).Sound := by
  obtain ⟨hsent, hlisted⟩ := exec_eraseChannel he
  have hanswers : answers taskId s' = answers taskId s := by simp only [answers, hsent]
  exact hd.drop (p := channel) (fun hq => held_iff.mpr (hg.drops taskId (AList.mem_keys.mp hq) hclaimed)) (desk_role_eq rfl)
    (fun q => hlisted taskId q) hanswers (desk_requests (by simp))

theorem sound_send {m : UDSCompletionMessage} {r} (hd : (desk taskId s tr).Sound)
    (hok : Ok (.send m) (phase (own i tr))) (he : Cmd.exec (.send m) s = some (r, s')) :
    (desk taskId s' (⟨i, .send m, r, s⟩ :: tr)).Sound := by
  cases he
  by_cases hid : m.taskId = taskId
  · subst hid
    refine hd.answer (i := i) ?_ (fun j => ?_) (fun _ => .rfl) ?_ (desk_requests (by simp))
    · rcases hok with ⟨msg, hph, hmsg⟩ | hph
      · exact .inl (by simp [desk, hph, Phase.role, hmsg])
      · exact .inr (by simp [desk, hph, Phase.role])
    · rw [desk_role]
      rfl
    · simp [desk, answers, Shared.update, TaskPipe.sendCompletionMessage]
  · refine sound_same hd (by simp) ?_ (fun _ => .rfl) ?_
    · rcases hok with ⟨msg, hph, hmsg⟩ | hph <;> simp_all [Phase.next, Phase.role]
    · simp [answers, Shared.update, TaskPipe.sendCompletionMessage, hid]

theorem sound_failAll {errorType errorMessage : String} {r} (hd : (desk taskId s tr).Sound)
    (hg : Careful (.failAll errorType errorMessage) (phase (own i tr)) s tr)
    (he : Cmd.exec (.failAll errorType errorMessage) s = some (r, s')) (hclaimed : Claimed taskId tr) :
    (desk taskId s' (⟨i, .failAll errorType errorMessage, r, s⟩ :: tr)).Sound := by
  obtain ⟨hnone, hsent⟩ := exec_failAll he
  have hfree (q : String) (hq : Listed taskId q s) : ¬(desk taskId s tr).Held := by
    have hactive : Active taskId s := active_iff.mpr ⟨q, hq⟩
    exact held_iff.not.mpr (hg.fails taskId hactive hclaimed)
  refine hd.answerAll hfree (desk_role_eq rfl) (fun q => hnone taskId q) (fun q hq => ?_) (fun hempty => ?_)
    (desk_requests (by simp))
  · have hone := countP_tasks hq fun q' hq' => hd.listed_eq hq' hq
    exact (hsent taskId).trans (by rw [hone]; rfl)
  · have hinactive : ¬Active taskId s := by
      rw [active_iff]
      rintro ⟨q, hq⟩
      exact hempty q hq
    have hzero := countP_tasks_eq_zero hinactive
    exact (hsent taskId).trans (by rw [hzero]; rfl)

/-! ### すべてのタスク -/

/-- どのタスクの依頼も、どれかの段階にある。名前のないチャンネルにはタスクがない。 -/
structure Desks (s : Shared) (tr : List (Event machine)) : Prop where
  unnamed : ∀ id, ¬Listed id "" s
  sound : ∀ id, Claimed id tr → (desk id s tr).Sound

theorem desks_init {snapshot : SnapshotConfig} {recording : RecordingConfig} : Desks (.init snapshot recording) [] where
  unnamed id := by simp [Listed, Shared.init, TaskPipe.init, TaskPipe.channelState]
  sound id _ := .unread (fun _ => rfl)
    (fun q hq => by simp [desk, Listed, Shared.init, TaskPipe.init, TaskPipe.channelState] at hq)
    rfl rfl

theorem unnamed_step {c : Cmd} {r : c.Resp} (hd : ∀ id, ¬Listed id "" s) (hok : Ok c (phase (own i tr)))
    (he : c.exec s = some (r, s')) (id : String) : ¬Listed id "" s' := by
  intro hlisted
  cases hq : c.quiet with
  | true => exact hd id (((exec_frame hq he).listed id "").mp hlisted)
  | false =>
      cases c
      case addTask channel taskId cmd =>
          rcases ((exec_addTask he).2 id "").mp hlisted with hmem | ⟨heq, -⟩
          · exact hd id hmem
          · exact hok.1 heq.symm
      case addRecording channel taskId =>
          rcases ((exec_addRecording he).2 id "").mp hlisted with hmem | ⟨heq, -⟩
          · exact hd id hmem
          · exact hok.1 heq.symm
      case takeSnapshot msg pick =>
          obtain ⟨-, ⟨-, hkeep⟩ | ⟨channel, taskId, -, -, hkeep⟩⟩ := exec_takeSnapshot hd he
          · exact hd id ((hkeep id "").1 hlisted)
          · exact hd id ((hkeep id "").mp hlisted).1
      case release channel taskId => exact hd id (((exec_release he).2 id "").mp hlisted).1
      case eraseChannel channel => exact hd id (((exec_eraseChannel he).2 id "").mp hlisted).1
      case send m =>
          cases he
          exact hd id hlisted
      case failAll errorType errorMessage => exact (exec_failAll he).1 id "" hlisted
      all_goals cases hq

theorem sound_step {c : Cmd} {r : c.Resp} (hd : Desks s tr) (hok : Ok c (phase (own i tr)))
    (hg : Careful c (phase (own i tr)) s tr) (he : c.exec s = some (r, s'))
    (hclaimed : Claimed taskId (⟨i, c, r, s⟩ :: tr)) : (desk taskId s' (⟨i, c, r, s⟩ :: tr)).Sound := by
  have hbefore := hclaimed.of_cons
  have hsound := hd.sound taskId hbefore
  cases c
  case receive msg => exact sound_receive hsound hok he hclaimed
  case connect ok => exact sound_connect hsound hg he hbefore
  case addTask channel id cmd =>
      obtain ⟨hsent, hlisted⟩ := exec_addTask he
      exact sound_register hsound (by simp) hok.2 rfl hlisted hsent
  case addRecording channel id =>
      obtain ⟨hsent, hlisted⟩ := exec_addRecording he
      exact sound_register hsound (by simp) hok.2 rfl hlisted hsent
  case startSnapshot ok => exact sound_startSnapshot hsound hok hg he hbefore
  case startRecording id ok =>
      refine sound_unstarted hsound (by simp) (exec_frame rfl he) he hok ?_ hg hbefore
      cases r with
      | true => exact .inl rfl
      | false => exact .inr rfl
  case startStreaming ok =>
      refine sound_unstarted hsound (by simp) (exec_frame rfl he) he hok ?_ hg hbefore
      cases r with
      | true => exact .inl rfl
      | false => exact .inr rfl
  case takeSnapshot msg pick => exact sound_takeSnapshot hd.unnamed hsound hok he hg hbefore
  case findRecording msg pick =>
      have hframe := exec_frame rfl he
      have hfind : TaskPipe.findRecording s.pipe msg pick = r := (Prod.mk.inj (Option.some.inj he)).1
      cases r with
      | none => exact sound_frame hsound (by simp) hframe rfl
      | some found =>
          exact sound_take hsound (by simp) hframe he hok rfl (.inr ⟨_, rfl, listed_of_findRecording hfind⟩) hg hbefore
  case findStreaming msg pick =>
      have hframe := exec_frame rfl he
      have hfind : TaskPipe.findStreaming s.pipe msg pick = r := (Prod.mk.inj (Option.some.inj he)).1
      cases r with
      | none => exact sound_frame hsound (by simp) hframe rfl
      | some found =>
          exact sound_take hsound (by simp) hframe he hok rfl (.inr ⟨_, rfl, listed_of_findStreaming hfind⟩) hg hbefore
  case reachDuration =>
      have hframe := exec_frame rfl he
      cases r with
      | none => exact sound_frame hsound (by simp) hframe rfl
      | some id => exact sound_take hsound (by simp) hframe he hok rfl (.inl rfl) hg hbefore
  case findTask id pick => exact sound_findTask hd.unnamed hsound hok he hg hbefore
  case release channel id => exact sound_release hsound hok he
  case eraseChannel channel => exact sound_eraseChannel hsound hg he hbefore
  case send m => exact sound_send hsound hok he
  case failAll errorType errorMessage => exact sound_failAll hsound hg he hbefore
  all_goals
    have hframe := exec_frame rfl he
    exact sound_frame hsound (by simp) hframe rfl

theorem desks_inductive : Inductive careful (fun c h => Ok c (phase h)) Desks where
  cmd hd hg hok he := ⟨unnamed_step hd.unnamed hok he, fun _ hclaimed => sound_step hd hok hg he hclaimed⟩
  env {e} := nomatch e

/-- 引き受けたスレッドは、まだ動いている。 -/
theorem inHand_of_held {p : Pool machine} (hrun : Run careful (.start s) p)
    (htid : ∀ e ∈ p.trace, e.tid < p.threads.length) (h : Held taskId p.trace) : InHand taskId p := by
  obtain ⟨i, hi⟩ := h
  have hlt : i < p.threads.length := by
    by_contra hge
    rw [own_eq_nil fun e he heq => hge (by rw [← heq]; exact htid e he)] at hi
    cases hi
  cases ht : p.threads[i] with
  | ret =>
      have hend := hrun.thread (fun _ hk => bodies hk) (List.getElem?_eq_some_iff.mpr ⟨hlt, ht⟩)
      have hnone : (phase (own i p.trace)).holder = none := hend
      rw [hi] at hnone
      cases hnone
  | call c k => exact ⟨i, c, k, List.getElem?_eq_some_iff.mpr ⟨hlt, ht⟩, hi⟩

theorem bodies_ok : Bodies careful fun c h => Ok c (phase h) :=
  fun _ hk => (bodies hk).mono (fun _ _ h => h) fun _ _ _ => trivial

theorem held_iff_mem : Held taskId tr ↔ ∃ e ∈ tr, (phase (own e.tid tr)).holder = some taskId := by
  have hnil : (phase []).holder ≠ some taskId := by simp [Prog.summary, Phase.holder]
  have h : (∀ i, (phase (own i tr)).holder ≠ some taskId) ↔ (phase []).holder ≠ some taskId ∧
    ∀ e ∈ tr, (phase (own e.tid tr)).holder ≠ some taskId := forall_own (P := fun h => (phase h).holder ≠ some taskId)
  simp only [hnil, ne_eq, not_false_eq_true, true_and] at h
  simpa [Held] using not_congr h

instance : Decidable (Held taskId tr) := decidable_of_iff _ held_iff_mem.symm

instance : Decidable (Claimed taskId tr) := inferInstanceAs (Decidable (_ ∧ _ ∧ _))

theorem careful_iff {c : Cmd} {phase : Phase} : Careful c phase s tr ↔
    (∀ taskId ∈ unconnected s c phase, ¬Claimed taskId tr) ∧
      (∀ taskId ∈ taken phase s c, Claimed taskId tr → Active taskId s ∧ ¬Held taskId tr) ∧
        (∀ taskId ∈ dropped s c phase, Claimed taskId tr → Held taskId tr) ∧
          ∀ taskId ∈ failed s c, Claimed taskId tr → ¬Held taskId tr :=
  ⟨fun h => ⟨h.connects, h.takes, h.drops, h.fails⟩, fun h => ⟨h.1, h.2.1, h.2.2.1, h.2.2.2⟩⟩

instance {k} : Decidable (careful.call k) := inferInstanceAs (Decidable (knownActions k))

instance {i c s tr} : Decidable (careful.cmd i c s tr) := decidable_of_iff _ careful_iff.symm

/-- 録画が長さに達して終わった後に、停止が届く。 -/
def stopAfterDuration : List (Move machine) :=
  .spawn (.threadFunc [(recordCommand .start, {}), (recordCommand .stop, {})]) :: List.replicate 8 (.run 0 ()) ++
    .spawn (.recordingThread {}) :: List.replicate 12 (.run 1 ()) ++ List.replicate 2 (.run 0 ())

end RtcEgress.Worker.Threads
