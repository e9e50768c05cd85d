import RtcEgress.Message.Lemmas.Accepted

/-!
# 要求の利用者と、伝言の利用者

検査は `users` がなければ `uid` を調べるが、伝言の組み立ては `users` だけを読む。`users` が空の配列なら、どちらも `uid` を
読まない。一つの文字列の `users` は、検査されずに伝言に入る。ワーカーは、空の利用者をすべての利用者と読む。
-/

namespace RtcEgress.Message

open RtcEgress.Lib RtcEgress.Queue

/-- 欄 `key` が挙げる名前。 -/
def namesUnder (payload : Payload) (key : String) : List String := ((value? payload key).map uidOf).getD []

/-- 要求が挙げた利用者。`users` が名前を挙げなければ、`uid` の名前である。 -/
def namedUsers (payload : Payload) : List String :=
  if namesUnder payload "users" = [] then namesUnder payload "uid" else namesUnder payload "users"

/-- 伝言の利用者は、要求が挙げた名前であり、どれも検査に通る。 -/
structure UsersRecorded (payload : Payload) (m : UDSMessage) : Prop where
  same : m.uid = namedUsers payload
  valid : ∀ uid ∈ m.uid, isValidUID uid = true
  count : m.uid.length ≤ 32

/-- ワーカーの `shouldRecordUser` と `shouldCaptureUser`。 -/
def shouldRecordUser (targetUsers : List String) (userId : String) : Bool :=
  targetUsers.isEmpty || userId ∈ targetUsers

/-- 名前を挙げた要求では、ワーカーは挙げられた利用者だけを録る。 -/
theorem UsersRecorded.shouldRecordUser_iff {payload : Payload} {m : UDSMessage} (h : UsersRecorded payload m)
    (hnames : namedUsers payload ≠ []) (userId : String) :
    shouldRecordUser m.uid userId = true ↔ userId ∈ namedUsers payload := by
  simp [shouldRecordUser, h.same, hnames]

/-! ## 検査した名前 -/

theorem validateUID_eq_none {i : Nat} {uid : String} : validateUID i uid = none ↔ isValidUID uid = true := by
  simp only [validateUID, isValidUID, ite_some_eq_none, Bool.and_eq_true, decide_eq_true_eq]
  constructor
  · rintro ⟨hne, hlen, h⟩
    refine ⟨⟨by simpa using hne, by omega⟩, ?_⟩
    by_contra hall
    simp [hall] at h
  · rintro ⟨⟨hne, hlen⟩, hall⟩
    exact ⟨by simpa using hne, by omega, by simp [hall]⟩

/-- 検査した配列は、通った名前の列である。 -/
theorem validateUIDs_eq_none {i : Nat} {xs : List Json} (h : validateUIDs i xs = none) :
    (∀ uid ∈ uidOf (.arr xs), isValidUID uid = true) ∧ (uidOf (.arr xs)).length = xs.length := by
  induction xs generalizing i with
  | nil => simp [uidOf]
  | cons x xs ih =>
      cases x with
      | str uid =>
          simp only [validateUIDs, Option.or_eq_none_iff, validateUID_eq_none] at h
          obtain ⟨hvalid, hlen⟩ := ih h.2
          simp only [uidOf] at hvalid hlen
          simp only [uidOf, List.filterMap_cons, List.mem_cons, List.length_cons]
          exact ⟨fun u hu => hu.elim (fun he => he ▸ h.1) (hvalid u), by omega⟩
      | _ => simp [validateUIDs] at h

/-- 検査を通った値の挙げる名前。配列でない値は、名前を一つまでしか挙げない。 -/
theorem StartAccepted.uidOf_valid {payload : Payload} {requestID cmd : String}
    (h : StartAccepted requestID cmd payload) {v : Json} (hv : usersField payload = some v)
    (hs : ∀ s, v = .str s → isValidUID s = true) :
    (∀ uid ∈ uidOf v, isValidUID uid = true) ∧ (uidOf v).length ≤ 32 := by
  have hcount := h.userCount
  have husers := h.users
  rw [hv] at hcount husers
  cases v with
  | arr xs =>
      obtain ⟨hvalid, hlen⟩ := validateUIDs_eq_none husers
      simp only [validateUserCount, ite_some_eq_none] at hcount
      exact ⟨hvalid, by omega⟩
  | str s =>
      by_cases he : s = ""
      · simp [uidOf, he]
      · simp [uidOf, he, hs s rfl]
  | _ => simp [uidOf]

/-! ## 伝言の利用者 -/

/-- `users` が、空でない配列か、検査に通る一つの名前である。 -/
def UsersGiven (payload : Payload) : Prop :=
  (∃ xs, value? payload "users" = some (.arr xs) ∧ xs ≠ []) ∨
    ∃ s, value? payload "users" = some (.str s) ∧ isValidUID s = true

/-- `users` が名前を挙げたなら、要求が挙げた利用者はその名前である。 -/
theorem namedUsers_of_users {payload : Payload} {v : Json} (hu : value? payload "users" = some v) (hne : uidOf v ≠ []) :
    namedUsers payload = uidOf v := by
  simp [namedUsers, namesUnder, hu, hne]

/-- 検査を通った配列は、空でなければ名前を挙げる。 -/
theorem StartAccepted.uidOf_ne_nil {payload : Payload} {requestID cmd : String} (h : StartAccepted requestID cmd payload)
    {xs : List Json} (hv : usersField payload = some (.arr xs)) (hne : xs ≠ []) : uidOf (.arr xs) ≠ [] := by
  have husers := h.users
  rw [hv] at husers
  obtain ⟨-, hlen⟩ := validateUIDs_eq_none husers
  exact List.ne_nil_of_length_pos (hlen ▸ List.length_pos_iff.mpr hne)

theorem usersRecorded_iff_of_accepted {payload : Payload} {requestID cmd : String} {m : UDSMessage}
    (h : StartAccepted requestID cmd payload) (hm : m.uid = buildUid payload) (hnames : namedUsers payload ≠ []) :
    UsersRecorded payload m ↔ UsersGiven payload := by
  constructor
  · -- 伝言に入る名前は `users` のものだけなので、`users` が名前を挙げている。
    intro hrecorded
    have hne : buildUid payload ≠ [] := by
      rw [← hm, hrecorded.same]
      exact hnames
    cases hu : value? payload "users" with
    | none => simp [buildUid, hu] at hne
    | some v =>
        have huid : m.uid = uidOf v := by simp [hm, buildUid, hu]
        simp only [buildUid, hu, Option.map_some, Option.getD_some] at hne
        cases v with
        | arr xs => exact .inl ⟨xs, hu, fun hnil => hne (by simp [hnil, uidOf])⟩
        | str s =>
            have hs : s ≠ "" := fun hempty => hne (by simp [hempty, uidOf])
            exact .inr ⟨s, hu, hrecorded.valid s (by simp [huid, uidOf, hs])⟩
        | _ => simp [uidOf] at hne
  · intro hgiven
    obtain ⟨v, hu, hne, hs⟩ : ∃ v, value? payload "users" = some v ∧ uidOf v ≠ [] ∧ ∀ s, v = .str s → isValidUID s = true := by
      rcases hgiven with ⟨xs, hu, hne⟩ | ⟨s, hu, hvalid⟩
      · exact ⟨.arr xs, hu, h.uidOf_ne_nil (by simp [usersField, hu]) hne, by simp⟩
      · have hs : s ≠ "" := by
          rintro rfl
          simp [isValidUID] at hvalid
        exact ⟨.str s, hu, by simp [uidOf, hs], by simpa using hvalid⟩
    have huid : m.uid = uidOf v := by simp [hm, buildUid, hu]
    obtain ⟨hvalid, hcount⟩ := h.uidOf_valid (by simp [usersField, hu]) hs
    exact ⟨huid.trans (namedUsers_of_users hu hne).symm, huid ▸ hvalid, huid ▸ hcount⟩

/-- 名前を挙げた要求の伝言に、検査した名前がそのまま入るのは、`users` が空でない配列か、検査に通る一つの名前のときである。 -/
theorem usersRecorded_iff {r r' : TaskRequest} {task : Task} {m : UDSMessage} (ha : r.action = "start")
    (hr : validateStartTaskRequest r = .ok r') (hp : task.payload = r'.payload)
    (hm : buildUDSMessageFromQueueTask task = .ok m) (hnames : namedUsers (r.payload.getD []) ≠ []) :
    UsersRecorded (r.payload.getD []) m ↔ UsersGiven (r.payload.getD []) := by
  obtain ⟨haccepted, rfl⟩ := (validateStartTaskRequest_start ha).mp hr
  obtain ⟨hassembled, -⟩ := buildUDSMessageFromQueueTask_eq_ok.mp hm
  rw [hp, Option.getD_some, assembled_withLayout] at hassembled
  exact usersRecorded_iff_of_accepted haccepted hassembled.uid hnames

/-! ## 例 -/

/-- 必要な欄に、利用者の欄を加えた要求の中身。 -/
def samplePayload (users : String) (value : Json) : Payload :=
  [("channel", .str "c1"), ("access_token", .str "0123456789"), ("workerUid", .num 42), (users, value)]

def sampleRequest (payload : Payload) : TaskRequest where
  requestID := "r1"
  cmd := "record"
  action := "start"
  payload := some payload

/-- 要求から公開された記録。 -/
def sampleTask (payload : Payload) : Task := .published "a1" "record" "start" "c1" "r1" (some (withLayout payload)) 0

/-- 配列で挙げた二人。 -/
def twoUsers : Payload := samplePayload "users" (.arr [.str "alice", .str "bob"])

theorem twoUsers_recorded : ∃ m, buildUDSMessageFromQueueTask (sampleTask twoUsers) = .ok m ∧
    (UsersRecorded twoUsers m ↔ UsersGiven twoUsers) := by
  obtain ⟨m, hm⟩ : ∃ m, buildUDSMessageFromQueueTask (sampleTask twoUsers) = .ok m := ⟨_, rfl⟩
  exact ⟨m, hm, usersRecorded_iff (r := sampleRequest twoUsers) rfl rfl rfl hm (by decide)⟩

/-- 古い欄 `uid` で挙げた一人。 -/
def legacyUser : Payload := samplePayload "uid" (.arr [.str "alice"])

/-- `uid` だけで挙げた利用者は、検査を通るが、伝言に入らない。 -/
theorem not_usersRecorded : (∃ r', validateStartTaskRequest (sampleRequest legacyUser) = .ok r' ∧
      (sampleTask legacyUser).payload = r'.payload) ∧
    ∃ m, buildUDSMessageFromQueueTask (sampleTask legacyUser) = .ok m ∧ namedUsers legacyUser ≠ [] ∧
      ¬UsersRecorded legacyUser m := by
  refine ⟨⟨_, rfl, rfl⟩, _, rfl, by decide, fun h => ?_⟩
  have huid := h.same
  revert huid
  decide

/-- 空の `users` に隠れた `uid` の利用者も、伝言に入らない。 -/
example : namedUsers (("uid", .arr [.str "alice"]) :: samplePayload "users" (.arr [])) = ["alice"] ∧
    buildUid (("uid", .arr [.str "alice"]) :: samplePayload "users" (.arr [])) = [] := by
  decide

end RtcEgress.Message
