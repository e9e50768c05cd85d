import RtcEgress.Lib.System
import RtcEgress.Upload.Sessions

/-!
# バイト数の合計

ファイルを加えること、置き換えること、完了の印を付けることが、それぞれ大きさを変える。置き換えだけは、合計を直さない。
-/

namespace RtcEgress.Upload.MetadataManager

open RtcEgress.Lib

/-! ## 操作 -/

/-- 一つのセッションに行う操作。大きさは `uint64_t` である。 -/
inductive FileOp where
  | append (fileInfo : FileInfo) (size_lt : fileInfo.sizeBytes < 2 ^ 64) (outputFilePrefix : String) (written : Bool)
      (disk : String → FileState) (clock : Nat → TimePoint)
  | complete (filename : String) (finalSize : Fin (2 ^ 64)) (duration : Double) (disk : String → FileState)
      (clock : Nat → TimePoint)

/-- タスク `taskId` のセッションに、操作を順に行う。 -/
abbrev fileTable (taskId : String) : System FileOp where
  State := Manager
  step
    | .append fileInfo _ outputFilePrefix written disk clock, m =>
        (m.appendFileToMetadata taskId fileInfo outputFilePrefix written disk clock).2
    | .complete filename finalSize duration disk clock, m =>
        match m.activeSessions.lookup taskId with
        | none => m
        | some session =>
            let session := (session.markFileCompleteWithoutLock filename finalSize duration disk clock).2
            { m with activeSessions := m.activeSessions.insert taskId session }

/-- 合計が、ファイルの大きさの和を 2^64 で割った余りに等しく、名前は重ならず、大きさは `uint64_t` に収まる。 -/
structure Session.Totalled (session : Session) : Prop where
  total : session.totalBytesGenerated = (session.files.map (·.sizeBytes)).sum % 2 ^ 64
  distinct : (session.files.map (·.filename)).Nodup
  bounded : ∀ file ∈ session.files, file.sizeBytes < 2 ^ 64

/-- 同じ名前のファイルを加え直すときは、大きさが変わらない。 -/
def KeepsSize (taskId : String) : (fileTable taskId).Condition
  | .append fileInfo _ _ _ _ _, m =>
      ∀ session ∈ m.activeSessions.lookup taskId, ∀ old ∈ findFile fileInfo.filename session.files,
        old.sizeBytes = fileInfo.sizeBytes
  | .complete .., _ => True

/-! ## 名前と大きさの列 -/

theorem lookup_cons_ne {filename : String} {e : String × Nat} (h : e.1 ≠ filename) (es : List (String × Nat)) :
    (e :: es).lookup filename = es.lookup filename := by
  obtain ⟨name, size⟩ := e
  have hbeq : (filename == name) = false := by simpa using Ne.symm h
  rw [List.lookup_cons, hbeq]

theorem lookup_cons_eq {filename : String} {e : String × Nat} (h : e.1 = filename) (es : List (String × Nat)) :
    (e :: es).lookup filename = some e.2 := by
  obtain ⟨name, size⟩ := e
  obtain rfl : name = filename := h
  exact List.lookup_cons_self

theorem sum_setSize {filename : String} {old : Nat} (size : Nat) {es : List (String × Nat)}
    (h : es.lookup filename = some old) :
    ((setSize filename size es).map Prod.snd).sum + old = (es.map Prod.snd).sum + size := by
  induction es with
  | nil => cases h
  | cons e es ih =>
      by_cases hname : e.1 = filename
      · rw [lookup_cons_eq hname] at h
        obtain rfl := Option.some.inj h
        simp only [setSize, hname, if_true, List.map_cons, List.sum_cons]
        omega
      · rw [lookup_cons_ne hname] at h
        simp only [setSize, hname, if_false, List.map_cons, List.sum_cons]
        have := ih h
        omega

theorem mem_setSize {filename : String} {size : Nat} {es : List (String × Nat)} {e : String × Nat}
    (h : e ∈ setSize filename size es) : e ∈ es ∨ e = (filename, size) := by
  induction es with
  | nil => cases h
  | cons d es ih =>
      by_cases hname : d.1 = filename
      · simp only [setSize, hname, if_true, List.mem_cons] at h ⊢
        tauto
      · simp only [setSize, hname, if_false, List.mem_cons] at h ⊢
        rcases h with h | h
        · exact .inl (.inl h)
        · exact (ih h).imp_left .inr

theorem lookup_setSize {filename : String} {old : Nat} (size : Nat) {es : List (String × Nat)}
    (h : es.lookup filename = some old) : (setSize filename size es).lookup filename = some size := by
  induction es with
  | nil => cases h
  | cons e es ih =>
      by_cases hname : e.1 = filename
      · simp only [setSize, hname, if_true]
        exact List.lookup_cons_self
      · rw [lookup_cons_ne hname] at h
        simp only [setSize, hname, if_false]
        rw [lookup_cons_ne hname]
        exact ih h

theorem setSize_self {filename : String} {size : Nat} {es : List (String × Nat)}
    (h : es.lookup filename = some size) : setSize filename size es = es := by
  induction es with
  | nil => rfl
  | cons e es ih =>
      by_cases hname : e.1 = filename
      · rw [lookup_cons_eq hname] at h
        simp only [setSize, hname, if_true]
        rw [← hname, ← Option.some.inj h]
      · rw [lookup_cons_ne hname] at h
        simp only [setSize, hname, if_false]
        rw [ih h]

theorem lookup_concat {filename : String} {size : Nat} {es : List (String × Nat)} (h : es.lookup filename = none) :
    (es ++ [(filename, size)]).lookup filename = some size := by
  simp [List.lookup_append, h]

theorem notMem_of_lookup_eq_none {filename : String} {es : List (String × Nat)} (h : es.lookup filename = none) :
    filename ∉ es.map Prod.fst := by
  rw [List.lookup_eq_none_iff] at h
  rintro hmem
  obtain ⟨e, he, rfl⟩ := List.mem_map.mp hmem
  simpa using h e he

/-! ## 各操作 -/

namespace Session.Core

/-- 合計が正しく、名前は重ならず、大きさは `uint64_t` に収まる。 -/
structure Totalled (c : Core) : Prop where
  total : c.totalBytesGenerated = (c.entries.map Prod.snd).sum % 2 ^ 64
  distinct : (c.entries.map Prod.fst).Nodup
  bounded : ∀ e ∈ c.entries, e.2 < 2 ^ 64

variable {c : Core} {filename : String} {size : Nat}

theorem Totalled.lookup_lt (h : c.Totalled) {old : Nat} (hold : c.entries.lookup filename = some old) : old < 2 ^ 64 := by
  obtain ⟨l₁, l₂, heq, -⟩ := List.lookup_eq_some_iff.mp hold
  exact h.bounded (filename, old) (by simp [heq])

/-- 大きさを置き換えても、名前と大きさの範囲は変わらない。 -/
theorem Totalled.setSize_iff (h : c.Totalled) (hsize : size < 2 ^ 64) {total : Nat} :
    ({ c with entries := setSize filename size c.entries, totalBytesGenerated := total } : Core).Totalled ↔
      total = ((setSize filename size c.entries).map Prod.snd).sum % 2 ^ 64 := by
  constructor
  · exact fun h' => h'.total
  · intro htotal
    refine ⟨htotal, ?_, fun e he => ?_⟩
    · rw [fst_setSize]
      exact h.distinct
    · rcases mem_setSize he with he | rfl
      · exact h.bounded e he
      · exact hsize

/-- 新しい名前の大きさは、合計に足す。 -/
theorem Totalled.concat (h : c.Totalled) (hsize : size < 2 ^ 64) (hlookup : c.entries.lookup filename = none) :
    ({ c with
      entries := c.entries ++ [(filename, size)]
      totalBytesGenerated := (c.totalBytesGenerated + size) % 2 ^ 64 } : Core).Totalled := by
  have htotal := h.total
  refine ⟨?_, ?_, ?_⟩
  · simp only [List.map_append, List.sum_append, List.map_cons, List.map_nil, List.sum_cons, List.sum_nil]
    omega
  · rw [List.map_append, List.nodup_append]
    refine ⟨h.distinct, List.nodup_singleton _, fun a ha b hb heq => ?_⟩
    obtain rfl : b = filename := by simpa using hb
    exact notMem_of_lookup_eq_none hlookup (heq ▸ ha)
  · intro e he
    rcases List.mem_append.mp he with he | he
    · exact h.bounded e he
    · obtain rfl : e = (filename, size) := by simpa using he
      exact hsize

/-- 置き換えで合計が正しいままなのは、大きさが同じときだけである。 -/
theorem Totalled.addNewFile_iff (h : c.Totalled) (hsize : size < 2 ^ 64) :
    (c.addNewFile filename size).Totalled ↔ ∀ old ∈ c.entries.lookup filename, old = size := by
  cases hlookup : c.entries.lookup filename with
  | some old =>
      have htotal := h.total
      have hold := h.lookup_lt hlookup
      have hsum := sum_setSize size hlookup
      have hcore : c.addNewFile filename size =
          { c with entries := setSize filename size c.entries, totalBytesGenerated := c.totalBytesGenerated } := by
        simp only [addNewFile, hlookup]
      rw [hcore, h.setSize_iff hsize]
      constructor
      · intro h' old' hold'
        obtain rfl := Option.some.inj hold'
        omega
      · intro heq
        have := heq old rfl
        omega
  | none =>
      simp only [Option.mem_def, reduceCtorEq, false_implies, implies_true, iff_true, addNewFile, hlookup]
      exact h.concat hsize hlookup

/-- 完了の印は、差を足すので、合計を保つ。 -/
theorem Totalled.markComplete (h : c.Totalled) (hsize : size < 2 ^ 64) : (c.markComplete filename size).Totalled := by
  have htotal := h.total
  cases hlookup : c.entries.lookup filename with
  | none => simpa only [Core.markComplete, hlookup] using h
  | some old =>
      simp only [Core.markComplete, hlookup]
      split_ifs with hpos
      · have hold := h.lookup_lt hlookup
        have hsum := sum_setSize size hlookup
        rw [h.setSize_iff hsize, addDifference]
        omega
      · exact h

/-- 加えたばかりの大きさで付ける完了の印は、何も変えない。 -/
theorem Totalled.markComplete_addNewFile (h : c.Totalled) (filename : String) (size : Nat) :
    (c.addNewFile filename size).markComplete filename size = c.addNewFile filename size := by
  have hlt : (c.addNewFile filename size).totalBytesGenerated < 2 ^ 64 := by
    have := h.total
    unfold addNewFile
    split
    · simp only
      omega
    · exact Nat.mod_lt _ (by decide)
  have hlookup : (c.addNewFile filename size).entries.lookup filename = some size := by
    unfold addNewFile
    split
    next old hold => exact lookup_setSize size hold
    next hnone => exact lookup_concat hnone
  simp only [Core.markComplete, hlookup]
  split_ifs with hpos
  · have hzero : addDifference (c.addNewFile filename size).totalBytesGenerated size size =
        (c.addNewFile filename size).totalBytesGenerated := by
      unfold addDifference
      omega
    rw [setSize_self hlookup, hzero]
  · rfl

end Session.Core

theorem Session.totalled_iff_core {session : Session} : session.core.Totalled ↔ session.Totalled := by
  constructor
  · rintro ⟨htotal, hdistinct, hbounded⟩
    exact ⟨by simpa [core, entries, Function.comp_def] using htotal,
      by simpa [core, entries, Function.comp_def] using hdistinct, by simpa [core, entries] using hbounded⟩
  · rintro ⟨htotal, hdistinct, hbounded⟩
    exact ⟨by simpa [core, entries, Function.comp_def] using htotal,
      by simpa [core, entries, Function.comp_def] using hdistinct, by simpa [core, entries] using hbounded⟩

/-! ## 操作の列 -/

def Manager.Totalled (taskId : String) (m : Manager) : Prop :=
  ∀ session ∈ m.activeSessions.lookup taskId, session.Totalled

section Runs

variable {taskId : String} {m : Manager} {session : Session}

theorem lookup_append_session (h : m.activeSessions.lookup taskId = some session) (hsession : session.core.Totalled)
    (fileInfo : FileInfo) (outputFilePrefix : String) (written : Bool) (disk : String → FileState)
    (clock : Nat → TimePoint) :
    ∃ session', (m.appendFileToMetadata taskId fileInfo outputFilePrefix written disk clock).2.activeSessions.lookup taskId =
        some session' ∧ session'.core = session.core.addNewFile fileInfo.filename fileInfo.sizeBytes := by
  simp only [Manager.appendFileToMetadata, h]
  refine ⟨_, AList.lookup_insert _, ?_⟩
  rcases Session.core_completeSegment (session.addNewFileWithoutLock fileInfo clock)
    (m.saveSessionMetadataWithoutLock (session.addNewFileWithoutLock fileInfo clock) outputFilePrefix written).1 fileInfo
    disk clock with hcore | hcore
  · rw [hcore, Session.core_addNewFileWithoutLock]
  · rw [hcore, Session.core_addNewFileWithoutLock, hsession.markComplete_addNewFile]

theorem totalled_step (op : FileOp) (m : Manager) (h : m.Totalled taskId) :
    Manager.Totalled taskId ((fileTable taskId).step op m) ↔ KeepsSize taskId op m := by
  cases hlookup : m.activeSessions.lookup taskId with
  | none =>
      cases op with
      | append fileInfo _ outputFilePrefix written disk clock =>
          simp [Manager.Totalled, KeepsSize, Manager.appendFileToMetadata, hlookup]
      | complete filename finalSize duration disk clock => simp [Manager.Totalled, KeepsSize, hlookup]
  | some session =>
      have hsession := Session.totalled_iff_core.mpr (h session hlookup)
      cases op with
      | append fileInfo hsize outputFilePrefix written disk clock =>
          obtain ⟨session', hlookup', hcore⟩ :=
            lookup_append_session hlookup hsession fileInfo outputFilePrefix written disk clock
          have hiff := @Session.Core.Totalled.addNewFile_iff _ fileInfo.filename _ hsession hsize
          have hold : session.core.entries.lookup fileInfo.filename =
              (findFile fileInfo.filename session.files).map (·.sizeBytes) := lookup_entries _ _
          rw [← hcore, hold] at hiff
          simp only [Manager.Totalled, KeepsSize, hlookup', hlookup, Option.mem_def, Option.some.injEq, forall_eq',
            ← Session.totalled_iff_core, hiff]
          simp
      | complete filename finalSize duration disk clock =>
          have hcomplete := @Session.Core.Totalled.markComplete _ filename _ hsession finalSize.isLt
          simp only [Manager.Totalled, KeepsSize, hlookup, AList.lookup_insert, Option.mem_def, Option.some.injEq,
            forall_eq', ← Session.totalled_iff_core, Session.core_markFileCompleteWithoutLock, iff_true]
          exact hcomplete

/-- 主な結果。ファイルのないセッションから始めて、どの操作の後にも合計が正しいのは、加え直すファイルの大きさが変わらない
ときに限る。 -/
theorem byteTotal_iff (h : m.activeSessions.lookup taskId = some session) (hfiles : session.files = [])
    (htotal : session.totalBytesGenerated = 0) (ops : List FileOp) :
    (fileTable taskId).AllMeet (fun op m => Manager.Totalled taskId ((fileTable taskId).step op m)) ops m ↔
      (fileTable taskId).AllMeet (KeepsSize taskId) ops m := by
  apply System.allMeet_step_iff totalled_step
  intro session' hsession'
  obtain rfl : session = session' := Option.some.inj (h.symm.trans hsession')
  exact ⟨by simp [hfiles, htotal], by simp [hfiles], by simp [hfiles]⟩

end Runs

def Manager.started (taskId : String) : Manager :=
  { activeSessions := (∅ : AList fun _ : String => Session).insert taskId { taskId } }

/-- 大きさ `sizeBytes` の TS のセグメントを、保存に成功して加える。 -/
def appendSegment (filename : String) (sizeBytes : Fin (2 ^ 64)) : FileOp :=
  .append { filename, fullPath := filename, type := .ts, sizeBytes } sizeBytes.isLt "out/task" true
    (fun _ => ⟨true, sizeBytes, "00"⟩) fun _ => 0

theorem repeatedSegment_totalled :
    (fileTable "task").AllMeet (fun op m => Manager.Totalled "task" ((fileTable "task").step op m))
        [appendSegment "segment_00001.ts" 10, appendSegment "segment_00001.ts" 10] (.started "task") ↔
      (fileTable "task").AllMeet (KeepsSize "task")
        [appendSegment "segment_00001.ts" 10, appendSegment "segment_00001.ts" 10] (.started "task") :=
  @byteTotal_iff "task" (.started "task") { taskId := "task" } rfl rfl rfl _

/-- 同じ名前のファイルを違う大きさで加え直すと、合計が前の大きさのままになる。 -/
theorem not_totalled : ¬∀ (taskId : String) (m : Manager) (session : Session) (ops : List FileOp),
    m.activeSessions.lookup taskId = some session → session.files = [] → session.totalBytesGenerated = 0 →
      (fileTable taskId).AllMeet (fun op m => Manager.Totalled taskId ((fileTable taskId).step op m)) ops m := by
  intro h
  have h := h "task" (.started "task") { taskId := "task" }
    [appendSegment "segment_00001.ts" 10, appendSegment "segment_00001.ts" 20] rfl rfl rfl
  have hkeeps := (totalled_step _ _ h.1).mp h.2.1 _ rfl _ rfl
  revert hkeeps
  decide

end RtcEgress.Upload.MetadataManager
