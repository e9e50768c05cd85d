import RtcEgress.Upload.Sessions

/-!
# タスクの文書

`RecordingSink` と `SnapshotSink` は、初期化の時刻でファイルの名前の頭を作り、ファイルを加えるときに渡す。`startSession` は、
始めた時刻で別に作り、終わりまで使う。
-/

namespace RtcEgress.Upload.MetadataManager

open RtcEgress.Lib
open RtcEgress.Queue (Json)

/-! ## タスクの実行 -/

/-- ファイルを一つ書き終えて、表に加えること。 -/
structure Completion where
  fileInfo : FileInfo
  written : Bool
  disk : String → FileState
  clock : Nat → TimePoint

/-- 初期化から停止まで。出力先とタスクの名前は、空なら初期化に失敗するか、文書を作らない。 -/
structure TaskRun where
  host : Host
  taskId : String
  outputDir : String
  session : TaskSession
  initializedAt : TimePoint
  startWritten : Bool
  startClock : Nat → TimePoint
  completions : List Completion
  stopWritten : Bool
  stopDisk : String → FileState
  stopClock : Nat → TimePoint
  taskId_ne : taskId ≠ ""
  outputDir_ne : outputDir ≠ ""
  session_files : session.files = []

namespace TaskRun

variable (r : TaskRun)

/-- `initialize` が作る `currentOutputFilePrefix_`。 -/
def currentOutputFilePrefix : String := generateOutputFilePrefixWithoutLock r.host r.taskId r.initializedAt

def start : Manager := ({} : Manager).startSession r.host r.taskId r.session r.outputDir r.startWritten r.startClock

def append (m : Manager) (c : Completion) : Manager :=
  (m.appendFileToMetadata r.taskId c.fileInfo (r.outputDir ++ "/" ++ r.currentOutputFilePrefix) c.written c.disk c.clock).2

def appended : Manager := r.completions.foldl r.append r.start

/-- 停止した後の文書。 -/
def stopped : Manager := (r.appended.endSession r.host r.taskId "normal" r.stopWritten r.stopDisk r.stopClock).2

end TaskRun

/-- 文書の `files` の一つの名前。 -/
def nameOf : Json → Option String
  | .obj fields => match fields.lookup "filename" with
    | some (.str name) => some name
    | _ => none
  | _ => none

/-- 文書が並べるファイルの名前。 -/
def listedFiles : Json → List String
  | .obj fields => match fields.lookup "files" with
    | some (.arr files) => files.filterMap nameOf
    | _ => []
  | _ => []

/-- 保存はすべて同じパスに行われ、停止の後には一つの文書だけがあり、加えたファイルをすべて並べる。 -/
structure TaskRun.OneDocument (r : TaskRun) : Prop where
  samePath : ∀ p ∈ r.stopped.saves, ∀ q ∈ r.stopped.saves, p = q
  document : ∃ path doc, r.stopped.documents.keys = [path] ∧ r.stopped.documents.lookup path = some doc ∧
    ∀ c ∈ r.completions, c.fileInfo.filename ∈ listedFiles doc

/-- 書き込みに成功した最後の保存までに加えた名前と、加えた名前の全体。 -/
def Completion.track (acc : Option (List String) × List String) (c : Completion) : Option (List String) × List String :=
  let names := c.fileInfo.filename :: acc.2
  (if c.written then some names else acc.1, names)

def TaskRun.tracked (r : TaskRun) : Option (List String) × List String :=
  r.completions.foldl Completion.track (if r.startWritten then some [] else none, [])

/-- 加えた名前は、どれも、書き込みに成功した最後の保存までに加わる。 -/
def TaskRun.WritesAll (r : TaskRun) : Prop :=
  ∃ names ∈ (if r.stopWritten then some r.tracked.2 else r.tracked.1), ∀ c ∈ r.completions, c.fileInfo.filename ∈ names

/-! ## 文書の中の名前 -/

theorem listedFiles_serializeSession (session : TaskSession) :
    listedFiles (serializeSession session) = session.files.map (·.filename) := by
  have hfields : (sessionFields session).lookup "files" = some (.arr (session.files.map serializeFileInfo)) := by
    unfold sessionFields
    cases session.sessionCompleted <;> rfl
  have hname (file : FileInfo) : nameOf (serializeFileInfo file) = some file.filename := rfl
  simp only [listedFiles, serializeSession, hfields, List.filterMap_map]
  rw [← List.filterMap_eq_map]
  exact List.filterMap_congr fun file _ => hname file

/-- 文書は、`path` に一つだけあり、ちょうど `written` の名前を並べる。`none` なら、まだない。 -/
def Documented (documents : AList fun _ : String => Json) (path : String) : Option (List String) → Prop
  | none => documents = ∅
  | some names => documents.keys = [path] ∧
      ∃ doc, documents.lookup path = some doc ∧ ∀ name, name ∈ listedFiles doc ↔ name ∈ names

theorem Documented.insert {documents : AList fun _ : String => Json} {path : String} {written : Option (List String)}
    (h : Documented documents path written) {doc : Json} {names : List String}
    (hdoc : ∀ name, name ∈ listedFiles doc ↔ name ∈ names) : Documented (documents.insert path doc) path (some names) := by
  refine ⟨?_, doc, AList.lookup_insert _, hdoc⟩
  rw [AList.keys_insert]
  cases written with
  | none =>
      obtain rfl := h
      rfl
  | some names => simp [h.1]

namespace TaskRun

variable (r : TaskRun)

/-- 始めた時刻で作るパス。 -/
def startPath : String :=
  generateMetadataPathWithoutLock (r.outputDir ++ "/" ++ generateOutputFilePrefixWithoutLock r.host r.taskId (r.startClock 2))

/-- ファイルを加えるときに渡すパス。 -/
def appendPath : String := generateMetadataPathWithoutLock (r.outputDir ++ "/" ++ r.currentOutputFilePrefix)

/-- 二つのパスの違いは、日時だけである。 -/
theorem appendPath_eq_iff : r.appendPath = r.startPath ↔
    formatDateTimePrefix r.host r.initializedAt = formatDateTimePrefix r.host (r.startClock 2) := by
  simp only [appendPath, startPath, currentOutputFilePrefix, generateMetadataPathWithoutLock,
    generateOutputFilePrefixWithoutLock, ← String.toList_inj, String.toList_append, List.append_assoc,
    List.append_cancel_left_eq, List.append_cancel_right_eq]

/-- セッションは始めた時刻のパスを持ち、加えた名前を並べる。 -/
def Recording (m : Manager) (names : List String) : Prop :=
  ∃ s, m.activeSessions.lookup r.taskId = some s ∧ generateMetadataPathWithoutLock s.outputFilePrefix = r.startPath ∧
    ∀ name, name ∈ s.core.entries.map Prod.fst ↔ name ∈ names

variable {r}

theorem recording_start : r.Recording r.start [] ∧ r.start.saves = [r.startPath] ∧
    Documented r.start.documents r.startPath (if r.startWritten then some [] else none) := by
  have hdir := r.outputDir_ne
  have hfiles := r.session_files
  refine ⟨?_, ?_, ?_⟩
  · unfold Recording start Manager.startSession
    rw [if_neg hdir]
    refine ⟨_, AList.lookup_insert _, rfl, fun name => ?_⟩
    simp [Session.core, Session.addAuditEntryWithoutLock, entries, hfiles]
  · unfold start Manager.startSession
    rw [if_neg hdir]
    rfl
  · unfold start Manager.startSession
    rw [if_neg hdir]
    cases hwritten : r.startWritten with
    | false => rfl
    | true =>
        have hempty : Documented ∅ r.startPath none := rfl
        refine hempty.insert fun name => ?_
        simp [listedFiles_serializeSession, Session.addAuditEntryWithoutLock, hfiles]

theorem Recording.append {m : Manager} {names : List String} (h : r.Recording m names) (c : Completion) :
    r.Recording (r.append m c) (c.fileInfo.filename :: names) ∧ (r.append m c).saves = m.saves ++ [r.appendPath] ∧
      ∀ written, r.appendPath = r.startPath → Documented m.documents r.startPath written →
        Documented (r.append m c).documents r.startPath
          (if c.written then some (c.fileInfo.filename :: names) else written) := by
  obtain ⟨s, hlookup, hpath, hnames⟩ := h
  have hadd := Session.core_addNewFileWithoutLock s c.fileInfo c.clock
  have hmem (name : String) : name ∈ (s.addNewFileWithoutLock c.fileInfo c.clock).core.entries.map Prod.fst ↔
      name ∈ c.fileInfo.filename :: names := by
    rw [hadd, Session.mem_addNewFile, hnames, List.mem_cons]
  unfold TaskRun.append Manager.appendFileToMetadata
  simp only [hlookup]
  refine ⟨⟨_, AList.lookup_insert _, ?_, fun name => ?_⟩, rfl, fun written hsame hdocs => ?_⟩
  · rw [← hpath]
    have hproject (t : Session) : t.outputFilePrefix = t.core.outputFilePrefix := rfl
    rw [hproject, hproject s]
    rcases Session.core_completeSegment (s.addNewFileWithoutLock c.fileInfo c.clock) _ c.fileInfo c.disk c.clock with
      hcore | hcore
    · rw [hcore, hadd, Session.outputFilePrefix_addNewFile]
    · rw [hcore, hadd, Session.outputFilePrefix_markComplete, Session.outputFilePrefix_addNewFile]
  · rw [← hmem]
    rcases Session.core_completeSegment (s.addNewFileWithoutLock c.fileInfo c.clock) _ c.fileInfo c.disk c.clock with
      hcore | hcore
    · rw [hcore]
    · rw [hcore, Session.fst_markComplete]
  · cases hwritten : c.written with
    | false => exact hdocs
    | true =>
        simp only [Manager.saveSessionMetadataWithoutLock, if_true]
        rw [show generateMetadataPathWithoutLock (r.outputDir ++ "/" ++ r.currentOutputFilePrefix) = r.startPath from hsame]
        refine hdocs.insert fun name => ?_
        rw [listedFiles_serializeSession, ← Session.fst_entries]
        exact hmem name

/-- 停止は、始めた時刻のパスに保存する。 -/
theorem Recording.stop {m : Manager} {names : List String} (h : r.Recording m names) :
    (m.endSession r.host r.taskId "normal" r.stopWritten r.stopDisk r.stopClock).2.saves = m.saves ++ [r.startPath] ∧
      ∀ written, Documented m.documents r.startPath written →
        Documented (m.endSession r.host r.taskId "normal" r.stopWritten r.stopDisk r.stopClock).2.documents r.startPath
          (if r.stopWritten then some names else written) := by
  obtain ⟨s, hlookup, hpath, hnames⟩ := h
  have hcore := (Session.core_validateAllFilesIntegrityWithoutLock (s.finish r.host "normal" r.stopClock) r.stopDisk
    fun i => r.stopClock (i + 2)).trans (Session.core_finish r.host s "normal" r.stopClock)
  have hstart : generateMetadataPathWithoutLock ((s.finish r.host "normal" r.stopClock).validateAllFilesIntegrityWithoutLock
      r.stopDisk fun i => r.stopClock (i + 2)).outputFilePrefix = r.startPath := by
    rw [← hpath]
    exact congrArg (fun c => generateMetadataPathWithoutLock c.outputFilePrefix) hcore
  unfold Manager.endSession
  simp only [hlookup, Manager.saveSessionMetadataWithoutLock, hstart]
  refine ⟨trivial, fun written hdocs => ?_⟩
  cases r.stopWritten with
  | false => exact hdocs
  | true =>
      refine hdocs.insert fun name => ?_
      rw [listedFiles_serializeSession, ← Session.fst_entries, hcore]
      exact hnames name

/-- ファイルを順に加えるあいだ、記録は続く。 -/
theorem Recording.foldl (cs : List Completion) {m : Manager} (acc : Option (List String) × List String)
    (h : r.Recording m acc.2) :
    r.Recording (cs.foldl r.append m) (cs.foldl Completion.track acc).2 ∧
      (cs.foldl r.append m).saves = m.saves ++ cs.map (fun _ => r.appendPath) ∧
      (cs = [] ∨ r.appendPath = r.startPath → Documented m.documents r.startPath acc.1 →
        Documented (cs.foldl r.append m).documents r.startPath (cs.foldl Completion.track acc).1) := by
  induction cs generalizing m acc with
  | nil => exact ⟨h, by simp, fun _ hdocs => hdocs⟩
  | cons c cs ih =>
      obtain ⟨hrec, hsaves, hdocs⟩ := h.append c
      obtain ⟨hrec', hsaves', hdocs'⟩ := ih (Completion.track acc c) hrec
      refine ⟨hrec', ?_, fun hsame hdoc => ?_⟩
      · rw [List.foldl_cons, hsaves', hsaves, List.map_cons, List.append_assoc, List.singleton_append]
      · have hpath : r.appendPath = r.startPath := hsame.resolve_left (by simp)
        exact hdocs' (.inr hpath) (hdocs acc.1 hpath hdoc)

/-- 停止した後の保存と文書。 -/
theorem stopped_spec : r.stopped.saves = r.startPath :: (r.completions.map (fun _ => r.appendPath) ++ [r.startPath]) ∧
    (r.completions = [] ∨ r.appendPath = r.startPath → Documented r.stopped.documents r.startPath
      (if r.stopWritten then some r.tracked.2 else r.tracked.1)) := by
  obtain ⟨hrec, hsaves, hdocs⟩ := recording_start (r := r)
  obtain ⟨hrec', hsaves', hdocs'⟩ := Recording.foldl r.completions (if r.startWritten then some [] else none, []) hrec
  obtain ⟨hsaves'', hdocs''⟩ := hrec'.stop
  constructor
  · rw [stopped, appended, hsaves'', hsaves', hsaves, List.append_assoc, List.singleton_append]
  · exact fun hsame => hdocs'' _ (hdocs' hsame hdocs)

/-- 保存するパスは、始めるときと終えるときのものと、ファイルを加えるときのものとである。 -/
theorem samePath_iff : (∀ p ∈ r.stopped.saves, ∀ q ∈ r.stopped.saves, p = q) ↔
    r.completions = [] ∨ r.appendPath = r.startPath := by
  rw [stopped_spec.1]
  cases r.completions with
  | nil => simp
  | cons c cs =>
      simp only [reduceCtorEq, false_or]
      constructor
      · exact fun h => h r.appendPath (by simp) r.startPath (by simp)
      · intro h p hp q hq
        simp only [List.map_cons, List.mem_cons, List.mem_append, List.mem_map, List.not_mem_nil, or_false, h] at hp hq
        have hall {p : String} (hp : p = r.startPath ∨ (p = r.startPath ∨ ∃ c ∈ cs, r.startPath = p) ∨ p = r.startPath) :
            p = r.startPath := by
          rcases hp with hp | (hp | ⟨-, -, hp⟩) | hp
          · exact hp
          · exact hp
          · exact hp.symm
          · exact hp
        exact (hall hp).trans (hall hq).symm

/-- 主な結果。文書が一つになるのは、日時が始めるまでに変わらないか、ファイルを加えず、また、加えた名前がすべて書かれたときに
限る。 -/
theorem oneDocument_iff (r : TaskRun) : r.OneDocument ↔
    (r.completions = [] ∨
      formatDateTimePrefix r.host r.initializedAt = formatDateTimePrefix r.host (r.startClock 2)) ∧ r.WritesAll := by
  have hpaths := samePath_iff (r := r)
  have hdocs := (stopped_spec (r := r)).2
  rw [← appendPath_eq_iff]
  constructor
  · rintro ⟨hsame, path, doc, hkeys, hlookup, hlisted⟩
    have hpath := hpaths.mp hsame
    refine ⟨hpath, ?_⟩
    have hdocs := hdocs hpath
    unfold WritesAll
    cases hwritten : (if r.stopWritten then some r.tracked.2 else r.tracked.1) with
    | none =>
        rw [hwritten] at hdocs
        rw [show r.stopped.documents = ∅ from hdocs] at hkeys
        cases hkeys
    | some names =>
        rw [hwritten] at hdocs
        obtain ⟨hkeys', doc', hlookup', hnames⟩ := hdocs
        obtain rfl : r.startPath = path := by simpa [hkeys] using hkeys'.symm
        obtain rfl : doc = doc' := Option.some.inj (hlookup.symm.trans hlookup')
        exact ⟨names, rfl, fun c hc => (hnames _).mp (hlisted c hc)⟩
  · rintro ⟨hpath, names, hwritten, hlisted⟩
    have hdocs := hdocs hpath
    rw [Option.mem_def.mp hwritten] at hdocs
    obtain ⟨hkeys, doc, hlookup, hnames⟩ := hdocs
    exact ⟨hpaths.mpr hpath, r.startPath, doc, hkeys, hlookup, fun c hc => (hnames _).mpr (hlisted c hc)⟩

end TaskRun

/-- 世界時の `localtime`。 -/
def utc (seconds : Nat) : Tm :=
  let date := Rfc3339.civil (seconds / 86400)
  let ofDay := seconds % 86400
  ⟨date.1, date.2.1, date.2.2, ofDay / 3600, ofDay / 60 % 60, ofDay % 60⟩

/-- 初期化の一秒後に始め、静止画を一枚書いて止める。どの書き込みも成功する。 -/
def lateStart : TaskRun where
  host := { localtime := utc, divide := fun _ _ => none, showDouble := fun _ => "0" }
  taskId := "task"
  outputDir := "snapshots"
  session := { taskId := "task" }
  initializedAt := 0
  startWritten := true
  startClock := fun _ => 1000000000
  completions :=
    [{ fileInfo := { filename := "a.jpg", fullPath := "snapshots/a.jpg", type := .jpeg }
       written := true
       disk := fun _ => ⟨true, 0, "00"⟩
       clock := fun _ => 2000000000 }]
  stopWritten := true
  stopDisk := fun _ => ⟨true, 0, "00"⟩
  stopClock := fun _ => 3000000000
  taskId_ne := by decide
  outputDir_ne := by decide
  session_files := rfl

/-- 一秒ずれるだけで、文書は二つになる。 -/
theorem not_oneDocument : ¬∀ r : TaskRun, r.OneDocument := by
  intro h
  have hsame := (h lateStart).samePath lateStart.startPath
    (by simp [TaskRun.stopped_spec.1]) lateStart.appendPath (by simp [TaskRun.stopped_spec.1, lateStart])
  have hdate := lateStart.appendPath_eq_iff.mp hsame.symm
  revert hdate
  decide

end RtcEgress.Upload.MetadataManager
