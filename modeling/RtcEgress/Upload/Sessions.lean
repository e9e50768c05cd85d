import RtcEgress.Lib.Assoc
import RtcEgress.Upload.MetadataManager

/-!
# `src/metadata_manager.cpp` のセッション

セッションのファイルの表の書き換えと、文書の保存を写す。ファイルの有無と大きさ、チェックサム、書き込みの成否は外から与える。
一つの呼び出しの中で `i` 番目に読む時刻を `clock i` とする。
-/

namespace RtcEgress.Upload.MetadataManager

open RtcEgress.Lib
open RtcEgress.Queue (Json)

/-- `localtime` の結果。 -/
structure Tm where
  year : Nat
  month : Nat
  day : Nat
  hour : Nat
  minute : Nat
  second : Nat

/-- C ライブラリの時刻の変換と、`double` の演算。 -/
structure Host where
  localtime : Nat → Tm
  divide : Double → Double → Double
  showDouble : Double → String

/-- ファイルシステムから読む、一つのパスの状態。`sha256` は、計算できなければ空である。 -/
structure FileState where
  present : Bool
  size : Nat
  sha256 : String

/-- 実行中のセッション。 -/
structure Session extends TaskSession where
  outputFilePrefix : String := ""

/-! ## ファイルの表 -/

/-- 名前の一致する始めのファイルを書き換える。 -/
def updateFile (filename : String) (f : FileInfo → FileInfo) : List FileInfo → List FileInfo
  | [] => []
  | info :: files => if info.filename = filename then f info :: files else info :: updateFile filename f files

def findFile (filename : String) (files : List FileInfo) : Option FileInfo := files.find? (·.filename = filename)

/-- 監査の記録の一行。 -/
def auditEntry (now : TimePoint) (operation details : String) : String :=
  formatTimestamp now ++ " [" ++ operation ++ "]" ++ (if details = "" then "" else " " ++ details)

/-- 長くなった記録の、最も古い行を除く。 -/
def pushEntry (limit : Nat) (log : List String) (entry : String) : List String :=
  let log := log ++ [entry]
  if limit < log.length then log.tail else log

namespace Session

def addAuditEntryWithoutLock (session : Session) (operation details : String) (now : TimePoint) : Session :=
  { session with sessionAuditLog := pushEntry 1000 session.sessionAuditLog (auditEntry now operation details) }

def addFileAuditEntryWithoutLock (session : Session) (filename operation details : String) (now : TimePoint) : Session :=
  match findFile filename session.files with
  | none => session
  | some _ =>
      let entry := formatTimestamp now ++ " [file_" ++ operation ++ "] " ++ filename ++
        (if details = "" then "" else " - " ++ details)
      { session with
        files := updateFile filename
          (fun file => { file with auditLog := pushEntry 100 file.auditLog (auditEntry now operation details) }) session.files
        sessionAuditLog := pushEntry 1000 session.sessionAuditLog entry }

def addNewFileWithoutLock (session : Session) (fileInfo : FileInfo) (clock : Nat → TimePoint) : Session :=
  let details := "Size: " ++ toString fileInfo.sizeBytes ++ " bytes"
  match findFile fileInfo.filename session.files with
  | some _ =>
      let session := { session with files := updateFile fileInfo.filename (fun _ => fileInfo) session.files }
      session.addFileAuditEntryWithoutLock fileInfo.filename "file_updated" details (clock 0)
  | none =>
      let session := { session with
        files := session.files ++ [fileInfo]
        totalBytesGenerated := (session.totalBytesGenerated + fileInfo.sizeBytes) % 2 ^ 64 }
      session.addFileAuditEntryWithoutLock fileInfo.filename "file_created" details (clock 0)

/-- `uint64_t` の `finalSize - sizeBytes` を足す。差は 2^64 を法とする。 -/
def addDifference (total finalSize sizeBytes : Nat) : Nat := (total + (2 ^ 64 + finalSize - sizeBytes) % 2 ^ 64) % 2 ^ 64

/-- 大きさと長さは、正のときだけ書き換える。 -/
def complete (session : Session) (filename : String) (finalSize : Nat) (duration : Double) (now : TimePoint)
    (old : FileInfo) : Session :=
  let mark := fun file : FileInfo =>
    { file with
      isComplete := true
      completedAt := now
      sizeBytes := if 0 < finalSize then finalSize else file.sizeBytes
      durationSeconds := if duration.any (0 < ·) then duration else file.durationSeconds }
  { session with
    files := updateFile filename mark session.files
    totalBytesGenerated :=
      if 0 < finalSize then addDifference session.totalBytesGenerated finalSize old.sizeBytes
      else session.totalBytesGenerated }

def setChecksum (checksum : String) (now : TimePoint) (file : FileInfo) : FileInfo :=
  { file with checksum, integrityStatus := "verified", integrityVerified := true, lastIntegrityCheck := now }

def markFileCompleteWithoutLock (session : Session) (filename : String) (finalSize : Nat) (duration : Double)
    (disk : String → FileState) (clock : Nat → TimePoint) : Bool × Session :=
  match findFile filename session.files with
  | none => (false, session)
  | some old =>
      let session := session.complete filename finalSize duration (clock 0) old
      let state := disk old.fullPath
      let update := fun f : FileInfo → FileInfo => { session with files := updateFile filename f session.files }
      let session :=
        if old.fullPath ≠ "" ∧ state.present then
          if state.sha256 ≠ "" then
            (update (setChecksum state.sha256 (clock 1))).addFileAuditEntryWithoutLock filename "checksum_generated"
              ("SHA-256: " ++ state.sha256) (clock 2)
          else
            (update fun file => { file with checksum := "", integrityStatus := "checksum_failed" }).addFileAuditEntryWithoutLock
              filename "checksum_failed" "Failed to calculate SHA-256 checksum" (clock 2)
        else
          (update fun file => { file with integrityStatus := "missing" }).addFileAuditEntryWithoutLock
            filename "file_missing" "File not found at expected path" (clock 2)
      let size := if 0 < finalSize then finalSize else old.sizeBytes
      (true, session.addFileAuditEntryWithoutLock filename "file_completed"
        ("Final size: " ++ toString size ++ " bytes") (clock 3))

def validateFileIntegrityWithoutLock (session : Session) (filename : String) (disk : String → FileState)
    (clock : Nat → TimePoint) : Bool × Session :=
  match findFile filename session.files with
  | none => (false, session)
  | some old =>
      let state := disk old.fullPath
      let fail := fun (session : Session) (checksum status details : String) =>
        (false, ({ session with
          files := updateFile filename (fun file => { file with checksum, integrityStatus := status }) session.files }
          ).addFileAuditEntryWithoutLock filename "integrity_check" details (clock 1))
      let pass := fun session : Session =>
        (true, ({ session with
          files := updateFile filename (setChecksum state.sha256 (clock 2)) session.files }
          ).addFileAuditEntryWithoutLock filename "integrity_check" "File integrity verified" (clock 3))
      if !state.present then fail session old.checksum "missing" "File missing from filesystem"
      else if state.size ≠ old.sizeBytes then
        fail session old.checksum "corrupted"
          ("Size mismatch: expected " ++ toString old.sizeBytes ++ ", actual " ++ toString state.size)
      else if old.checksum = "" then
        if state.sha256 = "" then fail session "" "checksum_failed" "Failed to calculate checksum"
        else
          pass (({ session with
            files := updateFile filename (fun file => { file with checksum := state.sha256 }) session.files }
            ).addFileAuditEntryWithoutLock filename "checksum_generated" ("SHA-256: " ++ state.sha256) (clock 0))
      else if state.sha256 = "" ∨ state.sha256 ≠ old.checksum then
        fail session old.checksum "corrupted" "Checksum verification failed"
      else pass session

/-- 保存に成功した TS のセグメントは、完了の印を付けて調べる。 -/
def completeSegment (session : Session) (saved : Bool) (fileInfo : FileInfo) (disk : String → FileState)
    (clock : Nat → TimePoint) : Session :=
  if saved ∧ fileInfo.type = .ts then
    let session := (session.markFileCompleteWithoutLock fileInfo.filename fileInfo.sizeBytes fileInfo.durationSeconds
      disk fun i => clock (i + 1)).2
    (session.validateFileIntegrityWithoutLock fileInfo.filename disk fun i => clock (i + 5)).2
  else session

end Session

/-! ## 文書 -/

/-- 実行中のセッションと、書かれた文書。`saves` は、保存を試みたパスを順に並べる。 -/
structure Manager where
  activeSessions : AList fun _ : String => Session := ∅
  documents : AList fun _ : String => Json := ∅
  saves : List String := []

def formatDateTimePrefix (host : Host) (now : TimePoint) : String :=
  let tm := host.localtime (now.val / 1000000000)
  String.ofList (Rfc3339.pad 4 tm.year ++ Rfc3339.pad 2 tm.month ++ Rfc3339.pad 2 tm.day ++
    '_' :: (Rfc3339.pad 2 tm.hour ++ Rfc3339.pad 2 tm.minute ++ Rfc3339.pad 2 tm.second))

def generateOutputFilePrefixWithoutLock (host : Host) (taskId : String) (now : TimePoint) : String :=
  formatDateTimePrefix host now ++ "_" ++ taskId

def generateMetadataPathWithoutLock (outputFilePrefix : String) : String := outputFilePrefix ++ ".json"

namespace Manager

/-- 一時ファイルに書いてから名前を変えるので、失敗すれば前の文書が残る。 -/
def saveSessionMetadataWithoutLock (m : Manager) (session : Session) (outputFilePrefix : String) (written : Bool) :
    Bool × Manager :=
  let metadataPath := generateMetadataPathWithoutLock outputFilePrefix
  (written, { m with
    documents := if written then m.documents.insert metadataPath (serializeSession session.toTaskSession) else m.documents
    saves := m.saves ++ [metadataPath] })

def startSession (host : Host) (m : Manager) (taskId : String) (session : TaskSession) (outputDir : String)
    (written : Bool) (clock : Nat → TimePoint) : Manager :=
  let newSession : Session := { session with
    taskId, sessionStartTime := clock 0, sessionEndTime := 0, sessionCompleted := false, terminationReason := "active" }
  let newSession := newSession.addAuditEntryWithoutLock "session_started" "Metadata tracking initialized" (clock 1)
  if outputDir = "" then { m with activeSessions := m.activeSessions.insert taskId newSession }
  else
    let outputPrefix := outputDir ++ "/" ++ generateOutputFilePrefixWithoutLock host taskId (clock 2)
    let newSession := { newSession with outputFilePrefix := outputPrefix }
    ({ m with activeSessions := m.activeSessions.insert taskId newSession }.saveSessionMetadataWithoutLock
      newSession outputPrefix written).2

def appendFileToMetadata (m : Manager) (taskId : String) (fileInfo : FileInfo) (outputFilePrefix : String) (written : Bool)
    (disk : String → FileState) (clock : Nat → TimePoint) : Bool × Manager :=
  match m.activeSessions.lookup taskId with
  | none => (false, m)
  | some session =>
      let session := session.addNewFileWithoutLock fileInfo clock
      let (saved, m) := m.saveSessionMetadataWithoutLock session outputFilePrefix written
      let session := session.completeSegment saved fileInfo disk clock
      (saved, { m with activeSessions := m.activeSessions.insert taskId session })

end Manager

/-- すべてのファイルを調べて、結果を数える。 -/
def Session.validateAllFilesIntegrityWithoutLock (session : Session) (disk : String → FileState)
    (clock : Nat → TimePoint) : Session :=
  let names := session.files.map (·.filename)
  let checked := names.foldl (fun (acc : Nat × Session) filename =>
    let (ok, session) := acc.2.validateFileIntegrityWithoutLock filename disk clock
    (if ok then acc.1 + 1 else acc.1, session)) (0, session)
  let session := checked.2
  let failed := session.files.filter fun file => file.integrityStatus ≠ "verified"
  let missing := (failed.filter (·.integrityStatus = "missing")).length
  let corrupted := (failed.filter (·.integrityStatus = "corrupted")).length
  let summary := "Integrity validation: " ++ toString checked.1 ++ "/" ++ toString names.length ++ " files valid" ++
    (if 0 < missing then ", " ++ toString missing ++ " missing" else "") ++
    (if 0 < corrupted then ", " ++ toString corrupted ++ " corrupted" else "")
  { session with
    totalFilesExpected := names.length
    missingFiles := missing
    filesWithIntegrityIssues := corrupted + missing }.addAuditEntryWithoutLock "full_integrity_check" summary (clock 4)

def Session.finish (host : Host) (session : Session) (terminationReason : String) (clock : Nat → TimePoint) : Session :=
  let ms := ((clock 0).val - (session.sessionStartTime.val : Int)).tdiv 1000000
  let durationSeconds := host.divide (some ms) (some 1000)
  let session := { session with
    sessionEndTime := clock 0
    sessionCompleted := true
    terminationReason
    durationSeconds
    averageFrameRate :=
      if durationSeconds.any (0 < ·) then host.divide (some session.totalFramesProcessed) durationSeconds
      else session.averageFrameRate }
  session.addAuditEntryWithoutLock "session_ended" ("Session completed: " ++ toString session.totalFramesProcessed ++
    " frames, " ++ toString session.totalBytesGenerated ++ " bytes, " ++ host.showDouble durationSeconds ++ "s") (clock 1)

/-- 保存の成否によらず、セッションを除く。 -/
def Manager.endSession (host : Host) (m : Manager) (taskId terminationReason : String) (written : Bool)
    (disk : String → FileState) (clock : Nat → TimePoint) : Bool × Manager :=
  match m.activeSessions.lookup taskId with
  | none => (false, m)
  | some session =>
      let session := (session.finish host terminationReason clock).validateAllFilesIntegrityWithoutLock disk
        fun i => clock (i + 2)
      let (saved, m) := m.saveSessionMetadataWithoutLock session session.outputFilePrefix written
      (saved, { m with activeSessions := m.activeSessions.erase taskId })

/-! ## 名前と大きさ -/

/-- ファイルの名前と大きさ。 -/
def entries (files : List FileInfo) : List (String × Nat) := files.map fun file => (file.filename, file.sizeBytes)

/-- 名前の一致する始めの大きさを書き換える。 -/
def setSize (filename : String) (size : Nat) : List (String × Nat) → List (String × Nat)
  | [] => []
  | e :: es => if e.1 = filename then (filename, size) :: es else e :: setSize filename size es

theorem entries_updateFile {filename : String} {size : Nat} {f : FileInfo → FileInfo}
    (h : ∀ file : FileInfo, file.filename = filename → (f file).filename = filename ∧ (f file).sizeBytes = size)
    (files : List FileInfo) : entries (updateFile filename f files) = setSize filename size (entries files) := by
  induction files with
  | nil => rfl
  | cons file files ih =>
      by_cases hname : file.filename = filename
      · simp [updateFile, setSize, entries, hname, h file hname]
      · simp only [entries] at ih
        simp [updateFile, setSize, entries, hname, ih]

theorem entries_updateFile_same {filename : String} {f : FileInfo → FileInfo}
    (h : ∀ file, (f file).filename = file.filename ∧ (f file).sizeBytes = file.sizeBytes) (files : List FileInfo) :
    entries (updateFile filename f files) = entries files := by
  induction files with
  | nil => rfl
  | cons file files ih =>
      simp only [entries] at ih
      by_cases hname : file.filename = filename <;> simp [updateFile, entries, hname, h, ih]

theorem fst_setSize (filename : String) (size : Nat) (es : List (String × Nat)) :
    (setSize filename size es).map Prod.fst = es.map Prod.fst := by
  induction es with
  | nil => rfl
  | cons e es ih => by_cases h : e.1 = filename <;> simp [setSize, h, ih]

theorem lookup_entries (filename : String) (files : List FileInfo) :
    (entries files).lookup filename = (findFile filename files).map (·.sizeBytes) := by
  induction files with
  | nil => rfl
  | cons file files ih =>
      simp only [entries, findFile] at ih
      by_cases hname : file.filename = filename
      · simp [entries, findFile, hname]
      · have hbeq : (filename == file.filename) = false := by simpa using Ne.symm hname
        simp [entries, findFile, hname, hbeq, List.lookup_cons, ih]

namespace Session

/-- 監査の記録とチェックサムのほかの、書き換わる値。 -/
structure Core where
  outputFilePrefix : String
  entries : List (String × Nat)
  totalBytesGenerated : Nat

def core (session : Session) : Core := ⟨session.outputFilePrefix, entries session.files, session.totalBytesGenerated⟩

/-- 名前と大きさを変えない書き換え。 -/
theorem core_update {filename : String} {f : FileInfo → FileInfo}
    (h : ∀ file, (f file).filename = file.filename ∧ (f file).sizeBytes = file.sizeBytes) (session : Session) :
    ({ session with files := updateFile filename f session.files } : Session).core = session.core := by
  simp [core, entries_updateFile_same h]

@[simp] theorem core_addFileAuditEntryWithoutLock (session : Session) (filename operation details : String)
    (now : TimePoint) : (session.addFileAuditEntryWithoutLock filename operation details now).core = session.core := by
  unfold addFileAuditEntryWithoutLock
  split
  · rfl
  · simp only [core, Core.mk.injEq, true_and, and_true]
    apply entries_updateFile_same
    exact fun _ => ⟨rfl, rfl⟩

@[simp] theorem core_addAuditEntryWithoutLock (session : Session) (operation details : String) (now : TimePoint) :
    (session.addAuditEntryWithoutLock operation details now).core = session.core := rfl

@[simp] theorem core_validateFileIntegrityWithoutLock (session : Session) (filename : String) (disk : String → FileState)
    (clock : Nat → TimePoint) : (session.validateFileIntegrityWithoutLock filename disk clock).2.core = session.core := by
  unfold validateFileIntegrityWithoutLock
  split
  · rfl
  · dsimp only
    split_ifs <;> simp only [core_addFileAuditEntryWithoutLock, core_update, setChecksum, implies_true, and_self]

/-- 新しいファイルは後ろに加え、大きさを合計に足す。同じ名前のファイルは、合計を変えずに置き換える。 -/
def Core.addNewFile (c : Core) (filename : String) (size : Nat) : Core :=
  match c.entries.lookup filename with
  | some _ => { c with entries := setSize filename size c.entries }
  | none =>
      { c with
        entries := c.entries ++ [(filename, size)]
        totalBytesGenerated := (c.totalBytesGenerated + size) % 2 ^ 64 }

def Core.markComplete (c : Core) (filename : String) (finalSize : Nat) : Core :=
  match c.entries.lookup filename with
  | some old =>
      if 0 < finalSize then
        { c with
          entries := setSize filename finalSize c.entries
          totalBytesGenerated := addDifference c.totalBytesGenerated finalSize old }
      else c
  | none => c

theorem core_addNewFileWithoutLock (session : Session) (fileInfo : FileInfo) (clock : Nat → TimePoint) :
    (session.addNewFileWithoutLock fileInfo clock).core = session.core.addNewFile fileInfo.filename fileInfo.sizeBytes := by
  unfold addNewFileWithoutLock Core.addNewFile
  simp only [core, lookup_entries]
  cases findFile fileInfo.filename session.files with
  | some old =>
      have hentries := @entries_updateFile fileInfo.filename fileInfo.sizeBytes (fun _ => fileInfo)
        (fun _ _ => ⟨rfl, rfl⟩) session.files
      simpa [core, ← hentries] using core_addFileAuditEntryWithoutLock _ _ _ _ _
  | none =>
      have hentries : entries (session.files ++ [fileInfo]) =
          entries session.files ++ [(fileInfo.filename, fileInfo.sizeBytes)] := List.map_append
      simpa [core, ← hentries] using core_addFileAuditEntryWithoutLock _ _ _ _ _

theorem core_complete (session : Session) {filename : String} (finalSize : Nat) (duration : Double) (now : TimePoint)
    {old : FileInfo} (hold : findFile filename session.files = some old) :
    (session.complete filename finalSize duration now old).core = session.core.markComplete filename finalSize := by
  have hlookup : session.core.entries.lookup filename = some old.sizeBytes := by
    rw [core, lookup_entries, hold, Option.map_some]
  simp only [Core.markComplete, hlookup]
  by_cases hpos : 0 < finalSize
  · simp only [complete, hpos, if_true, core, Core.mk.injEq, true_and, and_true]
    apply entries_updateFile
    exact fun _ h => ⟨h, rfl⟩
  · simp only [complete, hpos, if_false, core, Core.mk.injEq, true_and, and_true]
    apply entries_updateFile_same
    exact fun _ => ⟨rfl, rfl⟩

theorem core_markFileCompleteWithoutLock (session : Session) (filename : String) (finalSize : Nat) (duration : Double)
    (disk : String → FileState) (clock : Nat → TimePoint) :
    (session.markFileCompleteWithoutLock filename finalSize duration disk clock).2.core =
      session.core.markComplete filename finalSize := by
  unfold markFileCompleteWithoutLock
  split
  next hnone =>
    have hlookup : session.core.entries.lookup filename = none := by
      rw [core, lookup_entries, hnone, Option.map_none]
    simp only [Core.markComplete, hlookup]
  next old hold =>
    rw [← core_complete session finalSize duration (clock 0) hold]
    dsimp only
    split_ifs <;>
      simp only [core_addFileAuditEntryWithoutLock, core_update, setChecksum, implies_true, and_self]

theorem fst_entries (session : Session) : session.core.entries.map Prod.fst = session.files.map (·.filename) := by
  simp [core, entries, Function.comp_def]

theorem fst_markComplete (c : Core) (filename : String) (finalSize : Nat) :
    (c.markComplete filename finalSize).entries.map Prod.fst = c.entries.map Prod.fst := by
  unfold Core.markComplete
  split
  · split_ifs
    · exact fst_setSize _ _ _
    · rfl
  · rfl

theorem mem_addNewFile (c : Core) (filename : String) (size : Nat) (name : String) :
    name ∈ (c.addNewFile filename size).entries.map Prod.fst ↔ name = filename ∨ name ∈ c.entries.map Prod.fst := by
  unfold Core.addNewFile
  split
  next old hold =>
    obtain ⟨l₁, l₂, heq, -⟩ := List.lookup_eq_some_iff.mp hold
    rw [fst_setSize, heq]
    simp
    tauto
  · simp
    tauto

@[simp] theorem outputFilePrefix_addNewFile (c : Core) (filename : String) (size : Nat) :
    (c.addNewFile filename size).outputFilePrefix = c.outputFilePrefix := by
  unfold Core.addNewFile
  split <;> rfl

@[simp] theorem outputFilePrefix_markComplete (c : Core) (filename : String) (finalSize : Nat) :
    (c.markComplete filename finalSize).outputFilePrefix = c.outputFilePrefix := by
  unfold Core.markComplete
  split
  · split_ifs <;> rfl
  · rfl

theorem core_validateAllFilesIntegrityWithoutLock (session : Session) (disk : String → FileState)
    (clock : Nat → TimePoint) : (session.validateAllFilesIntegrityWithoutLock disk clock).core = session.core := by
  have hfold (names : List String) (acc : Nat × Session) : (names.foldl (fun (acc : Nat × Session) filename =>
      let (ok, session) := acc.2.validateFileIntegrityWithoutLock filename disk clock
      (if ok then acc.1 + 1 else acc.1, session)) acc).2.core = acc.2.core := by
    induction names generalizing acc with
    | nil => rfl
    | cons filename names ih =>
        rw [List.foldl_cons, ih]
        exact core_validateFileIntegrityWithoutLock acc.2 filename disk clock
  exact hfold _ (0, session)

theorem core_finish (host : Host) (session : Session) (terminationReason : String) (clock : Nat → TimePoint) :
    (session.finish host terminationReason clock).core = session.core := rfl

/-- 完了の印を付けても付けなくても、大きさは同じ引数で決まる。 -/
theorem core_completeSegment (session : Session) (saved : Bool) (fileInfo : FileInfo) (disk : String → FileState)
    (clock : Nat → TimePoint) :
    (session.completeSegment saved fileInfo disk clock).core = session.core ∨
      (session.completeSegment saved fileInfo disk clock).core =
        session.core.markComplete fileInfo.filename fileInfo.sizeBytes := by
  unfold completeSegment
  split_ifs
  · right
    rw [core_validateFileIntegrityWithoutLock, core_markFileCompleteWithoutLock]
  · left
    rfl

end Session

end RtcEgress.Upload.MetadataManager
