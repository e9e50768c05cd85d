import RtcEgress.Upload.MetadataManager
import RtcEgress.Wire.UDSMessage

/-!
# 送る側のメタデータ

`cmd/uploader/main.go` の、メタデータを読み、探し、書き直す関数を写す。Go の `encoding/json` は、名前を大文字と小文字を
区別せずに対応させ、対応しない名前を読み飛ばす。文書は `Json` の値で、時刻は RFC 3339 の時刻で表す。
-/

namespace RtcEgress.Upload

open RtcEgress.Lib
open RtcEgress.Lib.Rfc3339 (Time)
open RtcEgress.Queue (Json Payload equalFold)
open RtcEgress.Wire (omitEmpty intJson)

/-! ## パス -/

namespace Filepath

/-- `path/filepath` の一つの要素を積む。 -/
def push (rooted : Bool) (stack : List (List Char)) (part : List Char) : List (List Char) :=
  if part = [] ∨ part = ['.'] then stack
  else if part = ['.', '.'] then
    match stack with
    | [] => if rooted then [] else [part]
    | top :: rest => if top = ['.', '.'] then part :: stack else rest
  else part :: stack

def cleanChars (path : List Char) : List Char :=
  let rooted := path.head? = some '/'
  let body := ['/'].intercalate ((path.splitOn '/').foldl (push rooted) []).reverse
  if rooted then '/' :: body else if body = [] then ['.'] else body

def baseChars (path : List Char) : List Char :=
  let stripped := path.reverse.dropWhile (· = '/')
  if path = [] then ['.'] else if stripped = [] then ['/'] else (stripped.takeWhile (· ≠ '/')).reverse

/-- `filepath.Base`。 -/
def base (path : String) : String := String.ofList (baseChars path.toList)

/-- `filepath.Dir`。 -/
def dir (path : String) : String := String.ofList (cleanChars (path.toList.reverse.dropWhile (· ≠ '/')).reverse)

/-- 空でない二つの要素の `filepath.Join`。 -/
def join (dir name : String) : String := String.ofList (cleanChars (dir.toList ++ '/' :: name.toList))

/-- `filepath.Glob` が特別に扱う文字を含む。 -/
def hasMeta (path : String) : Bool := path.toList.any (· ∈ ['*', '?', '[', '\\'])

/-- `strings.HasSuffix`。 -/
def hasSuffix (s ending : String) : Bool := ending.toList.isSuffixOf s.toList

end Filepath

/-! ## 記録 -/

structure FileInfo where
  filename : String := ""
  path : String := ""
  size : Int := 0
  completedAt : Option Time := none
  uploadStatus : String := ""
  uploadURL : String := ""
  uploadAttempts : Int := 0
  lastUploadError : String := ""
  uploadedAt : Option Time := none
  deleteAfterUpload : Bool := false
  deriving DecidableEq

structure MetadataFile where
  taskID : String := ""
  channelName : String := ""
  files : List FileInfo := []
  completedAt : Option Time := none

/-! ## 読み取り -/

def decodeString (old : String) : Json → Option String
  | .str s => some s
  | .null => some old
  | _ => none

def decodeInt (old : Int) : Json → Option Int
  | .num q => if q.den = 1 ∧ inInt64 q.num then some q.num else none
  | .null => some old
  | _ => none

def decodeBool (old : Bool) : Json → Option Bool
  | .bool b => some b
  | .null => some old
  | _ => none

/-- `*time.Time`。 -/
def decodeTime : Json → Option (Option Time)
  | .str s => (Rfc3339.parse s).map some
  | .null => some none
  | _ => none

/-- 名前の対応。 -/
def fieldNamed (names : List String) (key : String) : Option String := names.find? (equalFold key ·)

namespace FileInfo

def names : List String :=
  ["filename", "path", "size", "completedAt", "uploadStatus", "uploadUrl", "uploadAttempts", "lastUploadError", "uploadedAt",
    "deleteAfterUpload"]

def assign (info : FileInfo) (field : String × Json) : Option FileInfo :=
  match fieldNamed names field.1 with
  | some "filename" => (decodeString info.filename field.2).map fun filename => { info with filename }
  | some "path" => (decodeString info.path field.2).map fun path => { info with path }
  | some "size" => (decodeInt info.size field.2).map fun size => { info with size }
  | some "completedAt" => (decodeTime field.2).map fun completedAt => { info with completedAt }
  | some "uploadStatus" => (decodeString info.uploadStatus field.2).map fun uploadStatus => { info with uploadStatus }
  | some "uploadUrl" => (decodeString info.uploadURL field.2).map fun uploadURL => { info with uploadURL }
  | some "uploadAttempts" => (decodeInt info.uploadAttempts field.2).map fun uploadAttempts => { info with uploadAttempts }
  | some "lastUploadError" => (decodeString info.lastUploadError field.2).map fun lastUploadError => { info with lastUploadError }
  | some "uploadedAt" => (decodeTime field.2).map fun uploadedAt => { info with uploadedAt }
  | some "deleteAfterUpload" =>
      (decodeBool info.deleteAfterUpload field.2).map fun deleteAfterUpload => { info with deleteAfterUpload }
  | _ => some info

def decode : Json → Option FileInfo
  | .obj fields => fields.foldlM assign {}
  | .null => some {}
  | _ => none

end FileInfo

def decodeFiles : Json → Option (List FileInfo)
  | .arr xs => xs.mapM FileInfo.decode
  | .null => some []
  | _ => none

namespace MetadataFile

def names : List String := ["taskId", "channelName", "files", "completedAt"]

def assign (metadata : MetadataFile) (field : String × Json) : Option MetadataFile :=
  match fieldNamed names field.1 with
  | some "taskId" => (decodeString metadata.taskID field.2).map fun taskID => { metadata with taskID }
  | some "channelName" => (decodeString metadata.channelName field.2).map fun channelName => { metadata with channelName }
  | some "files" => (decodeFiles field.2).map fun files => { metadata with files }
  | some "completedAt" => (decodeTime field.2).map fun completedAt => { metadata with completedAt }
  | _ => some metadata

/-- `json.Unmarshal`。誤りは `none` である。 -/
def decode : Json → Option MetadataFile
  | .obj fields => fields.foldlM assign {}
  | .null => some {}
  | _ => none

end MetadataFile

/-! ## 書き出し -/

/-- `omitempty` の `*time.Time`。 -/
def timeFields (name : String) : Option Time → Payload
  | some t => [(name, .str (Rfc3339.format t))]
  | none => []

def FileInfo.fields (info : FileInfo) : Payload :=
  [("filename", .str info.filename), ("path", .str info.path), ("size", intJson info.size)] ++
  timeFields "completedAt" info.completedAt ++
  omitEmpty "uploadStatus" (info.uploadStatus == "") (.str info.uploadStatus) ++
  omitEmpty "uploadUrl" (info.uploadURL == "") (.str info.uploadURL) ++
  omitEmpty "uploadAttempts" (info.uploadAttempts == 0) (intJson info.uploadAttempts) ++
  omitEmpty "lastUploadError" (info.lastUploadError == "") (.str info.lastUploadError) ++
  timeFields "uploadedAt" info.uploadedAt ++
  omitEmpty "deleteAfterUpload" (!info.deleteAfterUpload) (.bool info.deleteAfterUpload)

def FileInfo.encode (info : FileInfo) : Json := .obj info.fields

def MetadataFile.fields (metadata : MetadataFile) : Payload :=
  [("taskId", .str metadata.taskID), ("channelName", .str metadata.channelName),
    ("files", .arr (metadata.files.map FileInfo.encode))] ++
  timeFields "completedAt" metadata.completedAt

def MetadataFile.encode (metadata : MetadataFile) : Json := .obj metadata.fields

/-! ## 探索と更新 -/

/-- ファイルの様子。`Glob` が特別に扱う文字を含むディレクトリは、`Glob` が挙げるパスだけを持つ。 -/
structure FileSystem where
  /-- ディレクトリにある名前の、整列した列。 -/
  names : String → List String
  matched : String → List String
  /-- 読めて、JSON である文書。 -/
  read : String → Option Json

/-- `filepath.Glob(filepath.Join(dir, "*.json"))`。 -/
def FileSystem.glob (fs : FileSystem) (dir : String) : List String :=
  if Filepath.hasMeta dir then fs.matched dir
  else ((fs.names dir).filter (Filepath.hasSuffix · ".json")).map (Filepath.join dir)

def FileInfo.isNamed (targetFilename : String) (info : FileInfo) : Bool :=
  Filepath.base info.filename == targetFilename || Filepath.base info.path == targetFilename

def findFileInMetadataFile (fs : FileSystem) (targetFilename metadataPath : String) : Option FileInfo := do
  let metadata ← MetadataFile.decode (← fs.read metadataPath)
  metadata.files.find? (·.isNamed targetFilename)

/-- 一つの文書から、終わったファイルを探した結果。 -/
def searchDocument (fs : FileSystem) (filename metadataPath : String) : Option (String × FileInfo) :=
  ((findFileInMetadataFile fs filename metadataPath).filter (·.completedAt.isSome)).map
    fun fileInfo => (metadataPath, fileInfo)

def findFileInMetadata (fs : FileSystem) (filePath : String) : Option (String × FileInfo) :=
  if Filepath.hasSuffix filePath ".json" then none
  else (fs.glob (Filepath.dir filePath)).findSome? (searchDocument fs (Filepath.base filePath))

/-- 書き換える記録である。 -/
def FileInfo.isSame (fileInfo info : FileInfo) : Bool :=
  (info.filename == fileInfo.filename && fileInfo.filename != "") || (info.path == fileInfo.path && fileInfo.path != "")

/-- `updateMetadataFile` が、読んだ文書に代えて書く文書。書かないときは `none` である。 -/
def updateMetadataFile (document : Json) (fileInfo : FileInfo) : Option Json := do
  let metadata ← MetadataFile.decode document
  let i ← metadata.files.findIdx? fileInfo.isSame
  return { metadata with files := metadata.files.set i fileInfo }.encode

theorem findFileInMetadataFile_eq_some {fs : FileSystem} {name path : String} {fileInfo : FileInfo} :
    findFileInMetadataFile fs name path = some fileInfo ↔ ∃ document metadata, fs.read path = some document ∧
      MetadataFile.decode document = some metadata ∧ metadata.files.find? (·.isNamed name) = some fileInfo := by
  simp only [findFileInMetadataFile, Option.bind_eq_bind, Option.bind_eq_some_iff]
  constructor
  · intro h
    obtain ⟨document, hread, metadata, hdecode, hfind⟩ := h
    exact ⟨document, metadata, hread, hdecode, hfind⟩
  · intro h
    obtain ⟨document, metadata, hread, hdecode, hfind⟩ := h
    exact ⟨document, hread, metadata, hdecode, hfind⟩

theorem searchDocument_eq_some {fs : FileSystem} {name path path' : String} {fileInfo : FileInfo} :
    searchDocument fs name path = some (path', fileInfo) ↔
      path = path' ∧ findFileInMetadataFile fs name path = some fileInfo ∧ fileInfo.completedAt.isSome = true := by
  simp only [searchDocument, Option.map_eq_some_iff, Option.filter_eq_some_iff, Prod.mk.injEq]
  constructor
  · intro h
    obtain ⟨_, ⟨hfind, hcompleted⟩, rfl, rfl⟩ := h
    exact ⟨rfl, hfind, hcompleted⟩
  · intro h
    obtain ⟨rfl, hfind, hcompleted⟩ := h
    exact ⟨fileInfo, ⟨hfind, hcompleted⟩, rfl, rfl⟩

/-! ## 録画の側の文書の読み取り -/

/-- 録画の側が書いた項目を読んだ値。 -/
def uploaderInfo (file : MetadataManager.FileInfo) : FileInfo where
  filename := file.filename
  completedAt := if file.isComplete then some (MetadataManager.timestamp file.completedAt) else none

/-- 録画の側だけが使う、項目の名前。 -/
def workerInfoNames : List String :=
  ["fullPath", "type", "sizeBytes", "createdAt", "durationSeconds", "isComplete", "width", "height", "segmentNumber",
    "isKeyframeAligned", "checksum", "integrityVerified", "checksumAlgorithm", "integrityStatus", "lastIntegrityCheck",
    "backupPath", "recoveryInfo", "auditLog"]

def workerSessionNames : List String :=
  ["description", "channel", "users", "compositionMode", "layout", "width", "height", "fps", "videoCodec",
    "audioSampleRate", "audioChannels", "audioCodec", "outputFormat", "sessionStartTime", "sessionEndTime",
    "durationSeconds", "tsSegmentDuration", "tsGeneratePlaylist", "playlistPath", "totalFramesProcessed", "droppedFrames",
    "totalBytesGenerated", "averageFrameRate", "sessionCompleted", "terminationReason", "sessionIntegrityHash",
    "sessionAuditLog", "totalFilesExpected", "filesWithIntegrityIssues", "missingFiles", "criticalErrors"]

theorem fieldNamed_workerInfo : ∀ key ∈ workerInfoNames, fieldNamed FileInfo.names key = none := by decide

theorem fieldNamed_workerSession : ∀ key ∈ workerSessionNames, fieldNamed MetadataFile.names key = none := by decide

theorem foldlM_skip {α : Type} {assign : α → String × Json → Option α} {a : α} {names : List String}
    (h : ∀ key ∈ names, ∀ value, assign a (key, value) = some a) {fields : Payload}
    (hnames : fields.map Prod.fst ⊆ names) : fields.foldlM assign a = some a := by
  induction fields with
  | nil => rfl
  | cons field fields ih =>
      rw [List.map_cons, List.cons_subset] at hnames
      rw [List.foldlM_cons, h field.1 hnames.1 field.2]
      exact ih hnames.2

/-- 対応しない名前は読み飛ばす。 -/
theorem FileInfo.skip {fields : Payload} (info : FileInfo) (h : fields.map Prod.fst ⊆ workerInfoNames) :
    fields.foldlM assign info = some info :=
  foldlM_skip (fun key hkey value => by rw [assign, fieldNamed_workerInfo key hkey]) h

theorem MetadataFile.skip {fields : Payload} (metadata : MetadataFile) (h : fields.map Prod.fst ⊆ workerSessionNames) :
    fields.foldlM assign metadata = some metadata :=
  foldlM_skip (fun key hkey value => by rw [assign, fieldNamed_workerSession key hkey]) h

theorem FileInfo.assign_filename (info : FileInfo) (filename : String) :
    info.assign ("filename", .str filename) = some { info with filename } := by
  have hname : fieldNamed names "filename" = some "filename" := by decide
  rw [assign, hname]
  rfl

theorem FileInfo.assign_completedAt (info : FileInfo) (tp : MetadataManager.TimePoint) :
    info.assign ("completedAt", .str (MetadataManager.formatTimestamp tp)) =
      some { info with completedAt := some (MetadataManager.timestamp tp) } := by
  have hname : fieldNamed names "completedAt" = some "completedAt" := by decide
  rw [assign, hname]
  simp only [decodeTime, MetadataManager.parse_formatTimestamp, Option.map_some]

theorem decode_serializeFileInfo (file : MetadataManager.FileInfo) :
    FileInfo.decode (MetadataManager.serializeFileInfo file) = some (uploaderInfo file) := by
  have hcompleted (info : FileInfo) : (if file.isComplete then
      [("completedAt", Json.str (MetadataManager.formatTimestamp file.completedAt))] else []).foldlM FileInfo.assign info =
        some (if file.isComplete then { info with completedAt := some (MetadataManager.timestamp file.completedAt) }
          else info) := by
    cases file.isComplete with
    | false => rfl
    | true => rw [if_pos rfl, if_pos rfl, List.foldlM_cons, FileInfo.assign_completedAt]; rfl
  have hchecked : ((if file.lastIntegrityCheck ≠ 0 then
      [("lastIntegrityCheck", Json.str (MetadataManager.formatTimestamp file.lastIntegrityCheck))] else []).map Prod.fst) ⊆
        workerInfoNames := by
    split
    · simp [workerInfoNames]
    · exact List.nil_subset _
  rw [MetadataManager.serializeFileInfo, FileInfo.decode, MetadataManager.fileInfoFields]
  simp only [List.foldlM_append]
  rw [List.foldlM_cons, FileInfo.assign_filename]
  simp only [Option.bind_eq_bind, Option.bind_some]
  rw [FileInfo.skip _ (by simp [workerInfoNames]), Option.bind_some, hcompleted, Option.bind_some,
    FileInfo.skip _ (by simp [workerInfoNames]), Option.bind_some, FileInfo.skip _ hchecked, Option.bind_some,
    FileInfo.skip _ (by simp [workerInfoNames]), uploaderInfo]
  cases file.isComplete <;> rfl

theorem decodeFiles_serialize (files : List MetadataManager.FileInfo) :
    decodeFiles (.arr (files.map MetadataManager.serializeFileInfo)) = some (files.map uploaderInfo) := by
  rw [decodeFiles]
  induction files with
  | nil => rfl
  | cons file files ih => rw [List.map_cons, List.mapM_cons, decode_serializeFileInfo, ih]; rfl

theorem MetadataFile.assign_taskId (metadata : MetadataFile) (taskID : String) :
    metadata.assign ("taskId", .str taskID) = some { metadata with taskID } := by
  have hname : fieldNamed names "taskId" = some "taskId" := by decide
  rw [assign, hname]
  rfl

theorem MetadataFile.assign_files (metadata : MetadataFile) (files : List MetadataManager.FileInfo) :
    metadata.assign ("files", .arr (files.map MetadataManager.serializeFileInfo)) =
      some { metadata with files := files.map uploaderInfo } := by
  have hname : fieldNamed names "files" = some "files" := by decide
  rw [assign, hname]
  simp only [decodeFiles_serialize, Option.map_some]

/-- 送る側は、録画の側の文書から、タスクとファイルの名前、終わった時刻だけを読む。 -/
theorem decode_serializeSession (session : MetadataManager.TaskSession) :
    MetadataFile.decode (MetadataManager.serializeSession session) =
      some { taskID := session.taskId, files := session.files.map uploaderInfo } := by
  have hended : ((if session.sessionCompleted then
      [("sessionEndTime", Json.str (MetadataManager.formatTimestamp session.sessionEndTime))] else []).map Prod.fst) ⊆
        workerSessionNames := by
    split
    · simp [workerSessionNames]
    · exact List.nil_subset _
  rw [MetadataManager.serializeSession, MetadataFile.decode, MetadataManager.sessionFields]
  simp only [List.foldlM_append]
  rw [List.foldlM_cons, MetadataFile.assign_taskId]
  simp only [Option.bind_eq_bind, Option.bind_some]
  rw [MetadataFile.skip _ (by simp [workerSessionNames]), Option.bind_some, MetadataFile.skip _ hended, Option.bind_some,
    MetadataFile.skip _ (by simp [workerSessionNames]), Option.bind_some, List.foldlM_cons, MetadataFile.assign_files]
  rfl

end RtcEgress.Upload
