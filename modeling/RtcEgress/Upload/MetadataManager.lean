import RtcEgress.Lib.Rfc3339
import RtcEgress.Queue.Task

/-!
# 録画の側のメタデータ

`src/metadata_manager.cpp` の記録と、その書き出しを写す。時刻はシステム時計のナノ秒である。書いた文書は、JSON の標準に従って
読めるものとし、`Json` の値で表す。
-/

namespace RtcEgress.Upload.MetadataManager

open RtcEgress.Lib
open RtcEgress.Queue (Json Payload)

/-- 1970 年以後の `time_point`。 -/
abbrev TimePoint := Fin (2 ^ 63)

instance neZero_timePoint : NeZero (2 ^ 63) := ⟨by decide⟩

inductive FileType where
  | jpeg | mp4 | ts | m3u8
  deriving DecidableEq, Repr

inductive CompositionMode where
  | individual | composite
  deriving DecidableEq, Repr

inductive Layout where
  | flat | spotlight | customized | freestyle
  deriving DecidableEq, Repr

/-- `double` の値。有限でない値は `none` である。 -/
abbrev Double := Option Rat

structure FileInfo where
  filename : String
  fullPath : String
  type : FileType
  sizeBytes : Nat := 0
  createdAt : TimePoint := 0
  completedAt : TimePoint := 0
  durationSeconds : Double := some 0
  isComplete : Bool := false
  width : Int := 0
  height : Int := 0
  segmentNumber : Int := 0
  isKeyframeAligned : Bool := false
  checksum : String := ""
  checksumAlgorithm : String := "SHA-256"
  integrityVerified : Bool := false
  integrityStatus : String := "pending"
  lastIntegrityCheck : TimePoint := 0
  backupPath : String := ""
  recoveryInfo : String := ""
  auditLog : List String := []

structure TaskSession where
  taskId : String
  description : String := ""
  channel : String := ""
  users : List String := []
  compositionMode : CompositionMode := .composite
  layout : Layout := .flat
  width : Int := 0
  height : Int := 0
  fps : Int := 0
  videoCodec : String := ""
  audioSampleRate : Int := 0
  audioChannels : Int := 0
  audioCodec : String := ""
  outputFormat : String := ""
  sessionStartTime : TimePoint := 0
  sessionEndTime : TimePoint := 0
  durationSeconds : Double := some 0
  tsSegmentDuration : Int := 0
  tsGeneratePlaylist : Bool := false
  playlistPath : String := ""
  files : List FileInfo := []
  totalFramesProcessed : Int := 0
  droppedFrames : Int := 0
  totalBytesGenerated : Nat := 0
  averageFrameRate : Double := some 0
  sessionCompleted : Bool := false
  terminationReason : String := "active"
  sessionIntegrityHash : String := ""
  sessionAuditLog : List String := []
  totalFilesExpected : Int := 0
  filesWithIntegrityIssues : Int := 0
  missingFiles : Int := 0
  criticalErrors : List String := []

/-! ## 書き出し -/

def compositionModeToString : CompositionMode → String
  | .individual => "Individual"
  | .composite => "Composite"

def layoutToString : Layout → String
  | .flat => "flat"
  | .spotlight => "spotlight"
  | .customized => "customized"
  | .freestyle => "freestyle"

def fileTypeToString : FileType → String
  | .jpeg => "JPEG"
  | .mp4 => "MP4"
  | .ts => "TS"
  | .m3u8 => "M3U8"

def formatTimestamp (tp : TimePoint) : String :=
  let seconds := tp.val / 1000000000
  let ms := tp.val / 1000000 % 1000
  let date := Rfc3339.civil (seconds / 86400)
  let ofDay := seconds % 86400
  String.ofList (Rfc3339.dateTime date.1 date.2.1 date.2.2 (ofDay / 3600) (ofDay / 60 % 60) (ofDay % 60) ++
    '.' :: (Rfc3339.pad 3 ms ++ ['Z']))

def int (n : Int) : Json := .num n

def double : Double → Json
  | some q => .num q
  | none => .null

def strings (xs : List String) : Json := .arr (xs.map .str)

def fileInfoFields (fileInfo : FileInfo) : Payload :=
  [("filename", .str fileInfo.filename), ("fullPath", .str fileInfo.fullPath), ("type", .str (fileTypeToString fileInfo.type)),
    ("sizeBytes", int fileInfo.sizeBytes), ("createdAt", .str (formatTimestamp fileInfo.createdAt))] ++
  (if fileInfo.isComplete then [("completedAt", .str (formatTimestamp fileInfo.completedAt))] else []) ++
  [("durationSeconds", double fileInfo.durationSeconds), ("isComplete", .bool fileInfo.isComplete),
    ("width", int fileInfo.width), ("height", int fileInfo.height), ("segmentNumber", int fileInfo.segmentNumber),
    ("isKeyframeAligned", .bool fileInfo.isKeyframeAligned), ("checksum", .str fileInfo.checksum),
    ("integrityVerified", .bool fileInfo.integrityVerified), ("checksumAlgorithm", .str fileInfo.checksumAlgorithm),
    ("integrityStatus", .str fileInfo.integrityStatus)] ++
  (if fileInfo.lastIntegrityCheck ≠ 0 then [("lastIntegrityCheck", .str (formatTimestamp fileInfo.lastIntegrityCheck))]
    else []) ++
  [("backupPath", .str fileInfo.backupPath), ("recoveryInfo", .str fileInfo.recoveryInfo),
    ("auditLog", strings fileInfo.auditLog)]

def serializeFileInfo (fileInfo : FileInfo) : Json := .obj (fileInfoFields fileInfo)

def sessionFields (session : TaskSession) : Payload :=
  [("taskId", .str session.taskId), ("description", .str session.description), ("channel", .str session.channel),
    ("users", strings session.users), ("compositionMode", .str (compositionModeToString session.compositionMode)),
    ("layout", .str (layoutToString session.layout)), ("width", int session.width), ("height", int session.height),
    ("fps", int session.fps), ("videoCodec", .str session.videoCodec), ("audioSampleRate", int session.audioSampleRate),
    ("audioChannels", int session.audioChannels), ("audioCodec", .str session.audioCodec),
    ("outputFormat", .str session.outputFormat), ("sessionStartTime", .str (formatTimestamp session.sessionStartTime))] ++
  (if session.sessionCompleted then [("sessionEndTime", .str (formatTimestamp session.sessionEndTime))] else []) ++
  [("durationSeconds", double session.durationSeconds), ("tsSegmentDuration", int session.tsSegmentDuration),
    ("tsGeneratePlaylist", .bool session.tsGeneratePlaylist), ("playlistPath", .str session.playlistPath),
    ("totalFramesProcessed", int session.totalFramesProcessed), ("droppedFrames", int session.droppedFrames),
    ("totalBytesGenerated", int session.totalBytesGenerated), ("averageFrameRate", double session.averageFrameRate),
    ("sessionCompleted", .bool session.sessionCompleted), ("terminationReason", .str session.terminationReason),
    ("sessionIntegrityHash", .str session.sessionIntegrityHash), ("sessionAuditLog", strings session.sessionAuditLog),
    ("totalFilesExpected", int session.totalFilesExpected),
    ("filesWithIntegrityIssues", int session.filesWithIntegrityIssues), ("missingFiles", int session.missingFiles),
    ("criticalErrors", strings session.criticalErrors)] ++
  [("files", .arr (session.files.map serializeFileInfo))]

def serializeSession (session : TaskSession) : Json := .obj (sessionFields session)

/-! ## 時刻の読み取り -/

/-- 書いた時刻を読んだ値。 -/
def timestamp (tp : TimePoint) : Rfc3339.Time :=
  let seconds := tp.val / 1000000000
  let date := Rfc3339.civil (seconds / 86400)
  let ofDay := seconds % 86400
  { year := date.1, month := date.2.1, day := date.2.2
    hour := ofDay / 3600, minute := ofDay / 60 % 60, second := ofDay % 60
    nanosecond := tp.val / 1000000 % 1000 * 1000000, offset := 0 }

theorem civil_year_lt (tp : TimePoint) : (Rfc3339.civil (tp.val / 1000000000 / 86400)).1 < 10000 := by
  have hyear := Rfc3339.civil_year_le (tp.val / 1000000000 / 86400)
  have hdays : tp.val / 1000000000 / 86400 < Rfc3339.cycleLength := by
    rw [Nat.div_div_eq_div_mul]
    exact Nat.div_lt_of_lt_mul (Nat.lt_of_lt_of_le tp.isLt (by decide))
  rw [Nat.div_eq_of_lt hdays] at hyear
  omega

/-- 書いた時刻は、必ず読める。 -/
theorem parse_formatTimestamp (tp : TimePoint) : Rfc3339.parse (formatTimestamp tp) = some (timestamp tp) := by
  have hyear := civil_year_lt tp
  have hday : tp.val / 1000000000 % 86400 < 86400 := Nat.mod_lt _ (by decide)
  have hhour : tp.val / 1000000000 % 86400 / 3600 < 24 := by omega
  have hminute : tp.val / 1000000000 % 86400 / 60 % 60 < 60 := Nat.mod_lt _ (by decide)
  have hsecond : tp.val / 1000000000 % 86400 % 60 < 60 := Nat.mod_lt _ (by decide)
  have hms : tp.val / 1000000 % 1000 < 10 ^ (2 + 1) := Nat.mod_lt _ (by decide)
  have hfraction := Rfc3339.readFraction_pad (by decide) hms []
  rw [formatTimestamp, Rfc3339.parse_dateTime _ hyear (Rfc3339.validDate_civil _) hhour hminute hsecond, hfraction]
  rfl

end RtcEgress.Upload.MetadataManager
