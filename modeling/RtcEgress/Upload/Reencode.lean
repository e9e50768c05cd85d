import RtcEgress.Upload.MetadataFile

/-!
# 書き直しの往復

送る側が書いた文書は、送る側が同じ値に読む。一度の更新は、一つの項目だけを置き換える。
-/

namespace RtcEgress.Upload

open RtcEgress.Lib
open RtcEgress.Lib.Rfc3339 (Time)
open RtcEgress.Queue (Json Payload)
open RtcEgress.Wire (omitEmpty intJson)

/-! ## 書ける値 -/

def TimeValid (t : Option Time) : Prop := ∀ time ∈ t, time.Valid

structure FileInfo.Valid (info : FileInfo) : Prop where
  size : inInt64 info.size = true
  uploadAttempts : inInt64 info.uploadAttempts = true
  completedAt : TimeValid info.completedAt
  uploadedAt : TimeValid info.uploadedAt

structure MetadataFile.Valid (metadata : MetadataFile) : Prop where
  files : ∀ info ∈ metadata.files, info.Valid
  completedAt : TimeValid metadata.completedAt

theorem timeValid_none : TimeValid none := fun _ h => absurd h (Option.not_mem_none _)

theorem decodeInt_valid {old n : Int} {j : Json} (hold : inInt64 old = true) (h : decodeInt old j = some n) :
    inInt64 n = true := by
  cases j <;> simp only [decodeInt, reduceCtorEq, Option.some.injEq] at h
  case null => rwa [← h]
  case num q =>
      split at h
      next hrange => rw [← Option.some.inj h]; exact hrange.2
      · cases h

theorem decodeTime_valid {j : Json} {t : Option Time} (h : decodeTime j = some t) : TimeValid t := by
  cases j <;> simp only [decodeTime, reduceCtorEq, Option.some.injEq] at h
  case null =>
      subst h
      exact timeValid_none
  case str s =>
      obtain ⟨time, hparse, rfl⟩ := Option.map_eq_some_iff.mp h
      intro time' htime
      cases htime
      exact Rfc3339.parse_valid hparse

/-- 一つずつの読み取りが保つことは、全体の読み取りも保つ。 -/
theorem foldlM_keeps {α β : Type} {P : α → Prop} {f : α → β → Option α} (h : ∀ a b a', f a b = some a' → P a → P a')
    (bs : List β) {a a' : α} (hfold : bs.foldlM f a = some a') (ha : P a) : P a' := by
  induction bs generalizing a with
  | nil =>
      cases hfold
      exact ha
  | cons b bs ih =>
      obtain ⟨a₁, hstep, hrest⟩ := Option.bind_eq_some_iff.mp hfold
      exact ih hrest (h a b a₁ hstep ha)

theorem FileInfo.assign_valid (info : FileInfo) (field : String × Json) (info' : FileInfo)
    (h : info.assign field = some info') (hv : info.Valid) : info'.Valid := by
  unfold assign at h
  split at h
  case h_11 =>
      cases h
      exact hv
  all_goals obtain ⟨v, hdecode, rfl⟩ := Option.map_eq_some_iff.mp h
  case h_3 => exact { hv with size := decodeInt_valid hv.size hdecode }
  case h_4 => exact { hv with completedAt := decodeTime_valid hdecode }
  case h_7 => exact { hv with uploadAttempts := decodeInt_valid hv.uploadAttempts hdecode }
  case h_9 => exact { hv with uploadedAt := decodeTime_valid hdecode }
  all_goals exact ⟨hv.size, hv.uploadAttempts, hv.completedAt, hv.uploadedAt⟩

theorem FileInfo.decode_valid {j : Json} {info : FileInfo} (h : FileInfo.decode j = some info) : info.Valid := by
  have hinit : ({} : FileInfo).Valid := ⟨by decide, by decide, timeValid_none, timeValid_none⟩
  cases j <;> simp only [FileInfo.decode, reduceCtorEq, Option.some.injEq] at h
  case null => exact h ▸ hinit
  case obj fields => exact foldlM_keeps assign_valid fields h hinit

theorem decodeFiles_valid {j : Json} {files : List FileInfo} (h : decodeFiles j = some files) : ∀ info ∈ files, info.Valid := by
  cases j <;> simp only [decodeFiles, reduceCtorEq, Option.some.injEq] at h
  case null => simp [← h]
  case arr xs =>
      intro info hinfo
      induction xs generalizing files with
      | nil =>
          cases h
          cases hinfo
      | cons x xs ih =>
          rw [List.mapM_cons] at h
          obtain ⟨first, hfirst, h⟩ := Option.bind_eq_some_iff.mp h
          obtain ⟨rest, hrest, h⟩ := Option.bind_eq_some_iff.mp h
          cases h
          cases hinfo with
          | head => exact FileInfo.decode_valid hfirst
          | tail _ hmem => exact ih hrest hmem

theorem MetadataFile.assign_valid (metadata : MetadataFile) (field : String × Json) (metadata' : MetadataFile)
    (h : metadata.assign field = some metadata') (hv : metadata.Valid) : metadata'.Valid := by
  unfold assign at h
  split at h
  case h_5 =>
      cases h
      exact hv
  all_goals obtain ⟨v, hdecode, rfl⟩ := Option.map_eq_some_iff.mp h
  case h_3 => exact { hv with files := decodeFiles_valid hdecode }
  case h_4 => exact { hv with completedAt := decodeTime_valid hdecode }
  all_goals exact ⟨hv.files, hv.completedAt⟩

/-- 読めた値は、書ける値である。 -/
theorem MetadataFile.decode_valid {j : Json} {metadata : MetadataFile} (h : MetadataFile.decode j = some metadata) :
    metadata.Valid := by
  have hinit : ({} : MetadataFile).Valid := ⟨fun _ h => absurd h List.not_mem_nil, timeValid_none⟩
  cases j <;> simp only [MetadataFile.decode, reduceCtorEq, Option.some.injEq] at h
  case null => exact h ▸ hinit
  case obj fields => exact foldlM_keeps assign_valid fields h hinit

/-! ## 往復 -/

section Fields

variable {α : Type} {assign : α → String × Json → Option α} {acc acc' : α} {name : String}

theorem foldlM_omitEmpty {empty : Bool} {value : Json} (hwritten : assign acc (name, value) = some acc')
    (hempty : empty = true → acc = acc') : (omitEmpty name empty value).foldlM assign acc = some acc' := by
  cases empty with
  | true => exact congrArg some (hempty rfl)
  | false => simp [omitEmpty, hwritten]

theorem foldlM_timeFields {t : Option Time} (hwritten : ∀ time, t = some time →
    assign acc (name, .str (Rfc3339.format time)) = some acc') (hnone : t = none → acc = acc') :
    (timeFields name t).foldlM assign acc = some acc' := by
  cases t with
  | none => exact congrArg some (hnone rfl)
  | some time => simp [timeFields, hwritten time rfl]

end Fields

theorem decodeInt_intJson {old n : Int} (h : inInt64 n = true) : decodeInt old (intJson n) = some n := by
  simp [decodeInt, intJson, h]

theorem decodeTime_format {t : Option Time} {time : Time} (hv : TimeValid t) (ht : t = some time) :
    decodeTime (.str (Rfc3339.format time)) = some t := by
  rw [decodeTime, Rfc3339.parse_format (hv time ht), ht]
  rfl

namespace FileInfo

theorem fieldNamed_self : ∀ name ∈ names, fieldNamed names name = some name := by decide

/-- 初めの値の欄は、書いた値に置き換わる。 -/
theorem read_completedAt {info acc : FileInfo} (h : info.Valid) (hacc : acc.completedAt = none) :
    (timeFields "completedAt" info.completedAt).foldlM assign acc = some { acc with completedAt := info.completedAt } := by
  apply foldlM_timeFields
  · intro time ht
    simp only [assign, fieldNamed_self "completedAt" (by simp [names]), decodeTime_format h.completedAt ht, Option.map_some]
  · intro ht
    rw [ht, ← hacc]

theorem read_uploadStatus {acc : FileInfo} {status : String} (hacc : acc.uploadStatus = "") :
    (omitEmpty "uploadStatus" (status == "") (.str status)).foldlM assign acc = some { acc with uploadStatus := status } := by
  apply foldlM_omitEmpty
  · simp only [assign, fieldNamed_self "uploadStatus" (by simp [names]), decodeString, Option.map_some]
  · intro hempty
    rw [beq_iff_eq.mp hempty, ← hacc]

theorem read_uploadURL {acc : FileInfo} {url : String} (hacc : acc.uploadURL = "") :
    (omitEmpty "uploadUrl" (url == "") (.str url)).foldlM assign acc = some { acc with uploadURL := url } := by
  apply foldlM_omitEmpty
  · simp only [assign, fieldNamed_self "uploadUrl" (by simp [names]), decodeString, Option.map_some]
  · intro hempty
    rw [beq_iff_eq.mp hempty, ← hacc]

theorem read_uploadAttempts {acc : FileInfo} {attempts : Int} (h : inInt64 attempts = true) (hacc : acc.uploadAttempts = 0) :
    (omitEmpty "uploadAttempts" (attempts == 0) (intJson attempts)).foldlM assign acc =
      some { acc with uploadAttempts := attempts } := by
  apply foldlM_omitEmpty
  · simp only [assign, fieldNamed_self "uploadAttempts" (by simp [names]), decodeInt_intJson h, Option.map_some]
  · intro hempty
    rw [beq_iff_eq.mp hempty, ← hacc]

theorem read_lastUploadError {acc : FileInfo} {error : String} (hacc : acc.lastUploadError = "") :
    (omitEmpty "lastUploadError" (error == "") (.str error)).foldlM assign acc =
      some { acc with lastUploadError := error } := by
  apply foldlM_omitEmpty
  · simp only [assign, fieldNamed_self "lastUploadError" (by simp [names]), decodeString, Option.map_some]
  · intro hempty
    rw [beq_iff_eq.mp hempty, ← hacc]

theorem read_uploadedAt {info acc : FileInfo} (h : info.Valid) (hacc : acc.uploadedAt = none) :
    (timeFields "uploadedAt" info.uploadedAt).foldlM assign acc = some { acc with uploadedAt := info.uploadedAt } := by
  apply foldlM_timeFields
  · intro time ht
    simp only [assign, fieldNamed_self "uploadedAt" (by simp [names]), decodeTime_format h.uploadedAt ht, Option.map_some]
  · intro ht
    rw [ht, ← hacc]

theorem read_deleteAfterUpload {acc : FileInfo} {delete : Bool} (hacc : acc.deleteAfterUpload = false) :
    (omitEmpty "deleteAfterUpload" (!delete) (.bool delete)).foldlM assign acc =
      some { acc with deleteAfterUpload := delete } := by
  apply foldlM_omitEmpty
  · simp only [assign, fieldNamed_self "deleteAfterUpload" (by simp [names]), decodeBool, Option.map_some]
  · intro hempty
    cases delete with
    | true => cases hempty
    | false => rw [← hacc]

theorem decode_encode {info : FileInfo} (h : info.Valid) : FileInfo.decode info.encode = some info := by
  have hhead : [("filename", Json.str info.filename), ("path", .str info.path), ("size", intJson info.size)].foldlM assign {} =
      some { filename := info.filename, path := info.path, size := info.size } := by
    simp only [List.foldlM_cons, List.foldlM_nil, assign, fieldNamed_self "filename" (by simp [names]),
      fieldNamed_self "path" (by simp [names]), fieldNamed_self "size" (by simp [names]), decodeString,
      decodeInt_intJson h.size, Option.map_some, Option.bind_eq_bind, Option.bind_some, Option.pure_def]
  rw [encode, decode, fields]
  simp only [List.foldlM_append, Option.bind_eq_bind]
  rw [hhead, Option.bind_some, read_completedAt h rfl, Option.bind_some, read_uploadStatus rfl, Option.bind_some,
    read_uploadURL rfl, Option.bind_some, read_uploadAttempts h.uploadAttempts rfl, Option.bind_some,
    read_lastUploadError rfl, Option.bind_some, read_uploadedAt h rfl, Option.bind_some, read_deleteAfterUpload rfl]

end FileInfo

theorem decodeFiles_encode {files : List FileInfo} (h : ∀ info ∈ files, info.Valid) :
    decodeFiles (.arr (files.map FileInfo.encode)) = some files := by
  rw [decodeFiles]
  induction files with
  | nil => rfl
  | cons info files ih =>
      rw [List.forall_mem_cons] at h
      rw [List.map_cons, List.mapM_cons, FileInfo.decode_encode h.1, ih h.2]
      rfl

theorem MetadataFile.decode_encode {metadata : MetadataFile} (h : metadata.Valid) :
    MetadataFile.decode metadata.encode = some metadata := by
  have hname : ∀ name ∈ names, fieldNamed names name = some name := by decide
  have hhead : [("taskId", Json.str metadata.taskID), ("channelName", .str metadata.channelName),
      ("files", .arr (metadata.files.map FileInfo.encode))].foldlM assign {} =
        some { taskID := metadata.taskID, channelName := metadata.channelName, files := metadata.files } := by
    simp only [List.foldlM_cons, List.foldlM_nil, assign, hname "taskId" (by simp [names]),
      hname "channelName" (by simp [names]), hname "files" (by simp [names]), decodeString,
      decodeFiles_encode h.files, Option.map_some, Option.bind_eq_bind, Option.bind_some, Option.pure_def]
  rw [encode, decode, fields, List.foldlM_append, hhead]
  apply foldlM_timeFields
  · intro time ht
    simp only [assign, hname "completedAt" (by simp [names]), decodeTime_format h.completedAt ht, Option.map_some]
  · intro ht
    cases metadata
    cases ht
    rfl

/-! ## 更新 -/

/-- 更新した文書を読むと、初めに一致した一つの項目だけが、新しい値になっている。 -/
theorem decode_updateMetadataFile {document document' : Json} {fileInfo : FileInfo} (hvalid : fileInfo.Valid)
    (h : updateMetadataFile document fileInfo = some document') :
    ∃ metadata i, MetadataFile.decode document = some metadata ∧ metadata.files.findIdx? fileInfo.isSame = some i ∧
      MetadataFile.decode document' = some { metadata with files := metadata.files.set i fileInfo } := by
  simp only [updateMetadataFile, Option.bind_eq_bind, Option.bind_eq_some_iff, Option.pure_def, Option.some.injEq] at h
  obtain ⟨metadata, hdecode, i, hi, rfl⟩ := h
  have hold := MetadataFile.decode_valid hdecode
  refine ⟨metadata, i, hdecode, hi, MetadataFile.decode_encode ⟨?_, hold.completedAt⟩⟩
  intro info hinfo
  cases List.mem_or_eq_of_mem_set hinfo with
  | inl hmem => exact hold.files info hmem
  | inr heq => exact heq ▸ hvalid

end RtcEgress.Upload
