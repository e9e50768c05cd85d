import RtcEgress.Upload.MetadataFile

/-!
# 書き直した文書

送る側が送信の様子を書き込んでも、録画の側の文書の他の値は変わらないはずである。送る側は、自分の知る項目だけを読んで、文書を
書き直す。
-/

namespace RtcEgress.Upload

open RtcEgress.Queue (Json Payload)

def member : Json → String → Option Json
  | .obj fields, key => fields.lookup key
  | _, _ => none

def fileEntries (document : Json) : List Json :=
  match member document "files" with
  | some (.arr xs) => xs
  | _ => []

/-- 送信の様子を表す項目。 -/
def uploadMembers : List String :=
  ["uploadStatus", "uploadUrl", "uploadAttempts", "uploadedAt", "lastUploadError", "deleteAfterUpload"]

/-- `i` 番目のファイルの送信の様子の他は、もとの値のままである。 -/
structure Preserved (document document' : Json) (i : Nat) : Prop where
  session : ∀ key ≠ "files", ∀ value, member document key = some value → member document' key = some value
  others : ∀ j ≠ i, ∀ file, (fileEntries document)[j]? = some file → (fileEntries document')[j]? = some file
  file : ∀ file, (fileEntries document)[i]? = some file → ∃ file', (fileEntries document')[i]? = some file' ∧
    ∀ key, key ∉ uploadMembers → ∀ value, member file key = some value → member file' key = some value

/-- どのファイルの送信の様子を書き込んでも、他の値は変わらない。 -/
def PreservesMetadata (session : MetadataManager.TaskSession) : Prop :=
  ∀ i file fileInfo document', session.files[i]? = some file → fileInfo.filename = file.filename →
    updateMetadataFile (MetadataManager.serializeSession session) fileInfo = some document' →
      Preserved (MetadataManager.serializeSession session) document' i

/-! ## 書き直した文書の項目 -/

theorem lookup_timeFields {name key : String} {t : Option Lib.Rfc3339.Time} (h : key ≠ name) :
    (timeFields name t).lookup key = none := by
  cases t with
  | none => rfl
  | some t =>
      rw [timeFields, List.lookup_cons, beq_false_of_ne h]
      rfl

/-- 送る側が書く文書には、送る側の項目しかない。 -/
theorem member_encode {metadata : MetadataFile} {key : String} (h : key ∉ MetadataFile.names) :
    member metadata.encode key = none := by
  simp only [MetadataFile.names, List.mem_cons, List.not_mem_nil, or_false, not_or] at h
  obtain ⟨htask, hchannel, hfiles, hcompleted⟩ := h
  rw [MetadataFile.encode, member, MetadataFile.fields, List.lookup_append, lookup_timeFields hcompleted]
  simp only [List.lookup_cons, List.lookup_nil, beq_false_of_ne htask, beq_false_of_ne hchannel, beq_false_of_ne hfiles,
    Option.none_or]

/-- 録画の側の文書については、名前の一致する最初のファイルの記録を書き換える。 -/
theorem updateMetadataFile_serialize (session : MetadataManager.TaskSession) (fileInfo : FileInfo) :
    updateMetadataFile (MetadataManager.serializeSession session) fileInfo =
      ((session.files.map uploaderInfo).findIdx? fileInfo.isSame).map fun i =>
        MetadataFile.encode { taskID := session.taskId, files := (session.files.map uploaderInfo).set i fileInfo } := by
  rw [updateMetadataFile, decode_serializeSession]
  simp only [Option.bind_eq_bind, Option.bind_some]
  cases (session.files.map uploaderInfo).findIdx? fileInfo.isSame <;> rfl

/-- 書き直すと、説明の項目が失われる。 -/
theorem not_preserved {session : MetadataManager.TaskSession} {fileInfo : FileInfo} {document' : Json} {i : Nat}
    (h : updateMetadataFile (MetadataManager.serializeSession session) fileInfo = some document') :
    ¬Preserved (MetadataManager.serializeSession session) document' i := by
  intro hpreserved
  rw [updateMetadataFile_serialize, Option.map_eq_some_iff] at h
  obtain ⟨_, -, rfl⟩ := h
  have hkept := hpreserved.session "description" (by decide) (.str session.description) rfl
  rw [member_encode (by decide)] at hkept
  cases hkept

/-! ## 失われる例 -/

def oneFile : MetadataManager.TaskSession where
  taskId := "t"
  channel := "c"
  files := [{ filename := "a.mp4", fullPath := "/rec/a.mp4", type := .mp4, sizeBytes := 100, isComplete := true }]

def uploadedInfo : FileInfo :=
  { filename := "a.mp4", completedAt := some (MetadataManager.timestamp 0), uploadStatus := "uploaded" }

theorem not_preservesMetadata : ¬∀ session, PreservesMetadata session := by
  intro h
  have hupdate : updateMetadataFile (MetadataManager.serializeSession oneFile) uploadedInfo =
      some (MetadataFile.encode { taskID := "t", files := [uploadedInfo] }) := by
    rw [updateMetadataFile_serialize]
    rfl
  have hpreserved := h oneFile 0 _ uploadedInfo _ rfl rfl hupdate
  have hchannel := hpreserved.session "channel" (by decide) (.str "c") rfl
  cases hchannel

/-! ## 書き込めるファイル -/

theorem isSome_update {session : MetadataManager.TaskSession} {file : MetadataManager.FileInfo} {fileInfo : FileInfo}
    (hfile : file ∈ session.files) (hname : fileInfo.filename = file.filename) (hne : file.filename ≠ "") :
    (updateMetadataFile (MetadataManager.serializeSession session) fileInfo).isSome = true := by
  rw [updateMetadataFile_serialize, Option.isSome_map, List.findIdx?_isSome, List.any_eq_true]
  refine ⟨uploaderInfo file, List.mem_map_of_mem hfile, ?_⟩
  rw [FileInfo.isSame, hname]
  simp [uploaderInfo, hne]

/-- 録画の側の文書にはパスの項目がないので、名前だけで探す。 -/
theorem update_eq_none {session : MetadataManager.TaskSession} {fileInfo : FileInfo} (hname : fileInfo.filename = "") :
    updateMetadataFile (MetadataManager.serializeSession session) fileInfo = none := by
  rw [updateMetadataFile_serialize, Option.map_eq_none_iff, List.findIdx?_eq_none_iff]
  intro info hinfo
  obtain ⟨file, -, rfl⟩ := List.mem_map.mp hinfo
  rw [FileInfo.isSame, hname]
  by_cases hpath : fileInfo.path = ""
  · simp [uploaderInfo, hpath]
  · simp [uploaderInfo, Ne.symm hpath]

theorem preservesMetadata_iff (session : MetadataManager.TaskSession) :
    PreservesMetadata session ↔ ∀ file ∈ session.files, file.filename = "" := by
  constructor
  · intro h file hfile
    by_contra hne
    obtain ⟨i, hi⟩ := List.mem_iff_getElem?.mp hfile
    obtain ⟨document', hdocument⟩ := Option.isSome_iff_exists.mp (@isSome_update session file (uploaderInfo file) hfile rfl hne)
    exact not_preserved hdocument (h i file _ _ hi rfl hdocument)
  · intro h i file fileInfo document' hi hname hdocument
    rw [update_eq_none (hname.trans (h file (List.mem_of_getElem? hi)))] at hdocument
    cases hdocument

end RtcEgress.Upload
