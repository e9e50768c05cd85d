import RtcEgress.Upload.MetadataFile

/-!
# 終わったファイルの探索

送る側は、ファイルのあるディレクトリの文書から、ファイルの名前で項目を探す。終わったファイルの項目だけが見つかり、どの終わった
ファイルの項目も見つかるはずである。
-/

namespace RtcEgress.Upload

open RtcEgress.Queue (Json)

/-- 文書 `metadataPath` の項目 `file` は、終わっているときに限って見つかる。 -/
def FoundIffComplete (fs : FileSystem) (metadataPath : String) (file : MetadataManager.FileInfo) : Prop :=
  findFileInMetadata fs file.fullPath = some (metadataPath, uploaderInfo file) ↔ file.isComplete = true

/-! ## 見つからないファイル -/

/-- 録画の出力と、その下の区間のディレクトリ。 -/
def tsFile : MetadataManager.FileInfo where
  filename := "segment_00001.ts"
  fullPath := "/rec/ts_session_20240101_000000_000/segment_00001.ts"
  type := .ts
  sizeBytes := 100
  isComplete := true

def tsSession : MetadataManager.TaskSession := { taskId := "t", files := [tsFile] }

def tsOutput : FileSystem where
  names dir :=
    if dir = "/rec" then ["20240101_000000_t.json", "ts_session_20240101_000000_000"]
    else if dir = "/rec/ts_session_20240101_000000_000" then ["playlist.m3u8", "segment_00001.ts"]
    else []
  matched _ := []
  read path := if path = "/rec/20240101_000000_t.json" then some (MetadataManager.serializeSession tsSession) else none

/-- 区間のファイルは、文書とは別のディレクトリにある。 -/
theorem not_foundIffComplete : ¬∀ fs metadataPath session,
    fs.read metadataPath = some (MetadataManager.serializeSession session) →
    ∀ file ∈ session.files, FoundIffComplete fs metadataPath file := by
  intro h
  have hfound := h tsOutput "/rec/20240101_000000_t.json" tsSession rfl tsFile List.mem_cons_self
  have hnone : findFileInMetadata tsOutput tsFile.fullPath = none := by decide
  have hsome := hfound.mpr rfl
  rw [hnone] at hsome
  cases hsome

/-! ## 見つかる条件 -/

/-- 文書 `path` で `name` と一致する最初の項目は、終わっている。 -/
def Completes (fs : FileSystem) (name path : String) : Prop :=
  ∃ document metadata fileInfo, fs.read path = some document ∧ MetadataFile.decode document = some metadata ∧
    metadata.files.find? (·.isNamed name) = some fileInfo ∧ fileInfo.completedAt.isSome = true

/-- 項目 `file` を妨げるものがない。 -/
structure Findable (fs : FileSystem) (metadataPath : String) (session : MetadataManager.TaskSession)
    (file : MetadataManager.FileInfo) : Prop where
  notMetadata : Filepath.hasSuffix file.fullPath ".json" = false
  /-- 文書の中で、名前の一致する最初の項目である。 -/
  first : (session.files.map uploaderInfo).find? (·.isNamed (Filepath.base file.fullPath)) = some (uploaderInfo file)
  /-- 文書はファイルのディレクトリにあり、前の文書は、同じ名前の終わったファイルを挙げない。 -/
  reached : ∃ before after, fs.glob (Filepath.dir file.fullPath) = before ++ metadataPath :: after ∧
    ∀ path ∈ before, ¬Completes fs (Filepath.base file.fullPath) path

theorem searchDocument_eq_none {fs : FileSystem} {name path : String} :
    searchDocument fs name path = none ↔ ¬Completes fs name path := by
  rw [Option.eq_none_iff_forall_ne_some, Completes]
  constructor
  · intro h hcompletes
    obtain ⟨document, metadata, fileInfo, hread, hdecode, hfind, hcompleted⟩ := hcompletes
    exact h (path, fileInfo) (searchDocument_eq_some.mpr
      ⟨rfl, findFileInMetadataFile_eq_some.mpr ⟨document, metadata, hread, hdecode, hfind⟩, hcompleted⟩)
  · intro h found hfound
    obtain ⟨rfl, hfind, hcompleted⟩ := searchDocument_eq_some.mp hfound
    obtain ⟨document, metadata, hread, hdecode, hfind⟩ := findFileInMetadataFile_eq_some.mp hfind
    exact h ⟨document, metadata, found.2, hread, hdecode, hfind, hcompleted⟩

section

variable {fs : FileSystem} {metadataPath : String} {session : MetadataManager.TaskSession} {file : MetadataManager.FileInfo}

/-- 終わっていない項目は、見つかっても返さない。 -/
theorem find_ne_of_incomplete (h : file.isComplete = false) :
    findFileInMetadata fs file.fullPath ≠ some (metadataPath, uploaderInfo file) := by
  intro hfound
  rw [findFileInMetadata] at hfound
  split at hfound
  · cases hfound
  · obtain ⟨before, path, after, -, hsearch, -⟩ := List.findSome?_eq_some_iff.mp hfound
    obtain ⟨-, -, hcompleted⟩ := searchDocument_eq_some.mp hsearch
    rw [uploaderInfo, h] at hcompleted
    cases hcompleted

theorem find_iff_findable (hread : fs.read metadataPath = some (MetadataManager.serializeSession session))
    (h : file.isComplete = true) :
    findFileInMetadata fs file.fullPath = some (metadataPath, uploaderInfo file) ↔ Findable fs metadataPath session file := by
  have hfile : findFileInMetadataFile fs (Filepath.base file.fullPath) metadataPath =
      (session.files.map uploaderInfo).find? (·.isNamed (Filepath.base file.fullPath)) := by
    simp only [findFileInMetadataFile, hread, decode_serializeSession, Option.bind_eq_bind, Option.bind_some]
  have hcompleted : (uploaderInfo file).completedAt.isSome = true := by rw [uploaderInfo, h]; rfl
  rw [findFileInMetadata]
  constructor
  · intro hfound
    split at hfound
    · cases hfound
    next hsuffix =>
      obtain ⟨before, path, after, hglob, hsearch, hbefore⟩ := List.findSome?_eq_some_iff.mp hfound
      obtain ⟨rfl, hfirst, -⟩ := searchDocument_eq_some.mp hsearch
      exact ⟨eq_false_of_ne_true hsuffix, hfile ▸ hfirst, before, after, hglob,
        fun path hpath => searchDocument_eq_none.mp (hbefore path hpath)⟩
  · intro hfindable
    obtain ⟨before, after, hglob, hbefore⟩ := hfindable.reached
    rw [if_neg (ne_true_of_eq_false hfindable.notMetadata)]
    exact List.findSome?_eq_some_iff.mpr ⟨before, metadataPath, after, hglob,
      searchDocument_eq_some.mpr ⟨rfl, hfile.trans hfindable.first, hcompleted⟩,
      fun path hpath => searchDocument_eq_none.mpr (hbefore path hpath)⟩

/-- 終わった項目は、妨げるものがないときに限って見つかる。 -/
theorem foundIffComplete_iff (hread : fs.read metadataPath = some (MetadataManager.serializeSession session)) :
    FoundIffComplete fs metadataPath file ↔ (file.isComplete = true → Findable fs metadataPath session file) := by
  rw [FoundIffComplete]
  cases hcomplete : file.isComplete with
  | false =>
      constructor
      · intro _ h
        cases h
      · intro _
        exact ⟨fun h => absurd h (find_ne_of_incomplete hcomplete), fun h => absurd h Bool.false_ne_true⟩
  | true =>
      have hfind := find_iff_findable hread hcomplete
      constructor
      · exact fun h _ => hfind.mp (h.mpr rfl)
      · exact fun h => ⟨fun _ => rfl, fun _ => hfind.mpr (h rfl)⟩

/-- 文書がディレクトリにただ一つあり、名前が文書の中で初めて現れる項目は、妨げられない。 -/
theorem findable_of_alone (hsuffix : Filepath.hasSuffix file.fullPath ".json" = false)
    (hglob : fs.glob (Filepath.dir file.fullPath) = [metadataPath])
    (hfirst : (session.files.map uploaderInfo).find? (·.isNamed (Filepath.base file.fullPath)) = some (uploaderInfo file)) :
    Findable fs metadataPath session file :=
  ⟨hsuffix, hfirst, [], [], hglob, fun _ h => absurd h List.not_mem_nil⟩

end

/-! ## 文書と同じディレクトリのファイル -/

def mp4File : MetadataManager.FileInfo where
  filename := "20240101_000000_t.mp4"
  fullPath := "/rec/20240101_000000_t.mp4"
  type := .mp4
  sizeBytes := 100
  isComplete := true

def mp4Session : MetadataManager.TaskSession := { taskId := "t", files := [mp4File] }

def mp4Output : FileSystem where
  names dir := if dir = "/rec" then ["20240101_000000_t.json", "20240101_000000_t.mp4"] else []
  matched _ := []
  read path := if path = "/rec/20240101_000000_t.json" then some (MetadataManager.serializeSession mp4Session) else none

theorem foundIffComplete_mp4 : FoundIffComplete mp4Output "/rec/20240101_000000_t.json" mp4File := by
  have hread : mp4Output.read "/rec/20240101_000000_t.json" = some (MetadataManager.serializeSession mp4Session) := rfl
  exact (foundIffComplete_iff hread).mpr fun _ => findable_of_alone (by decide) (by decide) (by decide)

end RtcEgress.Upload
