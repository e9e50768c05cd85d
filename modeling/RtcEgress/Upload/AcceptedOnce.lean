import RtcEgress.Upload.Retry

/-!
# 一度だけの送信

送り終えたことを文書に記してからファイルを除くので、除けなくても、次の走査は同じファイルを送らない。
-/

namespace RtcEgress.Upload

open RtcEgress.Lib
open RtcEgress.Lib.Rfc3339 (Time)
open RtcEgress.Queue (Json)

/-- 文書は、パスの項目を持たない。録画の側の文書はそうである。 -/
def Disk.Pathless (disk : Disk) : Prop :=
  ∀ metadataPath document metadata, disk.files.read metadataPath = some document →
    MetadataFile.decode document = some metadata → ∀ info ∈ metadata.files, info.path = ""

/-- 文書は、ファイルを送り終えたと記す。 -/
def Settled (disk : Disk) (filePath : String) : Prop :=
  ∃ found, findFileInMetadata disk.files filePath = some found ∧ found.2.uploadStatus = "uploaded"

/-- 他のプログラムは、終わったファイルの項目を書き換えない。走査は、文書でないファイルのパスを渡す。送信の後の記録は、書き込める。 -/
def Undisturbed : scanner.Condition
  | .change disk, s => disk.Pathless ∧ ∀ filePath found, findFileInMetadata s.disk.files filePath = some found →
      findFileInMetadata disk.files filePath = some found
  | .visit filePath, _ => Filepath.base filePath ≠ "." ∧ Filepath.hasSuffix (Filepath.base filePath) ".json" = false
  | .advance reply, s => ∀ u, Scanner.stage s = .accepted u → reply.written = true

/-! ## 書き換えた列の探索 -/

section Find

variable {α β : Type}

/-- 同じ判定を受ける値に取り替えても、判定の位置は変わらない。 -/
theorem find?_set {l : List α} {i : Nat} {a x : α} {q : α → Bool} (hi : l[i]? = some a) (hq : q x = q a) :
    (l.set i x).find? q = l.find? q ∨ (l.find? q = some a ∧ (l.set i x).find? q = some x) := by
  induction l generalizing i with
  | nil => cases hi
  | cons b l ih =>
      cases i with
      | zero =>
          obtain rfl := Option.some.inj hi
          rw [List.set_cons_zero]
          cases hb : q b with
          | true => exact .inr ⟨List.find?_cons_of_pos hb, List.find?_cons_of_pos (hq.trans hb)⟩
          | false =>
              left
              rw [List.find?_cons_of_neg (by simp [hq.trans hb]), List.find?_cons_of_neg (by simp [hb])]
      | succ i =>
          rw [List.set_cons_succ]
          cases hb : q b with
          | true =>
              left
              rw [List.find?_cons_of_pos hb, List.find?_cons_of_pos hb]
          | false =>
              rw [List.find?_cons_of_neg (by simp [hb]), List.find?_cons_of_neg (by simp [hb])]
              exact ih hi

theorem find?_set_self {l : List α} {i : Nat} {x : α} {q : α → Bool} (hi : l.findIdx? q = some i) (hx : q x = true) :
    (l.set i x).find? q = some x := by
  obtain ⟨hlt, -, hbefore⟩ := List.findIdx?_eq_some_iff_getElem.mp hi
  refine List.find?_eq_some_iff_getElem.mpr ⟨hx, i, by simpa using hlt, List.getElem_set_self _, fun j hj => ?_⟩
  rw [List.getElem_set_ne (Nat.ne_of_gt hj)]
  simpa using hbefore j hj

/-- 一つの値だけが変わる関数では、初めに得る値も、そこだけが変わる。 -/
theorem findSome?_replaced {f f' : α → Option β} {b b' : β} (h : ∀ a, f' a = f a ∨ (f a = some b ∧ f' a = some b'))
    (l : List α) : l.findSome? f' = l.findSome? f ∨ (l.findSome? f = some b ∧ l.findSome? f' = some b') := by
  induction l with
  | nil => exact .inl rfl
  | cons a l ih =>
      rw [List.findSome?_cons, List.findSome?_cons]
      cases h a with
      | inl heq =>
          rw [heq]
          cases f a with
          | some c => exact .inl rfl
          | none => exact ih
      | inr hchanged =>
          rw [hchanged.1, hchanged.2]
          exact .inr ⟨rfl, rfl⟩

theorem filter_erase {l : List String} {x : String} {q : String → Bool} (h : q x = false) :
    (l.erase x).filter q = l.filter q := by
  induction l with
  | nil => rfl
  | cons y l ih =>
      by_cases hxy : y = x
      · rw [hxy, List.erase_cons_head, List.filter_cons_of_neg (by simp [h])]
      · rw [List.erase_cons_tail (by simpa using hxy), List.filter_cons, List.filter_cons, ih]

end Find

/-! ## 文書の更新 -/

/-- 送る側が変える欄の他は、同じである。 -/
structure FileInfo.SameFile (info info' : FileInfo) : Prop where
  filename : info'.filename = info.filename
  path : info'.path = info.path
  completedAt : info'.completedAt = info.completedAt

theorem FileInfo.SameFile.isNamed {info info' : FileInfo} (h : info.SameFile info') (name : String) :
    info'.isNamed name = info.isNamed name := by
  rw [FileInfo.isNamed, h.filename, h.path, FileInfo.isNamed]

/-- 送っているファイルの項目は、文書に見つかる。 -/
structure Tracked (disk : Disk) (u : Transfer) (info : FileInfo) : Prop where
  base_ne : Filepath.base u.filePath ≠ "."
  base_media : Filepath.hasSuffix (Filepath.base u.filePath) ".json" = false
  found : findFileInMetadata disk.files u.filePath = some (u.metadataPath, info)
  same : info.SameFile u.fileInfo
  valid : u.fileInfo.Valid

section Tracked

variable {disk : Disk} {u : Transfer} {info : FileInfo}

theorem base_empty : Filepath.base "" = "." := by decide

/-- パスのない文書では、名前の一致する初めの項目が、書き換える項目である。 -/
theorem findIdx?_isSame {files : List FileInfo} {name : String} {fileInfo : FileInfo} (hpath : ∀ info ∈ files, info.path = "")
    (hname : name ≠ ".") (hfind : files.find? (·.isNamed name) = some info) (hsame : info.SameFile fileInfo) :
    ∃ i, files[i]? = some info ∧ files.findIdx? (·.isNamed name) = some i ∧ files.findIdx? fileInfo.isSame = some i := by
  obtain ⟨hnamed, i, hi, hget, hbefore⟩ := List.find?_eq_some_iff_getElem.mp hfind
  have hinfo : info.path = "" := hpath info (List.mem_of_find?_eq_some hfind)
  have hdot : ("." == name) = false := by simpa using Ne.symm hname
  have hbase : Filepath.base info.filename = name := by
    simpa [FileInfo.isNamed, hinfo, base_empty, hdot] using hnamed
  have hne : fileInfo.filename ≠ "" := by
    intro hempty
    rw [← hsame.filename, hempty, base_empty] at hbase
    exact hname hbase.symm
  refine ⟨i, List.getElem?_eq_some_iff.mpr ⟨hi, hget⟩,
    List.findIdx?_eq_some_iff_getElem.mpr ⟨hi, hget ▸ hnamed, fun j hj => by simpa using hbefore j hj⟩,
    List.findIdx?_eq_some_iff_getElem.mpr ⟨hi, ?_, ?_⟩⟩
  · rw [hget, FileInfo.isSame]
    simp [hsame.filename, hsame.filename ▸ hne]
  · intro j hj hcontra
    have hpathless : fileInfo.path = "" := hsame.path.trans hinfo
    have hfilename : files[j].filename = info.filename ∧ ¬info.filename = "" := by
      simpa [FileInfo.isSame, hpathless, hsame.filename] using hcontra
    have hother := hbefore j hj
    rw [FileInfo.isNamed, hfilename.1, hbase] at hother
    simp at hother

/-- 更新を書き込むと、送っているファイルの項目だけが新しい値になる。 -/
structure Replaces (disk disk' : Disk) (u : Transfer) (info : FileInfo) : Prop where
  here : findFileInMetadata disk'.files u.filePath = some (u.metadataPath, u.fileInfo)
  elsewhere : ∀ filePath, findFileInMetadata disk'.files filePath = findFileInMetadata disk.files filePath ∨
    (findFileInMetadata disk.files filePath = some (u.metadataPath, info) ∧
      findFileInMetadata disk'.files filePath = some (u.metadataPath, u.fileInfo))

theorem search_write {document : Json} {metadata metadata' : MetadataFile} {i : Nat}
    (hread : disk.files.read u.metadataPath = some document) (hdecode : MetadataFile.decode document = some metadata)
    (hdecode' : MetadataFile.decode metadata'.encode = some metadata')
    (hfiles : metadata'.files = metadata.files.set i u.fileInfo)
    (hi : metadata.files[i]? = some info) (hsame : info.SameFile u.fileInfo) (hcompleted : info.completedAt.isSome = true)
    (name path : String) :
    searchDocument (disk.write u.metadataPath metadata'.encode).files name path = searchDocument disk.files name path ∨
      (searchDocument disk.files name path = some (u.metadataPath, info) ∧
        searchDocument (disk.write u.metadataPath metadata'.encode).files name path = some (u.metadataPath, u.fileInfo)) := by
  by_cases hpath : path = u.metadataPath
  · subst hpath
    have hfile : findFileInMetadataFile disk.files name u.metadataPath = metadata.files.find? (·.isNamed name) := by
      simp only [findFileInMetadataFile, hread, hdecode, Option.bind_eq_bind, Option.bind_some]
    have hfile' : findFileInMetadataFile (disk.write u.metadataPath metadata'.encode).files name u.metadataPath =
        (metadata.files.set i u.fileInfo).find? (·.isNamed name) := by
      simp only [findFileInMetadataFile, Disk.read_write_self, hdecode', hfiles, Option.bind_eq_bind, Option.bind_some]
    rw [searchDocument, searchDocument, hfile, hfile']
    cases find?_set hi (hsame.isNamed name) with
    | inl heq => exact .inl (by rw [heq])
    | inr hchanged =>
        right
        rw [hchanged.1, hchanged.2]
        simp [Option.filter, hsame.completedAt, hcompleted]
  · left
    rw [searchDocument, searchDocument, findFileInMetadataFile, findFileInMetadataFile, Disk.read_write_of_ne _ _ hpath]

/-- パスの項目を持たない文書を書いても、文書はパスの項目を持たない。 -/
theorem Disk.Pathless.write (h : disk.Pathless) {metadataPath : String} {document : Json} {metadata : MetadataFile}
    (hdecode : MetadataFile.decode document = some metadata) (hempty : ∀ info ∈ metadata.files, info.path = "") :
    (disk.write metadataPath document).Pathless := by
  intro path' document' metadata' hread' hmetadata'
  by_cases hpath : path' = metadataPath
  · subst hpath
    rw [Disk.read_write_self] at hread'
    obtain rfl := Option.some.inj hread'
    obtain rfl := Option.some.inj (hdecode.symm.trans hmetadata')
    exact hempty
  · rw [Disk.read_write_of_ne _ _ hpath] at hread'
    exact h path' document' metadata' hread' hmetadata'

theorem Tracked.update (h : Tracked disk u info) (hpathless : disk.Pathless) : (disk.update u true).Pathless ∧
    Replaces disk (disk.update u true) u info := by
  have hfound := h.found
  rw [findFileInMetadata] at hfound
  split at hfound
  · cases hfound
  next hmedia =>
    obtain ⟨before, path, after, hglob, hsearch, hbefore⟩ := List.findSome?_eq_some_iff.mp hfound
    obtain ⟨rfl, hfind, hcompleted⟩ := searchDocument_eq_some.mp hsearch
    obtain ⟨document, metadata, hread, hdecode, hnamed⟩ := findFileInMetadataFile_eq_some.mp hfind
    have hempty := hpathless u.metadataPath document metadata hread hdecode
    obtain ⟨i, hi, hidx, hsame⟩ := findIdx?_isSame hempty h.base_ne hnamed h.same
    have hupdate : updateMetadataFile document u.fileInfo =
        some { metadata with files := metadata.files.set i u.fileInfo }.encode := by
      simp only [updateMetadataFile, hdecode, hsame, Option.bind_eq_bind, Option.bind_some, Option.pure_def]
    obtain ⟨metadata₁, i₁, hdecode₁, hidx₁, hdecode'⟩ := decode_updateMetadataFile h.valid hupdate
    obtain rfl := Option.some.inj (hdecode.symm.trans hdecode₁)
    obtain rfl := Option.some.inj (hsame.symm.trans hidx₁)
    have hdisk : disk.update u true =
        disk.write u.metadataPath { metadata with files := metadata.files.set i u.fileInfo }.encode := by
      simp only [Disk.update, hread, hupdate, Option.bind_some, if_true]
    have hwrite := search_write hread hdecode hdecode' rfl hi h.same hcompleted
    have hglob' (dir : String) : (disk.write u.metadataPath { metadata with files := metadata.files.set i u.fileInfo }.encode
        ).files.glob dir = disk.files.glob dir := rfl
    rw [hdisk]
    refine ⟨hpathless.write hdecode' fun info' hinfo' => ?_, ?_, fun filePath => ?_⟩
    · cases List.mem_or_eq_of_mem_set hinfo' with
      | inl hold => exact hempty info' hold
      | inr heq => rw [heq, h.same.path, hempty info (List.mem_of_getElem? hi)]
    · have hhere : findFileInMetadataFile (disk.write u.metadataPath
          { metadata with files := metadata.files.set i u.fileInfo }.encode).files (Filepath.base u.filePath) u.metadataPath =
            some u.fileInfo := by
        simp only [findFileInMetadataFile, Disk.read_write_self, hdecode', Option.bind_eq_bind, Option.bind_some]
        exact find?_set_self hidx ((h.same.isNamed _).trans (List.find?_some hnamed))
      rw [findFileInMetadata, if_neg hmedia]
      refine List.findSome?_eq_some_iff.mpr ⟨before, u.metadataPath, after, hglob,
        searchDocument_eq_some.mpr ⟨rfl, hhere, h.same.completedAt ▸ hcompleted⟩, fun path' hpath' => ?_⟩
      cases hwrite (Filepath.base u.filePath) path' with
      | inl heq => exact heq.trans (hbefore path' hpath')
      | inr hchanged =>
          rw [hbefore path' hpath'] at hchanged
          cases hchanged.1
    · rw [findFileInMetadata, findFileInMetadata, hglob']
      split
      · exact .inl rfl
      · exact findSome?_replaced (hwrite (Filepath.base filePath)) _

/-- 書いても書かなくても、送っているファイルの他の項目は、もとのままである。 -/
theorem Tracked.update_cases (h : Tracked disk u info) (hpathless : disk.Pathless) (written : Bool) :
    (disk.update u written).Pathless ∧
      (disk.update u written = disk ∨ Replaces disk (disk.update u written) u info) := by
  cases written with
  | true => exact (h.update hpathless).imp_right .inr
  | false =>
      have hsame : disk.update u false = disk := by
        unfold Disk.update
        split <;> rfl
      rw [hsame]
      exact ⟨hpathless, .inl rfl⟩

theorem find_remove (hmedia : Filepath.hasSuffix (Filepath.base u.filePath) ".json" = false) (filePath : String) :
    findFileInMetadata (disk.remove u.filePath).files filePath = findFileInMetadata disk.files filePath := by
  have hglob (dir : String) : (disk.remove u.filePath).files.glob dir = disk.files.glob dir := by
    by_cases hdir : dir = Filepath.dir u.filePath
    · subst hdir
      simp only [FileSystem.glob, Disk.remove, Function.update_self,
        filter_erase (q := fun name => Filepath.hasSuffix name ".json") hmedia]
    · simp only [FileSystem.glob, Disk.remove, Function.update_of_ne hdir]
  rw [findFileInMetadata, findFileInMetadata, hglob]
  rfl

theorem valid_of_find {filePath : String} {found : String × FileInfo} (h : findFileInMetadata disk.files filePath = some found) :
    found.2.Valid := by
  rw [findFileInMetadata] at h
  split at h
  · cases h
  · obtain ⟨path, -, hsearch⟩ := List.exists_of_findSome?_eq_some h
    obtain ⟨-, hfile, -⟩ := searchDocument_eq_some.mp hsearch
    obtain ⟨document, metadata, -, hdecode, hfind⟩ := findFileInMetadataFile_eq_some.mp hfile
    exact (MetadataFile.decode_valid hdecode).files _ (List.mem_of_find?_eq_some hfind)

/-- 送信の様子だけを変えた値も、同じ項目に見つかる。 -/
theorem Tracked.edit (h : Tracked disk u info) {fileInfo : FileInfo} (hsame : u.fileInfo.SameFile fileInfo)
    (hvalid : fileInfo.Valid) : Tracked disk { u with fileInfo } info where
  base_ne := h.base_ne
  base_media := h.base_media
  found := h.found
  same := ⟨hsame.filename.trans h.same.filename, hsame.path.trans h.same.path, hsame.completedAt.trans h.same.completedAt⟩
  valid := hvalid

theorem Tracked.replaced {disk' : Disk} (h : Tracked disk u info) (hreplaces : Replaces disk disk' u info) :
    Tracked disk' u u.fileInfo where
  base_ne := h.base_ne
  base_media := h.base_media
  found := hreplaces.here
  same := ⟨rfl, rfl, rfl⟩
  valid := h.valid

theorem Settled.replaced {disk' : Disk} {filePath : String} (h : Settled disk filePath)
    (hreplaces : Replaces disk disk' u info) (hstatus : info.uploadStatus ≠ "uploaded" ∨ u.fileInfo.uploadStatus = "uploaded") :
    Settled disk' filePath := by
  obtain ⟨found, hfound, huploaded⟩ := h
  cases hreplaces.elsewhere filePath with
  | inl heq => exact ⟨found, heq.trans hfound, huploaded⟩
  | inr hchanged =>
      obtain rfl := Option.some.inj (hfound.symm.trans hchanged.1)
      cases hstatus with
      | inl hne => exact absurd huploaded hne
      | inr hwritten => exact ⟨_, hchanged.2, hwritten⟩

theorem Tracked.notSettled (h : Tracked disk u info) (hstatus : info.uploadStatus ≠ "uploaded") :
    ¬Settled disk u.filePath := by
  rintro ⟨found, hfound, huploaded⟩
  obtain rfl := Option.some.inj (hfound.symm.trans h.found)
  exact hstatus huploaded

end Tracked

/-! ## 各段階 -/

/-- まだ受け取られていないファイルの項目。 -/
def Fresh (disk : Disk) (u : Transfer) : Prop :=
  ∃ info, Tracked disk u info ∧ info.uploadStatus ≠ "uploaded" ∧ u.fileInfo.uploadStatus ≠ "uploaded"

/-- 受け取られたことを、文書に記した項目。 -/
def Done (disk : Disk) (u : Transfer) : Prop :=
  ∃ info, Tracked disk u info ∧ info.uploadStatus = "uploaded" ∧ u.fileInfo.uploadStatus = "uploaded"

def Tracking (disk : Disk) : Stage → Prop
  | .idle => True
  | .attempting u attempt | .sending u attempt => attempt ≤ maxRetries ∧ Fresh disk u
  | .refused u _ | .accepted u | .exhausted u => Fresh disk u
  | .removing u | .removed u => Done disk u

structure Scanner.Once (s : Scanner) : Prop where
  pathless : s.disk.Pathless
  tracking : Tracking s.disk s.stage
  settled : ∀ filePath, .put filePath none ∈ s.events →
    Settled s.disk filePath ∨ ∃ u, s.stage = .accepted u ∧ u.filePath = filePath
  once : ∀ filePath, s.events.count (.put filePath none) ≤ 1

section Once

variable {disk : Disk} {u : Transfer} {s : Scanner}

theorem Fresh.update (h : Fresh disk u) (hpathless : disk.Pathless) (written : Bool) :
    (disk.update u written).Pathless ∧ Fresh (disk.update u written) u ∧
      ∀ filePath, Settled disk filePath → Settled (disk.update u written) filePath := by
  obtain ⟨info, htracked, hstatus, hwritten⟩ := h
  obtain ⟨hkept, hsame | hreplaces⟩ := htracked.update_cases hpathless written
  · rw [hsame]
    exact ⟨hpathless, ⟨info, htracked, hstatus, hwritten⟩, fun _ h => h⟩
  · exact ⟨hkept, ⟨u.fileInfo, htracked.replaced hreplaces, hwritten, hwritten⟩,
      fun _ h => h.replaced hreplaces (.inl hstatus)⟩

theorem Done.update (h : Done disk u) (hpathless : disk.Pathless) (written : Bool) :
    (disk.update u written).Pathless ∧ ∀ filePath, Settled disk filePath → Settled (disk.update u written) filePath := by
  obtain ⟨info, htracked, -, hwritten⟩ := h
  obtain ⟨hkept, hsame | hreplaces⟩ := htracked.update_cases hpathless written
  · rw [hsame]
    exact ⟨hpathless, fun _ h => h⟩
  · exact ⟨hkept, fun _ h => h.replaced hreplaces (.inr hwritten)⟩

theorem Fresh.edit (h : Fresh disk u) {fileInfo : FileInfo} (hsame : u.fileInfo.SameFile fileInfo) (hvalid : fileInfo.Valid)
    (hstatus : fileInfo.uploadStatus ≠ "uploaded") : Fresh disk { u with fileInfo } := by
  obtain ⟨info, htracked, hinfo, -⟩ := h
  exact ⟨info, htracked.edit hsame hvalid, hinfo, hstatus⟩

theorem Fresh.valid (h : Fresh disk u) : u.fileInfo.Valid ∧ u.fileInfo.uploadStatus ≠ "uploaded" := by
  obtain ⟨info, htracked, -, hstatus⟩ := h
  exact ⟨htracked.valid, hstatus⟩

/-- 受け取られたファイルが増えず、文書の記録が残る一歩。 -/
theorem Scanner.Once.keep {s' : Scanner} (h : s.Once) (hne : ∀ u, s.stage ≠ .accepted u) (hpathless : s'.disk.Pathless)
    (htracking : Tracking s'.disk s'.stage)
    (hsettled : ∀ filePath, Settled s.disk filePath → Settled s'.disk filePath)
    (hevents : ∀ filePath, s'.events.count (.put filePath none) = s.events.count (.put filePath none)) : s'.Once where
  pathless := hpathless
  tracking := htracking
  settled filePath hmem := by
    have hmem' : .put filePath none ∈ s.events := by
      rw [← List.count_pos_iff, ← hevents filePath]
      exact List.count_pos_iff.mpr hmem
    obtain hold | ⟨u, hstage, -⟩ := h.settled filePath hmem'
    · exact .inl (hsettled filePath hold)
    · exact absurd hstage (hne u)
  once filePath := (hevents filePath).trans_le (h.once filePath)

theorem Scanner.once_uploadFile {filePath : String} (h : s.Once) (hidle : s.stage = .idle)
    (hbase : Filepath.base filePath ≠ "." ∧ Filepath.hasSuffix (Filepath.base filePath) ".json" = false) :
    (s.uploadFile filePath).Once := by
  have hne (u : Transfer) : s.stage ≠ .accepted u := by simp [hidle]
  unfold uploadFile
  split
  · exact h.keep hne h.pathless h.tracking (fun _ h => h) fun _ => by simp
  next metadataPath fileInfo hfound =>
    split
    · exact h.keep hne h.pathless h.tracking (fun _ h => h) fun _ => by simp
    next hstatus =>
      have hfresh : Fresh s.disk { filePath, metadataPath, fileInfo } :=
        ⟨fileInfo, ⟨hbase.1, hbase.2, hfound, ⟨rfl, rfl, rfl⟩, valid_of_find hfound⟩, hstatus, hstatus⟩
      exact h.keep hne h.pathless ⟨by decide, hfresh⟩ (fun _ h => h) fun _ => by simp

/-- 受け取られるのは、まだ受け取られていないファイルである。 -/
theorem Scanner.Once.accept {attempt : Nat} (h : s.Once) (hstage : s.stage = .sending u attempt) (hfresh : Fresh s.disk u) :
    ({ s with stage := .accepted u, events := s.events ++ [.put u.filePath none] } : Scanner).Once := by
  have hsettled (filePath : String) (hmem : .put filePath none ∈ s.events) : Settled s.disk filePath := by
    obtain hsettled | ⟨u', hother, -⟩ := h.settled filePath hmem
    · exact hsettled
    · rw [hstage] at hother
      cases hother
  have hfirst : .put u.filePath none ∉ s.events := by
    intro hmem
    obtain ⟨info, htracked, hstatus, -⟩ := hfresh
    exact htracked.notSettled hstatus (hsettled u.filePath hmem)
  constructor
  · exact h.pathless
  · exact hfresh
  · intro filePath hmem
    cases List.mem_append.mp hmem with
    | inl hold => exact .inl (hsettled filePath hold)
    | inr hnew =>
        cases List.mem_singleton.mp hnew
        exact .inr ⟨u, rfl, rfl⟩
  · intro filePath
    rw [List.count_append, List.count_singleton]
    by_cases hpath : u.filePath = filePath
    · subst hpath
      simp [List.count_eq_zero_of_not_mem hfirst]
    · simpa [hpath] using h.once filePath

/-- 受け取られたことを、文書に記す。 -/
theorem Scanner.Once.record {fileInfo : FileInfo} (h : s.Once) (hstage : s.stage = .accepted u) (hfresh : Fresh s.disk u)
    (hsame : u.fileInfo.SameFile fileInfo) (hvalid : u.fileInfo.Valid → fileInfo.Valid)
    (hwritten : fileInfo.uploadStatus = "uploaded") :
    ({ s with disk := s.disk.update { u with fileInfo } true, stage := .removing { u with fileInfo } } : Scanner).Once := by
  obtain ⟨info, htracked, hstatus, -⟩ := hfresh
  have hedit := htracked.edit hsame (hvalid htracked.valid)
  obtain ⟨hpathless, hreplaces⟩ := hedit.update h.pathless
  constructor
  · exact hpathless
  · exact ⟨fileInfo, hedit.replaced hreplaces, hwritten, hwritten⟩
  · intro filePath hmem
    left
    obtain hsettled | ⟨u', hother, hpath⟩ := h.settled filePath hmem
    · exact hsettled.replaced hreplaces (.inl hstatus)
    · rw [hstage] at hother
      cases hother
      exact hpath ▸ ⟨_, hreplaces.here, hwritten⟩
  · exact h.once

theorem inInt64_of_le {attempt : Nat} (h : attempt ≤ maxRetries) : inInt64 (attempt : Int) = true := by
  have hle : (attempt : Int) ≤ 3 := by exact_mod_cast h
  simp [inInt64]
  omega

theorem Scanner.once_advance (h : s.Once) (reply : Reply) (hwritten : ∀ u, s.stage = .accepted u → reply.written = true) :
    (s.advance reply).Once := by
  have htracking := h.tracking
  unfold advance
  cases hstage : s.stage with
  | idle => exact h
  | attempting u attempt =>
      rw [hstage] at htracking
      obtain ⟨hle, hfresh⟩ := htracking
      have hvalid : ({ u.fileInfo with uploadAttempts := (attempt : Int) } : FileInfo).Valid :=
        { hfresh.valid.1 with uploadAttempts := inInt64_of_le hle }
      have hedit : Fresh s.disk { u with fileInfo := { u.fileInfo with uploadAttempts := attempt } } :=
        hfresh.edit ⟨rfl, rfl, rfl⟩ hvalid hfresh.valid.2
      obtain ⟨hpathless, hfresh', hsettled⟩ := hedit.update h.pathless reply.written
      exact h.keep (by simp [hstage]) hpathless ⟨hle, hfresh'⟩ hsettled fun _ => rfl
  | sending u attempt =>
      rw [hstage] at htracking
      obtain ⟨-, hfresh⟩ := htracking
      dsimp only
      split
      next => exact h.accept hstage hfresh
      next error herror =>
        have hvalid : ({ u.fileInfo with lastUploadError := error } : FileInfo).Valid := { hfresh.valid.1 with }
        have hedit : Fresh s.disk { u with fileInfo := { u.fileInfo with lastUploadError := error } } :=
          hfresh.edit ⟨rfl, rfl, rfl⟩ hvalid hfresh.valid.2
        exact h.keep (by simp [hstage]) h.pathless hedit (fun _ h => h) fun _ => by simp
  | refused u attempt =>
      rw [hstage] at htracking
      obtain ⟨hpathless, hfresh, hsettled⟩ := Fresh.update htracking h.pathless reply.written
      dsimp only
      refine h.keep (by simp [hstage]) hpathless ?_ hsettled fun _ => rfl
      split
      next hlt => exact ⟨hlt, hfresh⟩
      next => exact hfresh
  | accepted u =>
      rw [hstage] at htracking
      dsimp only
      rw [hwritten u hstage]
      refine h.record hstage htracking ⟨rfl, rfl, rfl⟩ (fun hvalid => ?_) rfl
      exact { hvalid with uploadedAt := fun _ ht => Option.some.inj ht ▸ reply.now.property }
  | removing u =>
      rw [hstage] at htracking
      dsimp only
      split
      · obtain ⟨info, htracked, hdone⟩ := htracking
        have hfind (filePath : String) :
            findFileInMetadata (s.disk.remove u.filePath).files filePath =
              findFileInMetadata s.disk.files filePath :=
          find_remove htracked.base_media filePath
        refine h.keep (by simp [hstage]) h.pathless ⟨info, ?_, hdone⟩ ?_ fun _ => by simp
        · exact { htracked with found := (hfind u.filePath).trans htracked.found }
        · intro filePath hsettled
          obtain ⟨found, hfound, huploaded⟩ := hsettled
          exact ⟨found, (hfind filePath).trans hfound, huploaded⟩
      · exact h.keep (by simp [hstage]) h.pathless trivial (fun _ h => h) fun _ => by simp
  | removed u =>
      rw [hstage] at htracking
      obtain ⟨hpathless, hsettled⟩ := Done.update htracking h.pathless reply.written
      exact h.keep (by simp [hstage]) hpathless trivial hsettled fun _ => by simp
  | exhausted u =>
      rw [hstage] at htracking
      have hfresh : Fresh s.disk u := htracking
      have hvalid : ({ u.fileInfo with uploadStatus := "failed" } : FileInfo).Valid := { hfresh.valid.1 with }
      have hedit : Fresh s.disk { u with fileInfo := { u.fileInfo with uploadStatus := "failed" } } :=
        hfresh.edit ⟨rfl, rfl, rfl⟩ hvalid (by simp)
      obtain ⟨hpathless, -, hsettled⟩ := hedit.update h.pathless reply.written
      exact h.keep (by simp [hstage]) hpathless trivial hsettled fun _ => by simp

theorem Tracked.change {disk' : Disk} {info : FileInfo} (h : Tracked disk u info)
    (hfound : ∀ filePath found, findFileInMetadata disk.files filePath = some found →
      findFileInMetadata disk'.files filePath = some found) : Tracked disk' u info :=
  { h with found := hfound _ _ h.found }

theorem Scanner.once_step (op : ScanOp) (h : s.Once) (hmeets : Undisturbed op s) : (Scanner.step op s).Once := by
  cases op with
  | advance reply => exact once_advance h reply hmeets
  | visit filePath =>
      unfold step
      dsimp only
      split
      next hidle =>
        split
        · exact h
        · exact once_uploadFile h hidle hmeets
      · exact h
  | change disk' =>
      obtain ⟨hpathless, hfound⟩ := hmeets
      have htracking := h.tracking
      constructor
      · exact hpathless
      · change Tracking disk' s.stage
        cases hstage : s.stage <;> rw [hstage] at htracking
        case idle => trivial
        case attempting | sending =>
            obtain ⟨hle, info, htracked, hstatus⟩ := htracking
            exact ⟨hle, info, htracked.change hfound, hstatus⟩
        all_goals
          obtain ⟨info, htracked, hstatus⟩ := htracking
          exact ⟨info, htracked.change hfound, hstatus⟩
      · intro filePath hmem
        refine (h.settled filePath hmem).imp_left fun hsettled => ?_
        obtain ⟨found, hold, huploaded⟩ := hsettled
        exact ⟨found, hfound _ _ hold, huploaded⟩
      · exact h.once

end Once

/-- 何度走査しても、除けないファイルも、S3 は一度しか受け取らない。送り終えたことは、文書に残る。 -/
theorem accepted_once (bucket : String) {disk : Disk} {ops : List ScanOp} (hdisk : disk.Pathless)
    (hmeet : scanner.AllMeet Undisturbed ops (Scanner.init bucket disk)) (filePath : String) :
    let s : Scanner := scanner.run ops (Scanner.init bucket disk)
    s.events.count (.put filePath none) ≤ 1 ∧
      (s.stage = .idle → .put filePath none ∈ s.events → Settled s.disk filePath) := by
  have hinit : (Scanner.init bucket disk).Once :=
    ⟨hdisk, trivial, fun _ h => absurd h List.not_mem_nil, fun _ => Nat.zero_le 1⟩
  have honce : (scanner.run ops (Scanner.init bucket disk) : Scanner).Once :=
    (System.reach_run hmeet).invariant hinit fun op _ hs hop => Scanner.once_step op hs hop
  refine ⟨honce.once filePath, fun hidle hmem => ?_⟩
  obtain hsettled | ⟨u, hstage, -⟩ := honce.settled filePath hmem
  · exact hsettled
  · rw [hidle] at hstage
    cases hstage

def epoch : { t : Time // t.Valid } :=
  ⟨MetadataManager.timestamp 0, by decide, by decide, by decide, by decide, by decide, by decide, by decide⟩

def recordedFile : MetadataFile where
  taskID := "t"
  files := [{ filename := "a.mp4", completedAt := some epoch.val }]

/-- 録画が終わり、文書が一つのファイルを挙げるディスク。 -/
def finished : Disk where
  files := {
    names := fun dir => if dir = "/rec" then ["a.mp4", "t.json"] else []
    matched := fun _ => []
    read := fun path => if path = "/rec/t.json" then some recordedFile.encode else none }
  isDirEntry _ := false
  stat _ := some false
  opens filePath := filePath == "/rec/a.mp4"

/-- 受け取られるが、除けないファイルを、二度走査する。 -/
def twoVisits : List ScanOp :=
  let reply : Reply := { openError := "", statError := none, putError := none, written := true, removed := false, now := epoch }
  .visit "/rec/a.mp4" :: List.replicate 4 (.advance reply) ++ [.visit "/rec/a.mp4"]

theorem pathless_finished : finished.Pathless := by
  intro path document metadata hread hdecode info hinfo
  have hdocument : recordedFile.encode = document := by
    have hif : (if path = "/rec/t.json" then some recordedFile.encode else none) = some document := hread
    split at hif
    · exact Option.some.inj hif
    · cases hif
  have hvalid : recordedFile.Valid := by
    refine ⟨fun info hinfo => ?_, timeValid_none⟩
    cases List.mem_singleton.mp hinfo
    exact ⟨rfl, rfl, fun _ ht => Option.some.inj ht ▸ epoch.property, timeValid_none⟩
  rw [← hdocument, MetadataFile.decode_encode hvalid] at hdecode
  obtain rfl := Option.some.inj hdecode
  cases List.mem_singleton.mp hinfo
  rfl

theorem accepted_once_finished :
    let s : Scanner := scanner.run twoVisits (Scanner.init "bucket" finished)
    s.events = [.call "/rec/a.mp4" (some ""), .put "/rec/a.mp4" none, .finish "/rec/a.mp4" none,
      .call "/rec/a.mp4" (some "uploaded"), .finish "/rec/a.mp4" none] ∧
      s.events.count (.put "/rec/a.mp4" none) ≤ 1 := by
  have hmeet : scanner.AllMeet Undisturbed twoVisits (Scanner.init "bucket" finished) := by
    have hvisit : Filepath.base "/rec/a.mp4" ≠ "." ∧ Filepath.hasSuffix (Filepath.base "/rec/a.mp4") ".json" = false := by decide
    exact ⟨hvisit, fun _ _ => rfl, fun _ _ => rfl, fun _ _ => rfl, fun _ _ => rfl, hvisit, trivial⟩
  exact ⟨by decide +kernel, (accepted_once "bucket" pathless_finished hmeet "/rec/a.mp4").1⟩

end RtcEgress.Upload
