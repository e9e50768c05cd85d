import RtcEgress.Lib.System
import RtcEgress.Upload.MetadataFile

/-!
# ファイルの監視

`pkg/uploader/watcher.go` の監視と、`cmd/uploader/main.go` がそれを組み立てる関数を写す。終わったと記されたファイルだけを送る
はずである。監視は一歩ずつ進み、ディスクは外から変わる。
-/

namespace RtcEgress.Upload

open RtcEgress.Lib

/-- ある時のディスク。 -/
structure Disk where
  files : FileSystem
  /-- `os.ReadDir` の項目がディレクトリである。 -/
  isDirEntry : String → Bool
  /-- `os.Stat` が成功して、ディレクトリであるか。 -/
  stat : String → Option Bool
  /-- 開くことができる。 -/
  opens : String → Bool

/-! ## 送信 -/

inductive Uploader where
  | s3
  | completionAware
  deriving DecidableEq

/-- `S3Uploader.UploadFile` は、開けるファイルの送信を始める。 -/
def s3UploadFile (disk : Disk) (filePath : String) : Bool := disk.opens filePath

/-- `CompletionAwareUploader.UploadFile` の、最初の送信を始める。 -/
def completionAwareUploadFile (disk : Disk) (filePath : String) : Bool :=
  match findFileInMetadata disk.files filePath with
  | none => false
  | some (_, fileInfo) => if fileInfo.uploadStatus = "uploaded" then false else s3UploadFile disk filePath

def Uploader.uploadFile : Uploader → Disk → String → Bool
  | .s3 => s3UploadFile
  | .completionAware => completionAwareUploadFile

/-! ## 組み立て -/

structure Watcher where
  outputDir : String
  uploader : Uploader

def newWatcher (outputDir : String) : Watcher := { outputDir, uploader := .s3 }

/-- 渡された送信は使わない。 -/
def newCustomWatcher (outputDir : String) (_customUploader : Uploader) : Watcher := newWatcher outputDir

def startFileWatchers (directories : List String) : List Watcher := directories.map (newCustomWatcher · .completionAware)

/-! ## 監視の一歩 -/

/-- `fsnotify.Event`。 -/
structure Event where
  name : String
  op : UInt32

def Event.isCreateOrWrite (event : Event) : Bool := event.op &&& 1 == 1 || event.op &&& 2 == 2

inductive Phase where
  | created
  /-- `processExistingFiles` の、これから送るパス。 -/
  | existing (filePaths : List String)
  | watching
  /-- 書き終わるのを待って、送る。 -/
  | writing (filePath : String)

structure Service where
  disk : Disk
  phases : Nat → Phase
  /-- 始めた送信のパスと、その時のディスク。 -/
  uploads : List (String × Disk)

inductive Op where
  /-- ディスクが変わる。 -/
  | change (disk : Disk)
  | start (i : Nat)
  | event (i : Nat) (event : Event)
  | advance (i : Nat)

namespace Service

def init (disk : Disk) : Service := { disk, phases := fun _ => .created, uploads := [] }

def setPhase (i : Nat) (phase : Phase) (s : Service) : Service := { s with phases := Function.update s.phases i phase }

/-- `processExistingFiles` が読む、ディレクトリでない項目のパス。 -/
def existingFiles (disk : Disk) (outputDir : String) : List String :=
  ((disk.files.names outputDir).map (Filepath.join outputDir)).filter fun filePath => !disk.isDirEntry filePath

/-- 送る。 -/
def upload (w : Watcher) (filePath : String) (s : Service) : Service :=
  if w.uploader.uploadFile s.disk filePath then { s with uploads := (filePath, s.disk) :: s.uploads } else s

/-- 監視 `w` が次に扱うパスと、その後の段階。 -/
def handling (s : Service) (i : Nat) : Option (String × Phase) :=
  match s.phases i with
  | .existing (filePath :: filePaths) => some (filePath, .existing filePaths)
  | .writing filePath => some (filePath, .watching)
  | _ => none

def startWatcher (w : Watcher) (i : Nat) (s : Service) : Service :=
  match s.phases i with
  | .created => s.setPhase i (.existing (existingFiles s.disk w.outputDir))
  | _ => s

/-- 監視の `Events` から一つを受け取る。 -/
def receive (event : Event) (i : Nat) (s : Service) : Service :=
  match s.phases i with
  | .watching =>
      if event.isCreateOrWrite && s.disk.stat event.name == some false then s.setPhase i (.writing event.name) else s
  | _ => s

def advance (w : Watcher) (i : Nat) (s : Service) : Service :=
  match s.handling i with
  | some (filePath, phase) => (s.upload w filePath).setPhase i phase
  | none =>
      match s.phases i with
      | .existing [] => s.setPhase i .watching
      | _ => s

def step (watchers : List Watcher) : Op → Service → Service
  | .change disk, s => { s with disk }
  | .start i, s => match watchers[i]? with
    | some w => s.startWatcher w i
    | none => s
  | .event i event, s => s.receive event i
  | .advance i, s => match watchers[i]? with
    | some w => s.advance w i
    | none => s

end Service

/-- `directories` を監視するサービス。 -/
def service (directories : List String) : System Op := ⟨Service, Service.step (startFileWatchers directories)⟩

/-! ## 終わったファイルだけを送ること -/

/-- メタデータの他のファイル。 -/
def isMedia (filePath : String) : Bool := !Filepath.hasSuffix filePath ".json"

/-- ディレクトリの文書が、終わっていて、まだ送っていないと記す。 -/
def Marked (disk : Disk) (filePath : String) : Prop :=
  ∃ metadataPath ∈ disk.files.glob (Filepath.dir filePath), ∃ document metadata fileInfo,
    disk.files.read metadataPath = some document ∧ MetadataFile.decode document = some metadata ∧
      fileInfo ∈ metadata.files ∧ fileInfo.isNamed (Filepath.base filePath) = true ∧
        fileInfo.completedAt.isSome = true ∧ fileInfo.uploadStatus ≠ "uploaded"

/-- 始めた送信は、どれもその時に終わったと記されたファイルのものである。 -/
def UploadsMarked (s : Service) : Prop := ∀ u ∈ s.uploads, isMedia u.1 = true → Marked u.2 u.1

/-- まだ終わっていないファイルのあるディスク。 -/
def unfinished : Disk where
  files := { names := fun dir => if dir = "/rec" then ["a.mp4"] else [], matched := fun _ => [], read := fun _ => none }
  isDirEntry _ := false
  stat _ := some false
  opens filePath := filePath == "/rec/a.mp4"

theorem not_uploadsMarked : ¬∀ directories disk ops, UploadsMarked ((service directories).run ops (Service.init disk)) := by
  intro h
  have hall := h ["/rec"] unfinished [.start 0, .advance 0]
  have huploads : ((service ["/rec"]).run [.start 0, .advance 0] (Service.init unfinished) : Service).uploads =
      [("/rec/a.mp4", unfinished)] := rfl
  have hmarked := hall ("/rec/a.mp4", unfinished) (huploads ▸ List.mem_cons_self) rfl
  obtain ⟨metadataPath, -, document, metadata, fileInfo, hread, -⟩ := hmarked
  cases hread

/-! ## 成り立つ条件 -/

/-- 監視が扱う、開けるファイルは、扱う時に終わったと記されている。 -/
def handlesMarked (directories : List String) : (service directories).Condition
  | .advance i, s => ∀ filePath phase, (startFileWatchers directories)[i]?.isSome = true →
      s.handling i = some (filePath, phase) → s.disk.opens filePath = true → isMedia filePath = true → Marked s.disk filePath
  | _, _ => True

theorem uploader_of_started {directories : List String} {i : Nat} {w : Watcher}
    (h : (startFileWatchers directories)[i]? = some w) : w.uploader = .s3 := by
  rw [startFileWatchers, List.getElem?_map, Option.map_eq_some_iff] at h
  obtain ⟨outputDir, -, rfl⟩ := h
  rfl

/-- 一歩が送信を変えないならば、条件だけが残る。 -/
theorem uploadsMarked_of_uploads {s s' : Service} {p : Prop} (h : s'.uploads = s.uploads) (hp : p) :
    UploadsMarked s' ↔ UploadsMarked s ∧ p := by
  rw [UploadsMarked, h]
  exact (and_iff_left hp).symm

theorem uploadsMarked_upload {w : Watcher} (hw : w.uploader = .s3) (filePath : String) (s : Service) :
    UploadsMarked (s.upload w filePath) ↔
      UploadsMarked s ∧ (s.disk.opens filePath = true → isMedia filePath = true → Marked s.disk filePath) := by
  rw [Service.upload, hw]
  cases hopens : s.disk.opens filePath with
  | false =>
      rw [if_neg (by simp [Uploader.uploadFile, s3UploadFile, hopens])]
      exact uploadsMarked_of_uploads rfl fun h => absurd h Bool.false_ne_true
  | true =>
      rw [if_pos (by simp [Uploader.uploadFile, s3UploadFile, hopens])]
      constructor
      · exact fun h => ⟨fun u hu => h u (List.mem_cons_of_mem _ hu), fun _ => h (filePath, s.disk) List.mem_cons_self⟩
      · intro h u hu
        cases List.mem_cons.mp hu with
        | inl heq => exact heq ▸ h.2 rfl
        | inr hold => exact h.1 u hold

theorem uploadsMarked_advance {w : Watcher} (hw : w.uploader = .s3) (i : Nat) (s : Service) :
    UploadsMarked (s.advance w i) ↔ UploadsMarked s ∧ ∀ filePath phase, s.handling i = some (filePath, phase) →
      s.disk.opens filePath = true → isMedia filePath = true → Marked s.disk filePath := by
  rw [Service.advance]
  cases hhandling : s.handling i with
  | none =>
      refine uploadsMarked_of_uploads ?_ fun _ _ h => nomatch h
      dsimp only
      split <;> rfl
  | some next =>
      obtain ⟨filePath, phase⟩ := next
      refine (uploadsMarked_upload hw filePath s).trans (and_congr_right fun _ => ?_)
      constructor
      · intro h filePath' phase' heq
        cases heq
        exact h
      · exact fun h => h filePath phase rfl

/-- 一歩の送信が記されたファイルのものであるのは、条件を満たすときに限る。 -/
theorem uploadsMarked_step (directories : List String) (op : Op) (s : Service) :
    UploadsMarked ((service directories).step op s) ↔ UploadsMarked s ∧ handlesMarked directories op s := by
  cases op with
  | change disk => exact uploadsMarked_of_uploads rfl trivial
  | start i =>
      refine uploadsMarked_of_uploads ?_ trivial
      simp only [service, Service.step, Service.startWatcher]
      split
      · split <;> rfl
      · rfl
  | event i event =>
      refine uploadsMarked_of_uploads ?_ trivial
      simp only [service, Service.step, Service.receive]
      split
      · split <;> rfl
      · rfl
  | advance i =>
      simp only [service, Service.step, handlesMarked]
      cases hwatcher : (startFileWatchers directories)[i]? with
      | none => exact uploadsMarked_of_uploads rfl fun _ _ h => nomatch h
      | some w =>
          rw [uploadsMarked_advance (uploader_of_started hwatcher)]
          exact and_congr_right fun _ => ⟨fun h filePath phase _ => h filePath phase,
            fun h filePath phase => h filePath phase rfl⟩

/-- 送信がすべて記されたファイルのものであるのは、扱うファイルがいつも記されているときに限る。 -/
theorem uploadsMarked_iff (directories : List String) (disk : Disk) (ops : List Op) :
    UploadsMarked ((service directories).run ops (Service.init disk)) ↔
      (service directories).AllMeet (handlesMarked directories) ops (Service.init disk) := by
  have hinit : UploadsMarked (Service.init disk) := fun _ hu => absurd hu List.not_mem_nil
  exact (System.run_iff (uploadsMarked_step directories) ops _).trans (and_iff_right hinit)

/-- 使われない送信は、これを確かめる。 -/
theorem completionAware_marked {disk : Disk} {filePath : String} (h : completionAwareUploadFile disk filePath = true) :
    Marked disk filePath := by
  rw [completionAwareUploadFile] at h
  split at h
  · cases h
  next metadataPath fileInfo hfound =>
    split at h
    · cases h
    next hstatus =>
      rw [findFileInMetadata] at hfound
      split at hfound
      · cases hfound
      · obtain ⟨path, hpath, hsearch⟩ := List.exists_of_findSome?_eq_some hfound
        obtain ⟨-, hfind, hcompleted⟩ := searchDocument_eq_some.mp hsearch
        obtain ⟨document, metadata, hread, hdecode, hfirst⟩ := findFileInMetadataFile_eq_some.mp hfind
        have hnamed := List.find?_some hfirst
        exact ⟨path, hpath, document, metadata, fileInfo, hread, hdecode, List.mem_of_find?_eq_some hfirst, hnamed, hcompleted,
          hstatus⟩

end RtcEgress.Upload
