import RtcEgress.Upload.Reencode
import RtcEgress.Upload.Watcher

/-!
# 送信の繰り返し

`cmd/uploader/main.go` の `scanAndUploadExistingFiles` が一つずつ呼ぶ `UploadFile` と、その中の `uploadWithRetry` を写す。文書の
書き直し、送信、削除は、それぞれ一歩であり、その間に他のプログラムがディスクを変える。
-/

namespace RtcEgress.Upload

open RtcEgress.Lib
open RtcEgress.Lib.Rfc3339 (Time)
open RtcEgress.Queue (Json)

/-! ## 一歩ずつの送信 -/

def maxRetries : Nat := 3

/-- 送っているファイル。 -/
structure Transfer where
  filePath : String
  metadataPath : String
  fileInfo : FileInfo

/-- 次に行うこと。 -/
inductive Stage where
  | idle
  | attempting (u : Transfer) (attempt : Nat)
  | sending (u : Transfer) (attempt : Nat)
  | refused (u : Transfer) (attempt : Nat)
  | accepted (u : Transfer)
  | removing (u : Transfer)
  | removed (u : Transfer)
  | exhausted (u : Transfer)

/-- 行ったこと。`call` は、見つかった項目の `uploadStatus` を添える。 -/
inductive UploadEvent where
  | call (filePath : String) (status : Option String)
  | put (filePath : String) (error : Option String)
  | remove (filePath : String)
  | finish (filePath : String) (error : Option String)
  deriving DecidableEq

/-- ディスクと S3 の返事。途中で失敗した書き込みが文書を損なうことは、他のプログラムの変更に含める。 -/
structure Reply where
  openError : String
  statError : Option String
  putError : Option String
  written : Bool
  removed : Bool
  now : { t : Time // t.Valid }

structure Scanner where
  bucket : String
  disk : Disk
  stage : Stage
  events : List UploadEvent

inductive ScanOp where
  /-- 他のプログラムが、ディスクを変える。 -/
  | change (disk : Disk)
  /-- 走査が、次のパスに進む。 -/
  | visit (filePath : String)
  | advance (reply : Reply)

namespace Disk

/-- 文書を書き直す。 -/
def write (disk : Disk) (metadataPath : String) (document : Json) : Disk :=
  { disk with files := { disk.files with read := Function.update disk.files.read metadataPath (some document) } }

@[simp] theorem read_write_self (disk : Disk) (metadataPath : String) (document : Json) :
    (disk.write metadataPath document).files.read metadataPath = some document := Function.update_self _ _ _

theorem read_write_of_ne (disk : Disk) {metadataPath path : String} (document : Json) (h : path ≠ metadataPath) :
    (disk.write metadataPath document).files.read path = disk.files.read path := Function.update_of_ne h _ _

/-- `os.Remove`。 -/
def remove (disk : Disk) (filePath : String) : Disk :=
  { disk with
    files := { disk.files with
      names := Function.update disk.files.names (Filepath.dir filePath)
        ((disk.files.names (Filepath.dir filePath)).erase (Filepath.base filePath)) }
    stat := Function.update disk.stat filePath none
    opens := Function.update disk.opens filePath false }

/-- `updateMetadataFile` を行った後のディスク。 -/
def update (disk : Disk) (u : Transfer) (written : Bool) : Disk :=
  match (disk.files.read u.metadataPath).bind (updateMetadataFile · u.fileInfo) with
  | some document => if written then disk.write u.metadataPath document else disk
  | none => disk

end Disk

/-- `S3Uploader.UploadFile` の誤り。 -/
def uploadError (disk : Disk) (filePath : String) (reply : Reply) : Option String :=
  if !disk.opens filePath then some ("failed to open file " ++ filePath ++ ": " ++ reply.openError)
  else match reply.statError with
    | some error => some ("failed to get file info " ++ filePath ++ ": " ++ error)
    | none => reply.putError.map ("S3 upload failed: " ++ ·)

def s3URL (bucket filePath : String) : String := "https://" ++ bucket ++ ".s3.amazonaws.com/" ++ Filepath.base filePath

namespace Scanner

def init (bucket : String) (disk : Disk) : Scanner := { bucket, disk, stage := .idle, events := [] }

/-- `CompletionAwareUploader.UploadFile` の始め。 -/
def uploadFile (s : Scanner) (filePath : String) : Scanner :=
  match findFileInMetadata s.disk.files filePath with
  | none => { s with events := s.events ++ [.call filePath none, .finish filePath none] }
  | some (metadataPath, fileInfo) =>
      if fileInfo.uploadStatus = "uploaded" then
        { s with events := s.events ++ [.call filePath (some fileInfo.uploadStatus), .finish filePath none] }
      else
        { s with
          stage := .attempting { filePath, metadataPath, fileInfo } 1
          events := s.events ++ [.call filePath (some fileInfo.uploadStatus)] }

/-- `uploadWithRetry` の一歩。 -/
def advance (s : Scanner) (reply : Reply) : Scanner :=
  match s.stage with
  | .idle => s
  | .attempting u attempt =>
      let u := { u with fileInfo := { u.fileInfo with uploadAttempts := attempt } }
      { s with disk := s.disk.update u reply.written, stage := .sending u attempt }
  | .sending u attempt =>
      match uploadError s.disk u.filePath reply with
      | none => { s with stage := .accepted u, events := s.events ++ [.put u.filePath none] }
      | some error =>
          { s with
            stage := .refused { u with fileInfo := { u.fileInfo with lastUploadError := error } } attempt
            events := s.events ++ [.put u.filePath (some error)] }
  | .refused u attempt =>
      { s with
        disk := s.disk.update u reply.written
        stage := if attempt < maxRetries then .attempting u (attempt + 1) else .exhausted u }
  | .accepted u =>
      let u := { u with fileInfo := { u.fileInfo with
        uploadStatus := "uploaded"
        uploadURL := s3URL s.bucket u.filePath
        uploadedAt := some reply.now.val
        lastUploadError := "" } }
      { s with disk := s.disk.update u reply.written, stage := .removing u }
  | .removing u =>
      if reply.removed then
        { s with disk := s.disk.remove u.filePath, stage := .removed u, events := s.events ++ [.remove u.filePath] }
      else { s with stage := .idle, events := s.events ++ [.finish u.filePath none] }
  | .removed u =>
      { s with disk := s.disk.update u reply.written, stage := .idle, events := s.events ++ [.finish u.filePath none] }
  | .exhausted u =>
      let u := { u with fileInfo := { u.fileInfo with uploadStatus := "failed" } }
      { s with
        disk := s.disk.update u reply.written
        stage := .idle
        events := s.events ++ [.finish u.filePath (some ("upload failed after " ++ toString maxRetries ++ " attempts"))] }

def step : ScanOp → Scanner → Scanner
  | .change disk, s => { s with disk }
  | .visit filePath, s =>
      match s.stage with
      | .idle => if s.disk.stat filePath = some true ∨ Filepath.hasSuffix filePath ".json" then s else s.uploadFile filePath
      | _ => s
  | .advance reply, s => s.advance reply

end Scanner

def scanner : System ScanOp := ⟨Scanner, Scanner.step⟩

/-! ## 一つの呼び出しの記録 -/

def refusals (filePath : String) (errors : List String) : List UploadEvent :=
  errors.map fun error => .put filePath (some error)

/-- 終わった呼び出しの記録。 -/
inductive Transcript : List UploadEvent → Prop
  | skipped (filePath : String) (status : Option String) (h : ∀ s ∈ status, s = "uploaded") :
      Transcript [.call filePath status, .finish filePath none]
  | uploaded (filePath status : String) (errors : List String) (removed : Bool) (hstatus : status ≠ "uploaded")
      (herrors : errors.length < maxRetries) :
      Transcript (.call filePath (some status) :: refusals filePath errors ++ .put filePath none ::
        (if removed then [.remove filePath] else []) ++ [.finish filePath none])
  | failed (filePath status : String) (errors : List String) (hstatus : status ≠ "uploaded")
      (herrors : errors.length = maxRetries) :
      Transcript (.call filePath (some status) :: refusals filePath errors ++
        [.finish filePath (some "upload failed after 3 attempts")])

/-- 呼び出しを始めてから、`count` 回断られた。 -/
def Refused (filePath : String) (count : Nat) (events : List UploadEvent) : Prop :=
  ∃ status errors, status ≠ "uploaded" ∧ errors.length = count ∧
    events = .call filePath (some status) :: refusals filePath errors

/-- 終わっていない呼び出しの、ここまでの記録。 -/
def Pending : Stage → List UploadEvent → Prop
  | .idle, events => events = []
  | .attempting u attempt, events | .sending u attempt, events =>
      ∃ count, attempt = count + 1 ∧ count < maxRetries ∧ Refused u.filePath count events
  | .refused u attempt, events => attempt ≤ maxRetries ∧ Refused u.filePath attempt events
  | .accepted u, events | .removing u, events =>
      ∃ count refused, count < maxRetries ∧ Refused u.filePath count refused ∧ events = refused ++ [.put u.filePath none]
  | .removed u, events =>
      ∃ count refused, count < maxRetries ∧ Refused u.filePath count refused ∧
        events = refused ++ [.put u.filePath none, .remove u.filePath]
  | .exhausted u, events => Refused u.filePath maxRetries events

/-- 記録は、終わった呼び出しの記録を並べ、終わっていない呼び出しの記録を続けたものである。 -/
def Scanner.Recorded (s : Scanner) : Prop :=
  ∃ (calls : List (List UploadEvent)) (pending : List UploadEvent), (∀ call ∈ calls, Transcript call) ∧
    Pending s.stage pending ∧ s.events = calls.flatten ++ pending

section Recorded

variable {s : Scanner} {calls : List (List UploadEvent)} {events pending call : List UploadEvent}

theorem Scanner.Recorded.extend (hcalls : ∀ call ∈ calls, Transcript call) (hevents : s.events = calls.flatten ++ events)
    (hpending : Pending s.stage events) : s.Recorded :=
  ⟨calls, events, hcalls, hpending, hevents⟩

theorem Scanner.Recorded.finish (hcalls : ∀ call ∈ calls, Transcript call) (hcall : Transcript call)
    (hevents : s.events = calls.flatten ++ call) (hidle : s.stage = .idle) : s.Recorded := by
  refine ⟨calls ++ [call], [], ?_, by rw [hidle]; rfl, by simp [hevents]⟩
  intro c hc
  cases List.mem_append.mp hc with
  | inl hold => exact hcalls c hold
  | inr hnew => exact List.mem_singleton.mp hnew ▸ hcall

theorem Refused.concat {filePath : String} {count : Nat} (h : Refused filePath count events) (error : String) :
    Refused filePath (count + 1) (events ++ [.put filePath (some error)]) := by
  obtain ⟨status, errors, hstatus, hlength, rfl⟩ := h
  exact ⟨status, errors ++ [error], hstatus, by simp [hlength], by simp [refusals]⟩

theorem Scanner.recorded_uploadFile {filePath : String} (h : s.Recorded) (hidle : s.stage = .idle) :
    (s.uploadFile filePath).Recorded := by
  obtain ⟨calls, pending, hcalls, hpending, hevents⟩ := h
  rw [hidle] at hpending
  obtain rfl : pending = [] := hpending
  rw [List.append_nil] at hevents
  unfold uploadFile
  split
  · exact .finish hcalls (.skipped filePath none (by simp)) (by simp [hevents]) hidle
  next metadataPath fileInfo hfound =>
    split
    next hstatus =>
      exact .finish hcalls (.skipped filePath (some fileInfo.uploadStatus) (by simpa using hstatus))
        (by simp [hevents]) hidle
    next hstatus =>
      exact .extend hcalls (by simp [hevents, refusals]) ⟨0, rfl, by decide, fileInfo.uploadStatus, [], hstatus, rfl, rfl⟩

theorem Scanner.recorded_advance (h : s.Recorded) (reply : Reply) : (s.advance reply).Recorded := by
  obtain ⟨calls, pending, hcalls, hpending, hevents⟩ := h
  unfold advance
  cases hstage : s.stage with
  | idle => exact ⟨calls, pending, hcalls, hpending, hevents⟩
  | attempting u attempt =>
      rw [hstage] at hpending
      exact .extend hcalls hevents hpending
  | sending u attempt =>
      rw [hstage] at hpending
      obtain ⟨count, rfl, hcount, hrefused⟩ := hpending
      dsimp only
      split
      · exact .extend hcalls (by simp [hevents]) ⟨count, pending, hcount, hrefused, rfl⟩
      · exact .extend hcalls (by simp [hevents]; rfl) ⟨hcount, hrefused.concat _⟩
  | refused u attempt =>
      rw [hstage] at hpending
      obtain ⟨hle, hrefused⟩ := hpending
      dsimp only
      split
      next hlt => exact .extend hcalls hevents ⟨attempt, rfl, hlt, hrefused⟩
      next hge =>
        obtain rfl : attempt = maxRetries := Nat.le_antisymm hle (Nat.not_lt.mp hge)
        exact .extend hcalls hevents hrefused
  | accepted u =>
      rw [hstage] at hpending
      exact .extend hcalls hevents hpending
  | removing u =>
      rw [hstage] at hpending
      obtain ⟨count, refused, hcount, hrefused, rfl⟩ := hpending
      dsimp only
      split
      · exact .extend hcalls (by simp [hevents]) ⟨count, refused, hcount, hrefused, rfl⟩
      · obtain ⟨status, errors, hstatus, rfl, rfl⟩ := hrefused
        exact .finish hcalls (.uploaded u.filePath status errors false hstatus hcount) (by simp [hevents]) rfl
  | removed u =>
      rw [hstage] at hpending
      obtain ⟨count, refused, hcount, ⟨status, errors, hstatus, rfl, rfl⟩, rfl⟩ := hpending
      exact .finish hcalls (.uploaded u.filePath status errors true hstatus hcount) (by simp [hevents]) rfl
  | exhausted u =>
      rw [hstage] at hpending
      obtain ⟨status, errors, hstatus, hlength, rfl⟩ := hpending
      exact .finish hcalls (.failed u.filePath status errors hstatus hlength) (by simp [hevents]; rfl) rfl

theorem Scanner.recorded_step (op : ScanOp) (h : s.Recorded) : (Scanner.step op s).Recorded := by
  cases op with
  | change disk => exact h
  | advance reply => exact recorded_advance h reply
  | visit filePath =>
      unfold step
      dsimp only
      split
      next hidle =>
        split
        · exact h
        · exact recorded_uploadFile h hidle
      · exact h

end Recorded

/-- どの順にディスクが変わっても、一つの呼び出しは三度まで送り、受け取られればそこで止めて、その後でだけファイルを除く。 -/
theorem recorded_run (bucket : String) (disk : Disk) (ops : List ScanOp) :
    (scanner.run ops (Scanner.init bucket disk) : Scanner).Recorded :=
  System.run_invariant (S := scanner) (fun op _ h => Scanner.recorded_step op h) ops
    ⟨[], [], fun _ h => absurd h List.not_mem_nil, rfl, rfl⟩

end RtcEgress.Upload
