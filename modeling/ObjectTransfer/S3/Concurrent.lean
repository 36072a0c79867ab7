import ObjectTransfer.Config
import ObjectTransfer.Crew.Run
import ObjectTransfer.Retry
import ObjectTransfer.S3.FilePart
import ObjectTransfer.S3.Multipart
/-!
Concurrent uploads in parts. Each worker opens the file for itself, reads the parts it takes and
uploads them; the coordinator collects what the service gave for them and completes the upload. An
upload that fails after it was initiated is aborted or retained, as the policy says.
-/
namespace ObjectTransfer.S3

/-- A part that is being uploaded. -/
structure Sending where
  file : Files.Entry
  part : FilePart
  policy : RetryPolicy
  /-- The bytes of the part, once they were read. -/
  data : Option ByteArray

/-- How an upload is to be done. -/
structure Plan where
  partSize : Nat
  workers : Nat
  retry : ChunkRetry
  onFailure : FailurePolicy
  progress : Option Progress.Reporter

namespace Plan

def ofConfig (c : Config) : Plan := ⟨c.uploadPart, c.workers, c.chunkRetry, .abortUpload, none⟩

/-- One thing to be done otherwise than the configuration says. -/
inductive Change where
  | partSize (n : Nat)
  | workers (n : Nat)
  | retry (r : ChunkRetry)
  | onFailure (policy : FailurePolicy)
  | progress (r : Progress.Reporter)
  deriving Repr, DecidableEq, Inhabited

/-- Makes one change. A size of parts is taken as it is; no worker stands for one worker. -/
def set (p : Plan) : Change → Plan
  | .partSize n => { p with partSize := n }
  | .workers n => { p with workers := max n 1 }
  | .retry r => { p with retry := r }
  | .onFailure policy => { p with onFailure := policy }
  | .progress r => { p with progress := some r }

def adjusted (c : Config) (changes : List Change) : Plan := changes.foldl set (ofConfig c)

def policy (p : Plan) : RetryPolicy := ⟨p.retry.maxAttempts - 1, p.retry.delay, Error.isRetryable⟩

end Plan

namespace Sending

variable {σ : Type}

def read (p : FilePart) (file : Files.Entry) (files : Files.Store) : Except Error ByteArray :=
  if p.length = 0 then .ok .empty
  else
    match files.readAt file p.offset p.length with
    | .error fault => .error (.io fault)
    | .ok data => if data.size < p.length then .error (.of .ioError .fileEndedEarly) else .ok data

def proceed (s : S3 σ) (u : Upload) (t : Sending) (w : World σ) :
    (Except Error (UploadedPart × Nat) ⊕ Sending) × World σ :=
  match t.data with
  | none =>
    match read t.part t.file w.files with
    | .error e => (.inl (.error e), w)
    | .ok data => (.inr { t with data := some data }, w)
  | some data =>
    match s.uploadPart u t.part.number data w with
    | (.ok part, w) => (.inl (.ok (part, t.part.length)), w)
    | (.error e, w) =>
      match t.policy.again? e with
      | some policy => (.inr { t with policy }, w.pauseAll [.fixed policy.delay])
      | none => (.inl (.error e), w)

end Sending

def craft {σ : Type} (p : Plan) (s : S3 σ) (u : Upload) (path : String) :
    Crew.Craft (World σ) Files.Entry FilePart Sending (UploadedPart × Nat) where
  prepare w := ((w.files.openRead path).mapError Error.io, w)
  chunk part := .upload part.number
  begin file part := ⟨file, part, p.policy, none⟩
  proceed := Sending.proceed s u
  abandon _ w := w
  discard _ w := w

structure Collection where
  /-- In the order they came. -/
  parts : List UploadedPart
  /-- Bytes in them. -/
  sent : Nat
  progress : Option Progress.Tracker

namespace Collection

variable {σ : Type}

def accept (part : UploadedPart × Nat) (c : Collection) (w : World σ) : Collection × World σ :=
  let parts := c.parts ++ [part.1]
  let sent := c.sent + part.2
  match c.progress with
  | none => (⟨parts, sent, none⟩, w)
  | some t =>
    let (t, report) := t.onBuffer sent
    (⟨parts, sent, some t⟩, w.report report.toList)

def desk : Crew.Desk (World σ) (UploadedPart × Nat) Collection where
  accept := accept
  file _ _ := none
  drop _ w := w
  deserted := .uploadersGone
  drains := false

end Collection

namespace Plan

variable {σ : Type}

def rounds (p : Plan) (parts : Nat) : Nat := parts * (p.retry.tries + 8) + 2 * p.workers + 16

def uploadParts (p : Plan) (s : S3 σ) (u : Upload) (path : String) (parts : List FilePart)
    (size : Nat) (w : World σ) : Option (Except Error (List UploadedPart) × World σ) :=
  let started := p.progress.map fun r => (r.tracker size p.partSize).start 0
  let w := w.report (started.map (·.2)).toList
  let crew := (Crew.State.initial parts p.workers ⟨[], 0, started.map (·.1)⟩ w).run
    (craft p s u path) Collection.desk (p.rounds parts.length)
  crew.result?.map fun
    | .error e => (.error e, crew.world)
    | .ok collection =>
      let reports := (collection.progress.map fun t => t.finish collection.sent).toList
      (.ok collection.parts, crew.world.report reports)

/-- Does with a failed upload what the policy says; the failure stays, whatever comes of that. -/
def giveUp (p : Plan) (s : S3 σ) (u : Upload) (w : World σ) : World σ :=
  match p.onFailure with
  | .abortUpload => (s.abort u w).2
  | .retain => w

def uploadAll (p : Plan) (s : S3 σ) (u : Upload) (path : String) (parts : List FilePart)
    (size : Nat) (w : World σ) : Option (Except Error Completed × World σ) :=
  (p.uploadParts s u path parts size w).map fun
    | (.error e, w) => (.error e, p.giveUp s u w)
    | (.ok uploaded, w) =>
      match s.complete u uploaded w with
      | (.ok completed, w) => (.ok completed, w)
      | (.error e, w) => (.error e, p.giveUp s u w)

/-- Uploads without counting it; gives also the size of the file. -/
def transfer (p : Plan) (s : S3 σ) (path : String) (d : Description) (w : World σ) :
    Option (Except Error (Completed × Nat) × World σ) :=
  if p.partSize < minUploadPart then some (.error (.invalid (.partSizeTooSmall p.partSize)), w)
  else
    match w.files.size path with
    | .error fault => some (.error (.io fault), w)
    | .ok size =>
      match FilePart.split size p.partSize with
      | .error e => some (.error e, w)
      | .ok parts =>
        match s.initiate d w with
        | (.error e, w) => some (.error e, w)
        | (.ok u, w) =>
          (p.uploadAll s u path parts size w).map fun (result, w) =>
            (result.map fun completed => (completed, size), w)

def upload (p : Plan) (s : S3 σ) (path : String) (d : Description) (w : World σ) :
    Option (Except Error Completed × World σ) :=
  let w := { w with metrics := w.metrics.initiate }
  (p.transfer s path d w).map fun (result, w) =>
    let size := match result with | .ok (_, size) => size | .error _ => 0
    (result.map (·.1), { w with metrics := w.metrics.record result size })

end Plan

end ObjectTransfer.S3
