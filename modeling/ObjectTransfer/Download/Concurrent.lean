import ObjectTransfer.Config
import ObjectTransfer.Crew.Run
import ObjectTransfer.Download.Part
import ObjectTransfer.Download.RangeSource
import ObjectTransfer.Download.Sequencer
import ObjectTransfer.Retry
/-!
Concurrent downloads. Workers fetch the parts of the object into staging files beside the
destination, and the coordinator appends the staging files to the destination in the order of the
parts. When a part fails for good, all staging files and the destination are deleted.
-/
namespace ObjectTransfer.Download

/-- A fetched part in its staging file. -/
structure Staged where
  index : Nat
  size : Nat
  path : Files.Path
  deriving Repr, DecidableEq, Inhabited

structure Fetch where
  part : Part
  policy : RetryPolicy
  /-- The staging file and what is to be written to it, once the range was asked for. -/
  answer : Option (Files.Path × Nat × List (Except Cause ByteArray))

/-- How a download is to be done. -/
structure Plan where
  partSize : Nat
  workers : Nat
  retry : ChunkRetry
  /-- Which failures of a part are followed by another try. -/
  accepts : Error → Bool
  progress : Option Progress.Reporter

namespace Plan

def ofConfig (c : Config) : Plan :=
  ⟨c.downloadPart, c.workers, c.chunkRetry, Error.isRetryable, none⟩

/-- One thing to be done otherwise than the configuration says. -/
inductive Change where
  | partSize (n : Nat)
  | workers (n : Nat)
  | retry (r : ChunkRetry)
  | accepts (accepts : Error → Bool)
  | progress (r : Progress.Reporter)

/-- Makes one change. A size of no bytes stands for one byte, and no worker for one worker. -/
def set (p : Plan) : Change → Plan
  | .partSize n => { p with partSize := max n 1 }
  | .workers n => { p with workers := max n 1 }
  | .retry r => { p with retry := r }
  | .accepts accepts => { p with accepts }
  | .progress r => { p with progress := some r }

def adjusted (c : Config) (changes : List Change) : Plan := changes.foldl set (ofConfig c)

def policy (p : Plan) : RetryPolicy := ⟨p.retry.maxAttempts - 1, p.retry.delay, p.accepts⟩

end Plan

namespace Fetch

variable {σ : Type}

/-- A try has failed: tries again after a pause, or gives up. -/
def failed (f : Fetch) (e : Error) (w : World σ) : (Except Error Staged ⊕ Fetch) × World σ :=
  match f.policy.again? e with
  | some policy => (.inr { f with policy, answer := none }, w.pauseAll [.fixed policy.delay])
  | none => (.inl (.error e), w)

/-- Writes chunks to the staging file, which takes all of them, up to the first failure, and counts their
bytes. -/
def store (id : Nat) : List (Except Cause ByteArray) → (written : Nat) → World σ →
    Except Error Nat × World σ
  | [], written, w => (.ok written, w)
  | .error cause :: _, _, w => (.error ⟨.transport, cause⟩, w)
  | .ok chunk :: rest, written, w =>
    store id rest (written + chunk.size) (w.withFiles (w.files.append id chunk))

/-- Makes the staging file and asks for the range, or writes what came to the staging file. -/
def proceed (source : RangeSource σ) (directory : Files.Path) (f : Fetch) (w : World σ) :
    (Except Error Staged ⊕ Fetch) × World σ :=
  match f.answer with
  | none =>
    let stem := ".part-" ++ toString f.part.index ++ "-"
    let (path, id, files) := w.files.addTemporary directory stem
    match source.getRange (.inclusive f.part.start f.part.stop) (w.withFiles files) with
    | (.error e, w) => f.failed e (w.withFiles (w.files.forget path))
    | (.ok body, w) => (.inr { f with answer := some (path, id, body.items) }, w)
  | some (path, id, items) =>
    match store id items 0 w with
    | (.error e, w) => f.failed e (w.withFiles (w.files.forget path))
    | (.ok written, w) =>
      if written = f.part.size then (.inl (.ok ⟨f.part.index, written, path⟩), w)
      else
        f.failed (.transport (.wrongPartLength f.part.index written f.part.size))
          (w.withFiles (w.files.forget path))

/-- Deletes the staging file of a part that is not finished. -/
def abandon (f : Fetch) (w : World σ) : World σ :=
  match f.answer with
  | none => w
  | some (path, _, _) => w.withFiles (w.files.forget path)

end Fetch

/-- What a worker does: fetches one part after the other. -/
def craft {σ : Type} (p : Plan) (source : RangeSource σ) (directory : Files.Path) :
    Crew.Craft (World σ) Unit Part Fetch Staged where
  prepare w := (.ok (), w)
  chunk part := .download part.index
  begin _ part := ⟨part, p.policy, none⟩
  proceed := Fetch.proceed source directory
  abandon := Fetch.abandon
  discard staged w := w.withFiles (w.files.forget staged.path)

structure Assembly where
  destination : Nat
  /-- The bytes of the parts appended so far. -/
  written : Nat
  waiting : Sequencer Staged
  /-- The part being appended: its content, and how much of it is copied. -/
  appending : Option (Staged × Nat × Nat)
  progress : Option Progress.Tracker

namespace Assembly

variable {σ : Type}

/-- Staging files are copied in pieces of at most eight kibibytes. -/
def pieceSize : Nat := 8192

def completed (a : Assembly) (part : Staged) (w : World σ) : Assembly × World σ :=
  let written := a.written + part.size
  let w := w.withFiles (w.files.forget part.path)
  match a.progress with
  | none => ({ a with written, appending := none }, w)
  | some t =>
    let (t, report) := t.onBuffer written
    ({ a with written, appending := none, progress := some t }, w.report report.toList)

/-- Goes on with appending: copies the next piece, or opens the staging file of the next part. -/
def file (a : Assembly) (w : World σ) : Option (Except Error Assembly × World σ) :=
  match a.appending with
  | some (part, id, copied) =>
    let piece := (w.files.content id).read copied pieceSize
    if piece.size = 0 then
      let (a, w) := a.completed part w
      some (.ok a, w)
    else
      match w.files.refusal? a.destination with
      | some fault => some (.error (.io fault), w)
      | none =>
        some (.ok { a with appending := some (part, id, copied + piece.size) },
          w.withFiles (w.files.writeAt a.destination (a.written + copied) piece))
  | none =>
    match a.waiting.pop with
    | (none, _) => none
    | (some (_, part), waiting) =>
      match w.files.entries.lookup part.path with
      | some (.file id) => some (.ok { a with waiting, appending := some (part, id, 0) }, w)
      | _ => some (.error (.io .notFound), w)

def drop (a : Assembly) (w : World σ) : World σ :=
  let held := (a.appending.map (·.1)).toList ++ a.waiting.held.map (·.2)
  w.withFiles (held.foldl (fun files part => files.forget part.path) w.files)

def desk : Crew.Desk (World σ) Staged Assembly where
  accept part a w := ({ a with waiting := a.waiting.push part.index part }, w)
  file := file
  drop := drop
  deserted := .fetchersGone
  drains := true

end Assembly

namespace Plan

variable {σ : Type}

/-- More rounds than a crew with these parts can need: every try of a part takes a few moves, and so
does every piece that is copied. -/
def rounds (p : Plan) (total parts : Nat) : Nat :=
  parts * (2 * p.retry.tries + 8) + total / Assembly.pieceSize + 2 * parts + 2 * p.workers + 16

def removeDestination (destination : String) (w : World σ) : World σ :=
  match w.files.remove destination with
  | .ok files => w.withFiles files
  | .error _ => w

def fetchParts (p : Plan) (source : RangeSource σ) (destination : String) (id : Nat)
    (progress : Option Progress.Tracker) (object : ObjectMeta) (w : World σ) :
    Option (Except Error DownloadOutput × World σ) :=
  let parts := Part.split object.size p.partSize
  let directory := ((w.files.locate destination).map (·.directory)).toOption.getD []
  let crew := (Crew.State.initial parts p.workers ⟨id, 0, .empty, none, progress⟩ w).run
    (craft p source directory) Assembly.desk (p.rounds object.size parts.length)
  crew.result?.map fun
    | .error e => (.error e, removeDestination destination crew.world)
    | .ok assembly =>
      (.ok ⟨object.size, parts.length, object.eTag⟩,
        crew.world.report (assembly.progress.map fun t => t.finish object.size).toList)

def transfer (p : Plan) (source : RangeSource σ) (destination : String) (w : World σ) :
    Option (Except Error DownloadOutput × World σ) :=
  match source.objectMeta w with
  | (.error e, w) => some (.error e, w)
  | (.ok object, w) =>
    let started := p.progress.map fun r => (r.tracker object.size p.partSize).start 0
    let progress := started.map (·.1)
    let w := w.report (started.map (·.2)).toList
    match w.files.create destination with
    | .error fault => some (.error (.io fault), w)
    | .ok (id, files) =>
      let w := w.withFiles files
      if object.size = 0 then
        some (.ok ⟨0, 0, object.eTag⟩, w.report (progress.map fun t => t.finish 0).toList)
      else p.fetchParts source destination id progress object w

def download (p : Plan) (source : RangeSource σ) (destination : String) (w : World σ) :
    Option (Except Error DownloadOutput × World σ) :=
  let w := { w with metrics := w.metrics.initiate }
  (p.transfer source destination w).map fun (result, w) =>
    let size := match result with | .ok output => output.size | .error _ => 0
    (result, { w with metrics := w.metrics.record result size })

end Plan

end ObjectTransfer.Download
