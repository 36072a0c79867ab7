import ObjectTransfer.Config
import ObjectTransfer.Download.RangeSource
import ObjectTransfer.Retry
import ObjectTransfer.TrackerFile
/-!
Downloads that can be resumed. Each attempt asks for what is missing behind the end of the
destination and appends it as it comes; that the destination refuses what is written shows later than
it is counted. The tracker file holds the entity tag of the object to which the destination belongs; a
destination is gone on with only when the object still has that tag. An entity tag that is an MD5
digest is compared with that of the finished destination.
-/
namespace ObjectTransfer.Download

/-- A download under way; nothing of this changes between its attempts. -/
structure Job (σ : Type) where
  source : RangeSource σ
  destination : String
  tracker : Option TrackerFile
  buffer : Nat
  progress : Option Progress.Reporter
  total : Nat

/-- What changes with the attempts. -/
structure State (σ : Type) where
  /-- The length of the destination. -/
  length : Nat
  /-- Ranges asked for. -/
  requests : Nat
  world : World σ

def forget {σ : Type} (tracker : Option TrackerFile) (w : World σ) : World σ :=
  match tracker with
  | none => w
  | some t => w.withFiles (t.remove w.files)

/-- A destination opened for writing at its end. What is written is taken over at once and put into
the file afterwards, so a refusal shows with the next write or when all is flushed. -/
structure Sink where
  id : Nat
  /-- Why the last write was refused, if it was and nobody knows yet. -/
  refused : Option Files.Fault
  deriving Repr, DecidableEq, Inhabited

namespace Sink

/-- More bytes than these, which are two mebibytes, are not taken over at once. -/
def room : Nat := 2097152

def opened (id : Nat) : Sink := ⟨id, none⟩

def write (f : Sink) (chunk : ByteArray) (files : Files.Store) :
    Except Files.Fault (Sink × Files.Store) :=
  match f.refused <|> files.refusal? f.id with
  | none => .ok (f, files.append f.id chunk)
  | some fault =>
    if chunk.isEmpty then .ok (f, files)
    else if f.refused.isSome || room < chunk.size then .error fault
    else .ok ({ f with refused := some fault }, files)

/-- Flushes what was written, after it came to this; a refusal is told first. -/
def flush (f : Sink) (result : Except Error Unit) : Except Error Unit :=
  match f.refused with
  | none => result
  | some fault => .error (.io fault)

end Sink

namespace Job

variable {σ : Type}

def count (bytes : Nat) (p : Option Progress.Tracker) (s : State σ) :
    Option Progress.Tracker × State σ :=
  let length := s.length + bytes
  match p with
  | none => (none, { s with length })
  | some t =>
    let (t, report) := t.onBuffer length
    (some t, { s with length, world := s.world.report report.toList })

/-- Appends what comes, up to the first failure. A chunk that would pass the size of the object is
not written. -/
def receive (d : Job σ) :
    Sink → List (Except Cause ByteArray) → Option Progress.Tracker → State σ →
      Except Error Unit × Option Progress.Tracker × State σ
  | f, [], p, s => (f.flush (.ok ()), p, s)
  | f, .error cause :: _, p, s => (f.flush (.error ⟨.transport, cause⟩), p, s)
  | f, .ok chunk :: rest, p, s =>
    if d.total < s.length + chunk.size then
      (f.flush (.error (.resumable .abort .tooManyBytes)), p, s)
    else
      match f.write chunk s.world.files with
      | .error fault => (.error (.io fault), p, s)
      | .ok (f, files) =>
        let (p, s) := count chunk.size p { s with world := s.world.withFiles files }
        receive d f rest p s

/-- Asks for what is missing and appends it to the opened destination. -/
def fetchRest (d : Job σ) (f : Sink) (s : State σ) : Except Error Unit × State σ :=
  let (p, s) :=
    match d.progress with
    | none => (none, s)
    | some r =>
      let (t, report) := (r.tracker d.total d.buffer).start s.length
      (some t, { s with world := s.world.report [report] })
  let s := { s with requests := s.requests + 1 }
  match d.source.getRange (.allFrom s.length) s.world with
  | (.error e, w) => (.error e, { s with world := w })
  | (.ok body, w) =>
    match d.receive f body.items p { s with world := w } with
    | (.error e, _, s) => (.error e, s)
    | (.ok (), p, s) =>
      if s.length < d.total then (.error (.transport (.connectionClosed s.length d.total)), s)
      else
        let reports := (p.map fun t => t.finish s.length).toList
        (.ok (), { s with world := s.world.report reports })

def attempt (d : Job σ) (s : State σ) : Except Error Unit × State σ :=
  match s.world.files.openAppend d.destination with
  | .error fault => (.error (.io fault), s)
  | .ok id =>
    let s := { s with length := (s.world.files.content id).size }
    if s.length = d.total then (.ok (), s) else d.fetchRest (.opened id) s

def discard (d : Job σ) (s : State σ) : State σ := { s with world := forget d.tracker s.world }

def resumable (d : Job σ) : Resumable (State σ) Unit where
  confirmed s := s.length
  attempt := d.attempt
  discard := d.discard

end Job

/-- The digest in an entity tag that is one: 32 hexadecimal digits, with or without double
quotes. -/
def plainMd5 (eTag : String) : Option String :=
  let digest := Text.stripBy (· == '"') eTag.toList
  if digest.length = 32 && digest.all Text.Hex.isHexDigit then
    some (String.ofList (digest.map Char.toLower))
  else none

structure Handler where
  tracker : Option TrackerFile
  retries : Nat
  deriving Repr, DecidableEq, Inhabited

namespace Handler

variable {σ : Type}

def ofConfig (c : Config) : Handler := ⟨none, c.retries⟩

/-- The length from which the destination can be gone on with: it belongs to the object with this
tag and is not longer than the object. -/
def resumable? (h : Handler) (destination : String) (object : ObjectMeta) (files : Files.Store) :
    Option Nat :=
  match h.tracker, object.eTag with
  | some t, some eTag =>
    if t.load files = some eTag then
      match files.size destination with
      | .ok length => if length ≤ object.size then some length else none
      | .error _ => none
    else none
  | _, _ => none

def restart (h : Handler) (destination : String) (object : ObjectMeta) (files : Files.Store) :
    Except Error Unit × Files.Store :=
  match files.create destination with
  | .error fault => (.error (.io fault), files)
  | .ok (_, files) =>
    match h.tracker, object.eTag with
    | some t, some eTag =>
      match t.save eTag files with
      | .ok files => (.ok (), files)
      | .error e => (.error e, files)
    | _, _ => (.ok (), files)

def resumePoint (h : Handler) (destination : String) (object : ObjectMeta) (w : World σ) :
    Except Error Nat × World σ :=
  match h.resumable? destination object w.files with
  | some length => (.ok length, w)
  | none =>
    let (result, files) := h.restart destination object w.files
    (result.map fun _ => 0, w.withFiles files)

/-- Compares the finished destination with the digest in the entity tag, and deletes it when it is
not what was asked for. -/
def verify (destination : String) (eTag : Option String) (w : World σ) :
    Except Error Unit × World σ :=
  match eTag.bind plainMd5 with
  | none => (.ok (), w)
  | some expected =>
    match (InputSource.file destination).md5 w.files with
    | .error e => (.error e, w)
    | .ok actual =>
      if actual = expected then (.ok (), w)
      else
        let files :=
          match w.files.remove destination with
          | .ok files => files
          | .error _ => w.files
        (.error (.resumable .abort (.downloadCorrupted actual expected)), w.withFiles files)

/-- Downloads without counting it; gives also the number of bytes that were missing. -/
def transfer (h : Handler) (source : RangeSource σ) (destination : String) (buffer limit : Nat)
    (progress : Option Progress.Reporter) (w : World σ) :
    Option (Except Error (DownloadOutput × Nat) × World σ) :=
  match source.objectMeta w with
  | (.error e, w) => some (.error e, w)
  | (.ok object, w) =>
    if object.size = 0 then
      match w.files.create destination with
      | .error fault => some (.error (.io fault), w)
      | .ok (_, files) => some (.ok (⟨0, 0, object.eTag⟩, 0), forget h.tracker (w.withFiles files))
    else
      match h.resumePoint destination object w with
      | (.error e, w) => some (.error e, w)
      | (.ok length, w) =>
        let job : Job σ := ⟨source, destination, h.tracker, buffer, progress, object.size⟩
        (job.resumable.run h.retries limit ⟨length, 0, w⟩).map fun outcome =>
          let s := outcome.state
          let w := s.world.pauseAll (outcome.pauses.map .backoff)
          match outcome.result with
          | .error e => (.error e, w)
          | .ok () =>
            let (result, w) := verify destination object.eTag (forget h.tracker w)
            (result.map fun _ => (⟨object.size, s.requests, object.eTag⟩, object.size - length), w)

/-- Downloads an object to a file, going on with what an earlier call left there. `none` when the
download has not ended after `limit` attempts. -/
def get (h : Handler) (source : RangeSource σ) (destination : String) (buffer limit : Nat)
    (progress : Option Progress.Reporter) (w : World σ) :
    Option (Except Error DownloadOutput × World σ) :=
  let w := { w with metrics := w.metrics.initiate }
  (h.transfer source destination buffer limit progress w).map fun (result, w) =>
    let fetched := match result with | .ok (_, n) => n | .error _ => 0
    (result.map (·.1), { w with metrics := w.metrics.record result fetched })

end Handler

end ObjectTransfer.Download
