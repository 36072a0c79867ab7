import ObjectTransfer.Config
import ObjectTransfer.Connection
import ObjectTransfer.Retry
import ObjectTransfer.TrackerFile
import ObjectTransfer.Upload.Exchange
/-!
One attempt of a resumable upload. An attempt asks the store how much of the session it holds, or
starts a new session, and sends the rest from there. What arrived is compared with the source by its
digest. When the data could not be sent, the store is asked once more, so that progress is known
before the next attempt.
-/
namespace ObjectTransfer.Upload

structure Session where
  uri : Option SessionUri
  /-- Bytes the store is known to hold. -/
  confirmed : Nat
  /-- The tracker file has been read. -/
  trackerLoaded : Bool
  /-- The offset from which the first data was sent. -/
  startPoint : Option Nat
  deriving Repr, DecidableEq, Inhabited

def Session.none : Session := ⟨.none, 0, false, .none⟩

/-- What a finished upload gives. -/
structure Output where
  eTag : String
  startPoint : Nat
  deriving Repr, DecidableEq, Inhabited

/-- An upload under way; nothing of this changes between its attempts. -/
structure Job (σ : Type) where
  connection : Connection σ
  tracker : Option TrackerFile
  stalePolicy : StalePolicy
  buffer : Nat
  key : ObjectKey
  source : InputSource
  headers : Http.Headers
  progress : Option Progress.Reporter
  /-- The size and the digest of the source when the upload began. -/
  total : Nat
  md5 : String

/-- What changes with the attempts. -/
structure State (σ : Type) where
  session : Session
  world : World σ

namespace State

variable {σ : Type}

/-- The store is known to hold this many bytes. -/
def confirm (s : State σ) (n : Nat) : State σ :=
  { s with session := { s.session with confirmed := n } }

def startAt (s : State σ) (n : Nat) : State σ :=
  { s with session := { s.session with startPoint := some (s.session.startPoint.getD n) } }

def removeTracker (s : State σ) (tracker : Option TrackerFile) : State σ :=
  match tracker with
  | none => s
  | some t => { s with world := s.world.withFiles (t.remove s.world.files) }

end State

namespace Job

variable {σ : Type}

def query (u : Job σ) (uri : SessionUri) (w : World σ) : Except Error SessionState × World σ :=
  match u.connection.exchange (queryRequest uri u.total) w with
  | (.ok response, w) => (stateOf response, w)
  | (.error e, w) => (.error e, w)

def start (u : Job σ) (s : State σ) : Except Error Unit × State σ :=
  let s := s.confirm 0
  match startRequest u.key u.headers with
  | .error e => (.error e, s)
  | .ok request =>
    match u.connection.exchange request s.world with
    | (.error e, w) => (.error e, { s with world := w })
    | (.ok response, w) =>
      match startedSession response with
      | .error e => (.error e, { s with world := w })
      | .ok uri =>
        let s : State σ := ⟨{ s.session with uri := some uri }, w⟩
        match u.tracker with
        | none => (.ok (), s)
        | some t =>
          match t.save uri.text w.files with
          | .ok files => (.ok (), { s with world := w.withFiles files })
          | .error e => (.error e, s)

/-- Finds out where to go on, or starts anew. Gives the entity tag when the store has everything. -/
def resumeOrStart (u : Job σ) (s : State σ) : Except Error (Option String) × State σ :=
  let fresh (s : State σ) : Except Error (Option String) × State σ :=
    match u.start s with
    | (.ok (), s) => (.ok none, s)
    | (.error e, s) => (.error e, s)
  match s.session.uri with
  | none => fresh s
  | some uri =>
    match u.query uri s.world with
    | (.ok (.complete eTag), w) =>
      let s := { s with world := w }.confirm u.total
      match eTag with
      | some eTag => (.ok (some eTag), s)
      | none => (.error (.resumable .abort .completeWithoutETag), s)
    | (.ok (.incomplete confirmed), w) => (.ok none, { s with world := w }.confirm confirmed)
    | (.ok (.rejected status), w) =>
      if (status.code = 401 || status.code = 403) && u.stalePolicy = .abortOnAuthFailure then
        (.error (.resumable .abort (.queryRefused status)), { s with world := w })
      else fresh { s with world := w }
    | (.error e, w) =>
      if e.disposition = some .startOver then fresh { s with world := w }
      else (.error e, { s with world := w })

/-- Asks for the state after data could not be sent; the failure stays, unless the store says that
the request itself is wrong. -/
def afterFailure (u : Job σ) (uri : SessionUri) (e : Error) (s : State σ) : Error × State σ :=
  match u.query uri s.world with
  | (.ok (.incomplete confirmed), w) => (e, { s with world := w }.confirm confirmed)
  | (.ok (.rejected status), w) =>
    (if status.code = 400 then .resumable .abort (.badRequestAfterFailure e.message) else e,
      { s with world := w })
  | (_, w) => (e, { s with world := w })

/-- Sends what the store does not have yet, and gives the entity tag of the object. -/
def sendRest (u : Job σ) (uri : SessionUri) (s : State σ) : Except Error String × State σ :=
  let offset := min s.session.confirmed u.total
  let w := u.connection.wait s.world
  match u.source.readerAt w.files offset with
  | .error e => (.error e, { s with world := w })
  | .ok reader =>
    let progress := u.progress.map fun p => p.tracker u.total u.buffer
    let body := SourceBody.ofRange offset (u.total - offset) u.buffer progress
    let (result, body, w) := u.connection.send (dataRequest uri offset u.total) body reader w
    let s := { s with world := w }
    if body.changed then
      (.error (.resumable .abort (.sourceChanged body.given (u.total - offset))), s)
    else
      match result.bind storedTag with
      | .ok eTag => (.ok eTag, s)
      | .error e =>
        let (e, s) := u.afterFailure uri e s
        (.error e, s)

def digestOf (eTag : String) : String :=
  String.ofList (Text.stripBy (fun c => c == '"' || c == '\'') eTag.toList)

/-- Compares the digest of what arrived with that of the source, and deletes what arrived
wrongly. -/
def verify (u : Job σ) (eTag : String) (s : State σ) : Except Error Output × State σ :=
  if digestOf eTag = u.md5 then (.ok ⟨eTag, s.session.startPoint.getD 0⟩, s)
  else
    let w :=
      match deleteRequest u.key with
      | .error _ => s.world
      | .ok request => (u.connection.exchange request s.world).2
    (.error (.resumable .abort .uploadCorrupted), { s with world := w })

def finish (u : Job σ) (eTag : String) (s : State σ) : Except Error Output × State σ :=
  u.verify eTag ((s.confirm u.total).removeTracker u.tracker)

def attempt (u : Job σ) (s : State σ) : Except Error Output × State σ :=
  let s := { s with world := u.connection.wait s.world }
  match u.source.size s.world.files with
  | .error e => (.error e, s)
  | .ok size =>
    if size ≠ u.total then (.error (.resumable .abort (.sizeChanged u.total size)), s)
    else
      match u.resumeOrStart s with
      | (.error e, s) => (.error e, s)
      | (.ok (some eTag), s) => u.finish eTag (s.startAt u.total)
      | (.ok none, s) =>
        let s := s.startAt s.session.confirmed
        match s.session.uri with
        | none => (.error (.of .runtimeError .noSession), s)
        | some uri =>
          match u.sendRest uri s with
          | (.error e, s) => (.error e, s)
          | (.ok eTag, s) => u.finish eTag s

def discard (u : Job σ) (s : State σ) : State σ :=
  { s with session := { s.session with uri := none, confirmed := 0 } }.removeTracker u.tracker

def resumable (u : Job σ) : Resumable (State σ) Output where
  confirmed s := s.session.confirmed
  attempt := u.attempt
  discard := u.discard

end Job

end ObjectTransfer.Upload
