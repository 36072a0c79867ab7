import ObjectTransfer.Upload.Attempt
/-!
Handlers of resumable uploads. A handler keeps its session from one call to the next, and through
its tracker file also for a handler in a later process.
-/
namespace ObjectTransfer.Upload

structure Handler where
  tracker : Option TrackerFile
  retries : Nat
  stalePolicy : StalePolicy
  session : Session
  deriving Repr, DecidableEq, Inhabited

namespace Handler

def ofConfig (c : Config) : Handler := ⟨none, c.retries, c.stalePolicy, .none⟩

/-- Gives the handler a tracker file, which is read before the next upload. -/
def withTracker (h : Handler) (path : String) : Handler :=
  { h with tracker := some ⟨path⟩, session := { h.session with trackerLoaded := false } }

def tracked? (tracker : Option TrackerFile) (files : Files.Store) : Option SessionUri :=
  (tracker.bind fun t => t.load files).bind fun token => (SessionUri.parse token).toOption

/-- Takes the session of the tracker file over, the first time. -/
def loadTracker (h : Handler) (files : Files.Store) : Session :=
  if h.session.trackerLoaded then h.session
  else
    let session := { h.session with trackerLoaded := true }
    match tracked? h.tracker files with
    | none => session
    | some uri => { session with uri := some uri, confirmed := 0 }

/-- What one upload is asked to do. -/
structure Task where
  key : ObjectKey
  source : InputSource
  headers : Http.Headers
  progress : Option Progress.Reporter

variable {σ : Type}

/-- The size and the digest of the source, each after some time has passed. -/
def inspect (c : Connection σ) (source : InputSource) (w : World σ) :
    Except Error (Nat × String) × World σ :=
  let w := c.wait w
  match source.size w.files with
  | .error e => (.error e, w)
  | .ok total =>
    let w := c.wait w
    ((source.md5 w.files).map fun md5 => (total, md5), w)

def transfer (h : Handler) (c : Connection σ) (buffer limit : Nat) (task : Task) (w : World σ) :
    Option (Except Error Output × State σ) :=
  let session := h.loadTracker w.files
  match inspect c task.source w with
  | (.error e, w) => some (.error e, ⟨session, w⟩)
  | (.ok (total, md5), w) =>
    let job : Job σ :=
      ⟨c, h.tracker, h.stalePolicy, buffer, task.key, task.source, task.headers, task.progress,
        total, md5⟩
    (job.resumable.run h.retries limit ⟨session, w⟩).map fun outcome =>
      let s := outcome.state
      (outcome.result, { s with world := s.world.pauseAll (outcome.pauses.map .backoff) })

/-- Bytes that an upload moved: what the store holds beyond the point where the first data went. -/
def moved (result : Except Error Output) (session : Session) : Nat :=
  match result with
  | .ok output => session.confirmed - output.startPoint
  | .error _ => 0

/-- Uploads a source as an object, going on with the session of an earlier call where there is one.
`none` when the upload has not ended after `limit` attempts. -/
def send (h : Handler) (c : Connection σ) (buffer limit : Nat) (task : Task) (w : World σ) :
    Option (Except Error Output × Handler × World σ) :=
  let w := { w with metrics := w.metrics.initiate }
  (h.transfer c buffer limit task w).map fun (result, s) =>
    let metrics := s.world.metrics.record result (moved result s.session)
    (result, { h with session := s.session }, { s.world with metrics })

end Handler

end ObjectTransfer.Upload
