import ObjectTransfer.Proofs.Files.Tidy
import ObjectTransfer.Proofs.Retry.Bounds
import ObjectTransfer.Proofs.Source.Changes
import ObjectTransfer.Proofs.Upload.Course
import ObjectTransfer.Proofs.Upload.Send
/-!
Uploads of a source that changes. A change shows in the size with which an attempt begins, or while the
rest of the source is read for the store. The call is aborted then, whatever the store has answered, and
nothing more is asked of it.
-/
namespace ObjectTransfer

theorem TrackerFile.find_remove (t : TrackerFile) (files : Files.Store) (place : Files.Path)
    (id : Nat) : (t.remove files).find t.path ≠ .ok (place, .file id) := by
  intro found
  unfold remove Files.Store.remove at found
  split at found
  · rename_i after removed
    split at removed
    · cases removed
    · cases removed
    · rename_i place' id' was
      cases removed
      -- both are where the path leads, and nothing is left there
      obtain ⟨-, _, _, located, -, same, -⟩ := Files.Store.find_file was
      obtain ⟨-, _, _, located', -, same', left⟩ := Files.Store.find_file found
      have here : place' = place := by
        rw [same, same', ← List.concat_eq_append, ← List.concat_eq_append]
        have place := Files.Store.locate_place located
        have place' := Files.Store.locate_place located'
        simpa [Files.Spot.place] using place.trans place'.symm
      subst here
      exact absurd left (by rw [Files.Store.lookup_filter_self]; simp)
  · rename_i f refused
    rw [found] at refused
    cases refused

def Observed.requests {σ : Type} (o : Observed σ) : List Http.Request := o.seen.map (·.request)

namespace Upload

namespace Job
variable {σ : Type} {u : Job σ} {s t : State σ}

/-- An attempt sends the rest of the source to a session: it has found out where to go on, and the source
is open. -/
structure Streams (u : Job σ) (s t : State σ) (uri : SessionUri) (reader : Reader) : Prop where
  size : u.source.size (u.begun s).world.files = .ok u.total
  resumed : u.resumeOrStart (u.begun s) = (.ok none, t)
  held : t.session.uri = some uri
  opened : u.source.readerAt (u.connection.wait t.world).files (u.offset t) = .ok reader

def restRequest (u : Job σ) (t : State σ) (uri : SessionUri) : Http.Request :=
  dataRequest uri (u.offset t) u.total

/-- The source shows a change in an attempt, after these requests: it does not have the size that it had
when the call began, or while its rest is read it ends early or goes on behind its end. -/
inductive Alters (u : Job (Observed σ)) (s : State (Observed σ)) : List Http.Request → Prop
  | resized {n : Nat} (size : u.source.size (u.begun s).world.files = .ok n) (differs : n ≠ u.total) :
      Alters u s s.world.peer.requests
  | streamed {t : State (Observed σ)} {uri : SessionUri} {reader : Reader}
      (streams : u.Streams s t uri reader)
      (finds : u.connection.Finds (u.restRequest t uri) .nothing (u.rest t)
        (reader, u.connection.arrived (u.restRequest t uri) (u.connection.wait t.world))) :
      Alters u s (t.world.peer.requests ++ [u.restRequest t uri])

theorem attempt_of_resized {n : Nat} (size : u.source.size (u.begun s).world.files = .ok n)
    (differs : n ≠ u.total) :
    u.attempt s = (.error (.resumable .abort (.sizeChanged u.total n)), u.begun s) := by
  have size : u.source.size (u.connection.wait s.world).files = .ok n := size
  unfold attempt
  dsimp only
  rw [size]
  dsimp only
  rw [if_pos differs]
  rfl

theorem attempt_of_rest {uri : SessionUri}
    (size : u.source.size (u.begun s).world.files = .ok u.total)
    (resumed : u.resumeOrStart (u.begun s) = (.ok none, t)) (held : t.session.uri = some uri) :
    u.attempt s = match u.sendRest uri (t.startAt t.session.confirmed) with
      | (.error e, v) => (.error e, v)
      | (.ok eTag, v) => u.finish eTag v := by
  have size : u.source.size (u.connection.wait s.world).files = .ok u.total := size
  have resumed : u.resumeOrStart ⟨s.session, u.connection.wait s.world⟩ = (.ok none, t) := resumed
  have held : (t.startAt t.session.confirmed).session.uri = some uri := held
  unfold attempt
  dsimp only
  rw [size]
  dsimp only
  rw [if_neg (fun h => h rfl), resumed]
  dsimp only
  rewrite [held]
  rfl

/-- The body decides about an attempt that streams, before the answer is looked at. -/
theorem Streams.attempt_of_changed {uri : SessionUri} {reader : Reader}
    (streams : u.Streams s t uri reader) {answer : Except Error Http.Response} {body : SourceBody}
    {w : World σ}
    (put : u.connection.send (u.restRequest t uri) (u.rest t) reader (u.connection.wait t.world) =
      (answer, body, w)) (changed : body.changed = true) :
    u.attempt s = (.error (.resumable .abort (.sourceChanged body.given (u.total - u.offset t))),
      ⟨(t.startAt t.session.confirmed).session, w⟩) := by
  have sent : u.sendRest uri (t.startAt t.session.confirmed) =
      (.error (.resumable .abort (.sourceChanged body.given (u.total - u.offset t))),
        ⟨(t.startAt t.session.confirmed).session, w⟩) := by
    have opened := streams.opened
    unfold restRequest at put
    unfold rest at put
    unfold offset at opened put ⊢
    unfold sendRest
    have confirmed : (t.startAt t.session.confirmed).session.confirmed = t.session.confirmed := rfl
    have world : (t.startAt t.session.confirmed).world = t.world := rfl
    dsimp only
    rw [confirmed, world, opened]
    dsimp only
    rw [put]
    dsimp only
    rw [if_pos changed]
  rw [attempt_of_rest streams.size streams.resumed streams.held, sent]

theorem Alters.attempt {c : Connection σ} {u : Job (Observed σ)} {s : State (Observed σ)}
    {requests : List Http.Request} (alters : u.Alters s requests)
    (observed : u.connection = c.observed) :
    ∃ e t, u.attempt s = (.error e, t) ∧ e.disposition = some .abort ∧
      t.world.peer.requests = requests := by
  cases alters with
  | resized size differs =>
    refine ⟨_, _, attempt_of_resized size differs, rfl, ?_⟩
    have kept : (u.begun s).world.peer.seen = s.world.peer.seen := by
      rw [begun, observed, Connection.seen_wait]
    rw [Observed.requests, kept, Observed.requests]
  | @streamed t uri reader streams finds =>
    have changed := (u.connection.changed_send_iff _ _ _ rfl rfl).2 finds
    rcases put : u.connection.send (u.restRequest t uri) (u.rest t) reader
      (u.connection.wait t.world) with ⟨answer, body, w⟩
    rw [put] at changed
    refine ⟨_, _, streams.attempt_of_changed put changed, rfl, ?_⟩
    obtain ⟨x, request, -, -, -, seen⟩ := c.seen_send (u.restRequest t uri) (u.rest t) reader
      (c.observed.wait t.world)
    rw [← observed, put, observed, Connection.seen_wait] at seen
    dsimp only at seen
    rw [Observed.requests, seen, List.map_append, List.map_singleton, request, Observed.requests]

theorem session_discard (u : Job σ) (s : State σ) :
    (u.discard s).session = { s.session with uri := none, confirmed := 0 } :=
  session_removeTracker _ _

theorem peer_discard (u : Job σ) (s : State σ) : (u.discard s).world.peer = s.world.peer :=
  peer_removeTracker _ _

theorem files_discard {t : TrackerFile} (u : Job σ) (s : State σ) (tracked : u.tracker = some t) :
    (u.discard s).world.files = t.remove s.world.files := by
  unfold discard
  rw [tracked]
  rfl

end Job

/-- A source that shows a change in some attempt of a call, whatever the store does and answers, aborts
the call. The request in which it shows is the last one; the session is forgotten and the tracker file
is deleted. -/
theorem altered_source_aborts {σ : Type} {h : Handler} {c : Connection σ} {buffer : Nat}
    {task : Handler.Task} {w : World (Observed σ)} {u : Job (Observed σ)} {s : State (Observed σ)}
    {requests : List Http.Request} (begun : h.Begins c.observed buffer task w u s)
    (alters : u.Alters s requests) :
    ∃ e h' w', h.Returns c.observed buffer task w (.error e) h' w' ∧
      e.disposition = some .abort ∧ w'.peer.requests = requests ∧
      h'.session.uri = none ∧ h'.session.confirmed = 0 ∧
      ∀ t, h.tracker = some t → ∀ place id, w'.files.find t.path ≠ .ok (place, .file id) := by
  obtain ⟨opened, reached⟩ := begun
  obtain ⟨e, t, attempted, abort, last⟩ := alters.attempt opened.connection
  obtain ⟨pauses, run⟩ := reached.aborts attempted abort
  obtain ⟨w', returned, peer, files⟩ := opened.returns run
  have session := u.session_discard t
  refine ⟨e, _, w', returned, abort, ?_, congrArg Session.uri session,
    congrArg Session.confirmed session, fun f tracked place id found => ?_⟩
  · have kept : (u.resumable.discard t).world.peer = t.world.peer := u.peer_discard t
    rw [peer, kept, last]
  · have removed : (u.resumable.discard t).world.files = f.remove t.world.files :=
      u.files_discard t (opened.tracker.trans tracked)
    rw [files, removed] at found
    exact f.find_remove _ place id found

def threeInFile : Files.Store := ⟨[(["f"], .file 0)], [(0, .ofBytes ⟨#[1, 2, 3]⟩)], 1⟩

/-- A store that empties the file while it is sent, and says that all of it has arrived. -/
def emptying : Connection Unit where
  arrive request s files :=
    (s, if request.method = .put then files.setContent 0 .empty else files)
  wants _ _ _ := true
  answer request _ s files :=
    if request.method = .post then
      (.ok ⟨⟨200⟩, [("location", .text "http://h/b/k?upload_id=1")], .empty⟩, s, files)
    else (.ok ⟨⟨200⟩, [("etag", .text "5289df737df57326fcdd22597afb1fac")], .empty⟩, s, files)

def fileTask : Handler.Task := ⟨⟨"http://h", "b", "k"⟩, .file "f", [], none⟩

/-- A handler with the tracker file `t`. -/
def noting : Handler := ⟨some ⟨"t"⟩, 0, .restart, .none⟩

def emptiedJob : Job (Observed Unit) :=
  noting.job emptying.observed 8192 fileTask 3 (Digest.md5Hex ⟨#[1, 2, 3]⟩)

def emptiedState : State (Observed Unit) :=
  ⟨noting.loadTracker threeInFile,
    { World.initial ⟨(), []⟩ threeInFile with metrics := Metrics.zero.initiate }⟩

theorem begins_emptied : noting.Begins emptying.observed 8192 fileTask
    (.initial ⟨(), []⟩ threeInFile) emptiedJob emptiedState :=
  .intro (.intro rfl) .start

def emptiedSending : State (Observed Unit) :=
  (emptiedJob.resumeOrStart (emptiedJob.begun emptiedState)).2

theorem emptied_alters : emptiedJob.Alters emptiedState
    (emptiedSending.world.peer.requests ++ [emptiedJob.restRequest emptiedSending
      ⟨⟨some "http", some "h", "/b/k", some "upload_id=1"⟩⟩]) := by
  have streams : emptiedJob.Streams emptiedState emptiedSending
      ⟨⟨some "http", some "h", "/b/k", some "upload_id=1"⟩⟩ (.file (.file 0) 0) :=
    ⟨rfl, Prod.ext rfl rfl, by decide +kernel, rfl⟩
  have got : (emptiedJob.connection.readSource (emptiedJob.rest emptiedSending).want
      (.file (.file 0) 0, emptiedJob.connection.arrived (emptiedJob.restRequest emptiedSending
        ⟨⟨some "http", some "h", "/b/k", some "upload_id=1"⟩⟩)
        (emptiedJob.connection.wait emptiedSending.world))).1 = .ok .empty := rfl
  exact .streamed streams (.now rfl (.early (by decide +kernel) (Prod.ext got rfl) rfl))

/-- The store reports the digest of the three bytes, and the call is aborted all the same. -/
theorem emptied_upload_aborts :
    ∃ e h' w', noting.Returns emptying.observed 8192 fileTask (.initial ⟨(), []⟩ threeInFile)
        (.error e) h' w' ∧
      e.disposition = some .abort ∧ w'.peer.requests.map (·.method) = [.post, .put] ∧
      h'.session.uri = none ∧ ∀ place id, w'.files.find "t" ≠ .ok (place, .file id) := by
  obtain ⟨e, h', w', returned, abort, last, forgotten, -, deleted⟩ :=
    altered_source_aborts begins_emptied emptied_alters
  refine ⟨e, h', w', returned, abort, ?_, forgotten, deleted ⟨"t"⟩ rfl⟩
  rw [last]
  decide +kernel

end Upload

end ObjectTransfer
