import ObjectTransfer.Proofs.Rehearsal.Storing
import ObjectTransfer.Proofs.Upload.Changes
import ObjectTransfer.Proofs.Upload.Delivery
import ObjectTransfer.Proofs.Upload.Wire
/-!
Uploads that are repeated. A call that succeeds leaves the handler with the finished session and without
a tracker file. Every further call with that handler asks for the state of the session, is told that
everything is there, and gives what the first call gave.
-/
namespace ObjectTransfer
open Rehearsal
variable {σ : Type}

namespace Rehearsal.Server

theorem bytesReceived_note_query (s : Server) (request : Http.Request) :
    (s.note (some .query) request .empty).bytesReceived = s.bytesReceived := by
  simp [bytesReceived, note]

end Rehearsal.Server

theorem TrackerFile.remove_remove (t : TrackerFile) (files : Files.Store) :
    t.remove (t.remove files) = t.remove files := by
  have gone := t.find_remove files
  generalize t.remove files = after at gone
  unfold remove Files.Store.remove
  split
  · rename_i left removed
    split at removed
    · cases removed
    · cases removed
    · rename_i place id found
      exact absurd found (gone place id)
  · rfl

namespace Upload

namespace Job

section
variable {u : Job σ} {s t : State σ}

theorem Starts.loaded {result : Except Error Unit} (h : u.Starts s result t) :
    t.session.trackerLoaded = s.session.trackerLoaded := by
  cases h with
  | unmade made => rfl
  | failed made asked => rfl
  | refused made asked answered => rfl
  | untracked made asked answered tracker => rfl
  | saved made asked answered tracker save => rfl
  | unsaved made asked answered tracker save => rfl

theorem Resumes.loaded {result : Except Error (Option String)} (h : u.Resumes s result t) :
    t.session.trackerLoaded = s.session.trackerLoaded := by
  cases h with
  | began held started => exact started.loaded
  | restarted held asked stale started => exact started.loaded
  | incomplete held asked => rfl
  | complete held asked => rfl
  | untagged held asked => rfl
  | refused held asked auth => rfl
  | failed held asked disposition => rfl

theorem Sends.loaded {uri : SessionUri} {result : Except Error String} (h : u.Sends uri s result t) :
    t.session.trackerLoaded = s.session.trackerLoaded := by
  cases h with
  | unopened opened => rfl
  | changed opened put changed => rfl
  | stored opened put same answered => rfl
  | @failed _ _ _ w e opened put same answered =>
    obtain ⟨n, session⟩ := afterFailure_session u uri e ⟨s.session, w⟩
    rw [session]

theorem session_cleared (u : Job σ) (s : State σ) :
    (u.cleared s).session = { s.session with confirmed := u.total } :=
  session_removeTracker _ _

theorem Finishes.loaded {eTag : String} {result : Except Error Output}
    (h : u.Finishes eTag s result t) : t.session.trackerLoaded = s.session.trackerLoaded := by
  cases h with
  | verified same => rw [session_cleared]
  | undeleted differs made => rw [session_cleared]
  | deleted differs made => rw [session_cleared]

theorem Goes.loaded {result : Except Error Output} (h : u.Goes s result t) :
    t.session.trackerLoaded = s.session.trackerLoaded := by
  cases h with
  | unreadable size => rfl
  | resized size differs => rfl
  | unresumed size resumed => exact resumed.loaded
  | complete size resumed finished => exact finished.loaded.trans resumed.loaded
  | unsent size resumed held sent => exact sent.loaded.trans resumed.loaded
  | sent size resumed held sent finished =>
    exact finished.loaded.trans (sent.loaded.trans resumed.loaded)

theorem remove_cleared {f : TrackerFile} (u : Job σ) (s : State σ) (tracker : u.tracker = some f) :
    f.remove (u.cleared s).world.files = (u.cleared s).world.files := by
  rw [cleared, tracker, files_removeTracker]
  exact f.remove_remove _

end

section
variable {u : Job (Observed Server)} {s t : State (Observed Server)} {tag : String}

theorem Resumes.told (hc : u.connection = Server.connection.observed)
    (h : u.Resumes s (.ok (some tag)) t) :
    ∃ uri, s.session.uri = some uri ∧ t.session = { s.session with confirmed := u.total } ∧
      t.world.peer.peer.Tells uri.uri tag := by
  generalize hr : Except.ok (some tag) = result at h
  cases h with
  | began held started => cases ‹Except Error Unit› <;> cases hr
  | restarted held asked stale started => cases ‹Except Error Unit› <;> cases hr
  | incomplete held asked => cases hr
  | @complete uri eTag w held asked =>
    cases hr
    have answer := query_answer u uri s.world
    have world := query_world u uri s.world
    rw [asked, hc] at answer world
    refine ⟨uri, held, rfl, ?_⟩
    have told : (s.world.peer.peer.answer (queryRequest uri u.total) .nothing
        s.world.files).2.1.Tells uri.uri tag :=
      Server.tells_answer _ rfl (Answer.tagged_iff.2 answer.symm)
    dsimp only at world
    subst world
    exact told
  | untagged held asked => cases hr
  | refused held asked auth => cases hr
  | failed held asked disposition => cases hr

theorem Sends.told (hc : u.connection = Server.connection.observed) {uri : SessionUri}
    (h : u.Sends uri s (.ok tag) t) :
    t.session = s.session ∧ t.world.peer.peer.Tells uri.uri tag := by
  cases h with
  | @stored reader answer body w _ opened put same answered =>
    obtain ⟨received, p, f, -, -, given, peer⟩ :=
      Connection.send_answer (c := u.connection) (P := fun _ _ => True) (fun _ _ _ => trivial)
        (dataRequest uri (u.offset s) u.total) (u.rest s) reader (u.connection.wait s.world) trivial
    rw [put, hc] at given peer
    dsimp only at given peer
    have told : (p.peer.answer (dataRequest uri (u.offset s) u.total) received f).2.1.Tells
        uri.uri tag := by
      rw [given] at answered
      exact Server.tells_answer _ rfl (Answer.stored_iff.2 answered)
    refine ⟨rfl, ?_⟩
    rw [peer]
    exact told

/-- What a successful upload leaves: the finished session, with the entity tag and the start point that it
gives, and no tracker file. -/
structure Completed (u : Job (Observed Server)) (output : Output) (uri : SessionUri)
    (t : State (Observed Server)) : Prop where
  held : t.session.uri = some uri
  confirmed : t.session.confirmed = u.total
  startPoint : t.session.startPoint = some output.startPoint
  tells : t.world.peer.peer.Tells uri.uri output.eTag
  same : digestOf output.eTag = u.md5
  gone : ∀ f ∈ u.tracker, f.remove t.world.files = t.world.files

theorem Finishes.completed {uri : SessionUri} {start : Nat} {output : Output}
    (h : u.Finishes tag s (.ok output) t) (known : s.session.uri = some uri)
    (started : s.session.startPoint = some start) (tells : s.world.peer.peer.Tells uri.uri tag) :
    u.Completed output uri t := by
  cases h with
  | verified same =>
    have session := u.session_cleared s
    refine ⟨by rw [session]; exact known, by rw [session], ?_, ?_, same,
      fun f tracker => u.remove_cleared s tracker⟩
    · rw [session]
      dsimp only
      rw [started, Option.getD_some]
    · rw [cleared, peer_removeTracker]
      exact tells

theorem Goes.completed (hc : u.connection = Server.connection.observed) {output : Output}
    (h : u.Goes s (.ok output) t) : ∃ uri, u.Completed output uri t := by
  cases h with
  | complete size resumed finished =>
    obtain ⟨uri, known, session, tells⟩ := resumed.told hc
    refine ⟨uri, finished.completed ?_ rfl tells⟩
    rw [State.startAt, session]
    exact known
  | sent size resumed known sent finished =>
    obtain ⟨session, tells⟩ := sent.told hc
    refine ⟨_, finished.completed (by rw [session]; exact known) (by rw [session]; rfl) tells⟩

theorem query_told {key : ObjectKey} {data : ByteArray} (hu : u.Carries key data) {uri : SessionUri}
    {w : World (Observed Server)} (tells : w.peer.peer.Tells uri.uri tag)
    (unscripted : w.peer.peer.scripted? .query = none) :
    ∃ x, IsQuery uri data.size x ∧ u.query uri w = (.ok (.complete (some tag)),
      { w with peer :=
        ⟨w.peer.peer.note (some .query) x.request .empty, w.peer.seen ++ [x]⟩ }) := by
  have asked := exchange_eq (tells.query unscripted data.size w.files)
  obtain ⟨-, -, -, -, -, readable⟩ := tells
  have answer : (u.query uri w).1 = .ok (.complete (some tag)) := by
    rw [query_answer, hu.connection, hu.total, asked]
    exact Answer.tagged_iff.1 readable
  have world := query_world u uri w
  rw [hu.connection, hu.total, asked] at world
  exact ⟨⟨queryRequest uri data.size, .nothing, .ok (Server.responseWith 200 "etag" tag),
    w.peer.peer.note (some .query) (queryRequest uri data.size) .empty, w.files⟩, ⟨rfl, rfl⟩,
    Prod.ext answer world⟩

theorem cleared_of_gone (gone : ∀ f ∈ u.tracker, f.remove s.world.files = s.world.files) :
    u.cleared s = s.confirm u.total := by
  cases tracker : u.tracker with
  | none => rw [cleared, tracker, State.removeTracker]
  | some f =>
    have same : f.remove (s.confirm u.total).world.files = (s.confirm u.total).world.files :=
      gone f tracker
    simp only [cleared, tracker, State.removeTracker, same]
    rfl

end

end Job

namespace Handler
variable {h h' : Handler} {data : ByteArray} {output : Output} {uri : SessionUri}

/-- A handler with which `data` was uploaded: the store tells so of the session that the handler has, and
there is no tracker file. -/
structure Completed (h : Handler) (data : ByteArray) (output : Output) (uri : SessionUri)
    (server : Server) (files : Files.Store) : Prop where
  session : h.session = ⟨some uri, data.size, true, some output.startPoint⟩
  tells : server.Tells uri.uri output.eTag
  same : Job.digestOf output.eTag = Digest.md5Hex data
  gone : ∀ t ∈ h.tracker, t.remove files = files

theorem loaded_loadTracker (h : Handler) (files : Files.Store) :
    (h.loadTracker files).trackerLoaded = true := by
  unfold loadTracker
  split
  · assumption
  · dsimp only
    split
    · rfl
    · rfl

/-- Every attempt of a call to upload `data` has one job, and the tracker file was read before. -/
theorem begins_bytes {c : Connection σ} {buffer : Nat} {task : Task} {w : World σ} {u : Job σ}
    {s : State σ} (source : task.source = .bytes data) (begun : h.Begins c buffer task w u s) :
    u = h.job c buffer task data.size (Digest.md5Hex data) ∧ s.session.trackerLoaded = true := by
  refine begun.invariant (I := fun u s =>
    u = h.job c buffer task data.size (Digest.md5Hex data) ∧ s.session.trackerLoaded = true) ?_ ?_
  · rintro _ _ ⟨inspected⟩
    unfold Inspects inspect at inspected
    rw [source] at inspected
    cases inspected
    exact ⟨rfl, h.loaded_loadTracker _⟩
  · rintro u s t e ⟨same, loaded⟩ attempted -
    exact ⟨same, (Job.goes attempted).loaded.trans loaded⟩

theorem Returns.completed {buffer : Nat} {task : Task} {w w' : World (Observed Server)}
    (source : task.source = .bytes data)
    (returned : h.Returns Server.connection.observed buffer task w (.ok output) h' w') :
    ∃ uri, h'.Completed data output uri w'.peer.peer w'.files := by
  obtain ⟨kept, ended⟩ := returned.ended
  have tracker : h'.tracker = h.tracker := by rw [kept]
  generalize hpeer : w'.peer = peer at ended
  generalize hfiles : w'.files = files at ended
  generalize hsession : h'.session = session at ended
  cases ended with
  | @attempted u s t _ _ begun ends =>
    obtain ⟨rfl, loaded⟩ := begins_bytes source begun
    cases ends with
    | finished attempt =>
      have goes := Job.goes attempt
      obtain ⟨uri, done⟩ := goes.completed rfl
      have loaded := goes.loaded.trans loaded
      refine ⟨uri, ?_, done.tells, done.same, tracker ▸ done.gone⟩
      rw [hsession]
      obtain ⟨⟨held, confirmed, trackerLoaded, startPoint⟩, world⟩ := t
      cases done.held
      cases done.confirmed
      cases done.startPoint
      cases loaded
      rfl

theorem Begins.succeeds {c : Connection σ} {buffer : Nat} {task : Task} {w : World σ} {u : Job σ}
    {s t : State σ} (begun : h.Begins c buffer task w u s) (attempt : u.attempt s = (.ok output, t)) :
    ∃ w', h.Returns c buffer task w (.ok output) { h with session := t.session } w' ∧
      w'.peer = t.world.peer ∧ w'.files = t.world.files := by
  obtain ⟨opens, reached⟩ := begun
  have turn (number idle : Nat) :
      u.resumable.turn h.retries number idle s = .done (.ok output) t := by
    simp only [Resumable.turn, Job.resumable, attempt]
  obtain ⟨pauses, run⟩ := reached.run_eq_some (turn _ _)
  exact opens.returns run

section
variable {w : World (Observed Server)} {u : Job (Observed Server)} {s : State (Observed Server)}
  {key : ObjectKey} {buffer : Nat} {headers : Http.Headers} {progress : Option Progress.Reporter}

/-- Its attempt asks for the session, is told that everything is there, and changes nothing. -/
theorem Completed.attempt (hu : u.Carries key data) (tracker : u.tracker = h.tracker)
    (held : s.session = h.session)
    (done : h.Completed data output uri s.world.peer.peer s.world.files)
    (unscripted : s.world.peer.peer.scripted? .query = none) :
    ∃ x t, u.attempt s = (.ok output, t) ∧ t.session = h.session ∧ IsQuery uri data.size x ∧
      t.world.peer = ⟨s.world.peer.peer.note (some .query) x.request .empty,
        s.world.peer.seen ++ [x]⟩ ∧ t.world.files = s.world.files := by
  have session := held.trans done.session
  have known : s.session.uri = some uri := by rw [session]
  have begun : u.begun s = s := by
    rw [Job.begun, hu.connection]
    rfl
  have size : u.source.size (u.begun s).world.files = .ok u.total := by
    rw [hu.source, hu.total]
    rfl
  obtain ⟨x, query, told⟩ := Job.query_told hu done.tells unscripted
  -- The answer decides how the attempt goes on.
  have resumed {result : Except Error (Option String)} {t : State (Observed Server)}
      (resumed : u.Resumes (u.begun s) result t) :=
    (Job.Resumes.of_held (begun ▸ resumed) known told (by rintro ⟨⟩)).2 _ rfl
  rcases attempted : u.attempt s with ⟨result, t⟩
  cases Job.goes attempted with
  | unreadable unreadable => cases size.symm.trans unreadable
  | resized resized differs =>
    cases size.symm.trans resized
    exact absurd rfl differs
  | unresumed size failed => cases (resumed failed).1
  | @complete _ t' _ _ size complete finished =>
    obtain ⟨tag, after⟩ := resumed complete
    cases tag
    have files : (t'.startAt u.total).world.files = s.world.files := by rw [after]; rfl
    have cleared : u.cleared (t'.startAt u.total) = (t'.startAt u.total).confirm u.total :=
      Job.cleared_of_gone fun f hf => files ▸ done.gone f (tracker ▸ hf)
    have left : ((t'.startAt u.total).confirm u.total).session = h.session := by
      rw [after, done.session, ← hu.total]
      simp [State.confirm, State.startAt, session]
    cases finished with
    | verified same =>
      have start : (u.cleared (t'.startAt u.total)).session.startPoint.getD 0 = output.startPoint := by
        rw [cleared, left, done.session]
        rfl
      rw [start, cleared]
      refine ⟨x, _, rfl, left, query, ?_, files⟩
      rw [after]
      rfl
    | undeleted differs made => exact absurd (done.same.trans hu.md5.symm) differs
    | deleted differs made => exact absurd (done.same.trans hu.md5.symm) differs
  | unsent size incomplete => cases (resumed incomplete).1
  | sent size incomplete => cases (resumed incomplete).1

/-- A further call with that handler asks once, changes nothing else, and gives the same. -/
theorem Completed.again (done : h.Completed data output uri w.peer.peer w.files)
    (unscripted : w.peer.peer.scripted? .query = none) :
    ∃ w' x, h.Returns Server.connection.observed buffer ⟨key, .bytes data, headers, progress⟩ w
        (.ok output) h w' ∧ IsQuery uri data.size x ∧
      w'.peer = ⟨w.peer.peer.note (some .query) x.request .empty, w.peer.seen ++ [x]⟩ ∧
      w'.files = w.files := by
  have first : h.loadTracker w.files = h.session := by
    rw [loadTracker, done.session]
    rfl
  have opens : h.Opens Server.connection.observed buffer ⟨key, .bytes data, headers, progress⟩ w
      (h.job Server.connection.observed buffer ⟨key, .bytes data, headers, progress⟩ data.size
        (Digest.md5Hex data)) ⟨h.loadTracker w.files, { w with metrics := w.metrics.initiate }⟩ :=
    .intro (inspects_bytes _ _ _ _ _ _)
  have carries : (h.job Server.connection.observed buffer
      ⟨key, .bytes data, headers, progress⟩ data.size (Digest.md5Hex data)).Carries key data :=
    ⟨rfl, rfl, rfl, rfl, rfl⟩
  rw [first] at opens
  obtain ⟨x, t, attempt, session, query, peer, files⟩ := Completed.attempt carries rfl
    (s := ⟨h.session, { w with metrics := w.metrics.initiate }⟩) rfl done unscripted
  obtain ⟨w', returned, peer', files'⟩ := (Begins.intro opens .start).succeeds attempt
  rw [session] at returned
  exact ⟨w', x, returned, query, peer'.trans peer, files'.trans files⟩

end

/-- The handler and the world after some calls of one handler, all to upload `data` to the same key, with
what each of them gave, first to last. Each has a buffer, headers and a reporter of its own. -/
inductive Repeats (c : Connection σ) (key : ObjectKey) (data : ByteArray) (h : Handler)
    (w : World σ) : List (Except Error Output) → Handler → World σ → Prop
  | none : Repeats c key data h w [] h w
  | again {results : List (Except Error Output)} {result : Except Error Output} {h' h'' : Handler}
      {v v' : World σ} {buffer : Nat} {headers : Http.Headers} {progress : Option Progress.Reporter}
      (before : Repeats c key data h w results h' v)
      (returned : h'.Returns c buffer ⟨key, .bytes data, headers, progress⟩ v result h'' v') :
      Repeats c key data h w (results ++ [result]) h'' v'

/-- What the calls after a success leave as it was, and what they add. -/
structure Stays (output : Output) (uri : SessionUri) (size : Nat) (h : Handler)
    (w : World (Observed Server)) (results : List (Except Error Output)) (h' : Handler)
    (v : World (Observed Server)) : Prop where
  given : ∀ result ∈ results, result = .ok output
  handler : h' = h
  files : v.files = w.files
  server : v.peer.peer = { w.peer.peer with requests := v.peer.peer.requests }
  received : v.peer.peer.bytesReceived = w.peer.peer.bytesReceived
  seen : ∃ queries : List (Exchanged Server), v.peer.seen = w.peer.seen ++ queries ∧
    queries.length = results.length ∧ ∀ x ∈ queries, IsQuery uri size x

theorem Completed.stays {key : ObjectKey} {w v : World (Observed Server)}
    {results : List (Except Error Output)}
    (done : h.Completed data output uri w.peer.peer w.files)
    (unscripted : w.peer.peer.scripted? .query = none)
    (repeats : Repeats Server.connection.observed key data h w results h' v) :
    Stays output uri data.size h w results h' v := by
  induction repeats with
  | none =>
    exact
      { given := fun _ none => absurd none List.not_mem_nil
        handler := rfl
        files := rfl
        server := rfl
        received := rfl
        seen := ⟨[], (List.append_nil _).symm, rfl, fun _ none => absurd none List.not_mem_nil⟩ }
  | @again results result h' h'' v v' buffer headers progress before returned ih =>
    obtain ⟨given, rfl, files, server, received, queries, seen, length, asked⟩ := ih
    have done' : h'.Completed data output uri v.peer.peer v.files := by
      rw [server, files]
      exact ⟨done.session, done.tells, done.same, done.gone⟩
    obtain ⟨w'', x, returned', query, peer, same⟩ := done'.again (by rw [server]; exact unscripted)
    obtain ⟨rfl, rfl, rfl⟩ := returned.unique returned'
    refine ⟨?_, rfl, same.trans files, ?_, ?_, queries ++ [x], ?_, ?_, ?_⟩
    · intro r member
      rcases List.mem_append.1 member with earlier | last
      · exact given r earlier
      · exact List.mem_singleton.1 last
    · rw [peer]
      dsimp only [Server.note]
      rw [server]
    · rw [peer]
      exact (Server.bytesReceived_note_query _ _).trans received
    · rw [peer, seen, List.append_assoc]
    · rw [List.length_append, List.length_append, length]
      rfl
    · intro y member
      rcases List.mem_append.1 member with earlier | last
      · exact asked y earlier
      · exact List.mem_singleton.1 last ▸ query

/-- Once an upload has succeeded, it may be repeated as often as one likes, as long as no answers to
queries are arranged for. Every further call of that handler with the same data and the same key gives the
same entity tag and the same start point, asks for the state of the session and sends nothing else. The
handler, the files, without the tracker file, and what the store has stay as they are; only the queries
are noted. And a further call does return. -/
theorem completed_upload_is_idempotent {buffer : Nat} {task : Task}
    (source : task.source = .bytes data) {w w' v : World (Observed Server)} {h'' : Handler}
    {results : List (Except Error Output)}
    (returned : h.Returns Server.connection.observed buffer task w (.ok output) h' w')
    (unscripted : w'.peer.peer.scripted? .query = none)
    (repeats : Repeats Server.connection.observed task.key data h' w' results h'' v) :
    ∃ uri, h'.session.uri = some uri ∧ Stays output uri data.size h' w' results h'' v ∧
      (∀ t ∈ h.tracker, ∀ place id, v.files.find t.path ≠ .ok (place, .file id)) ∧
      ∀ buffer headers progress, ∃ v', h''.Returns Server.connection.observed buffer
        ⟨task.key, .bytes data, headers, progress⟩ v (.ok output) h'' v' := by
  obtain ⟨uri, done⟩ := returned.completed source
  have stays := done.stays unscripted repeats
  have tracker : h'.tracker = h.tracker := by rw [returned.ended.1]
  refine ⟨uri, by rw [done.session], stays, ?_, ?_⟩
  · intro t ht place id
    rw [stays.files, ← done.gone t (tracker ▸ ht)]
    exact t.find_remove w'.files place id
  · intro buffer headers progress
    obtain ⟨rfl, files, server⟩ := And.intro stays.handler (And.intro stays.files stays.server)
    have still : h''.Completed data output uri v.peer.peer v.files := by
      rw [server, files]
      exact ⟨done.session, done.tells, done.same, done.gone⟩
    obtain ⟨v', x, again, -⟩ := still.again (by rw [server]; exact unscripted)
    exact ⟨v', again⟩

end Handler

section
variable {t : TrackerFile} {key : ObjectKey} {target : Uri} {b : ByteArray}
  {w : World (Observed Server)} {known : Option SessionUri} {retries buffer : Nat}
  {policy : StalePolicy} {task : Handler.Task}

theorem Stage.succeeds (wf : WellFormed key target) (hl : b.size < Text.Unsigned.limit)
    (h : Stage t target b w known) (delivers : task.Delivers key b)
    (uncut : w.peer.peer.breaks = []) :
    ∃ start h' w', (newcomer t retries policy).Returns Server.connection.observed buffer task w
      (.ok ⟨Server.digestTag b, start⟩) h' w' ∧ Delivered t target b w' := by
  obtain ⟨key, source, headers, progress⟩ := task
  cases delivers.source
  have opens : (newcomer t retries policy).Opens Server.connection.observed buffer
      ⟨key, .bytes b, headers, progress⟩ w _ _ := .intro (Handler.inspects_bytes _ _ _ _ _ _)
  obtain ⟨hu, hs⟩ := h.begins wf hl delivers (.intro opens .start)
  rcases attempt : Job.attempt _ _ with ⟨result, s⟩
  rcases (Job.goes attempt).delivers hu wf hl hs with ⟨⟨start, rfl⟩, done⟩ | ⟨e, -, -, -, fewer⟩
  · obtain ⟨w', returned, peer, files⟩ := (Handler.Begins.intro opens .start).succeeds attempt
    exact ⟨start, _, w', returned, peer ▸ done.peer, files ▸ done.files, peer ▸ done.prefixes⟩
  · have none : w.peer.peer.breaks.length = 0 := by rw [uncut]; rfl
    exact absurd (fewer.trans_eq none) (Nat.not_lt_zero _)

end

theorem fresh_upload_succeeds : ∃ output h' w',
    (newcomer ⟨"t"⟩ 0 .restart).Returns Server.connection.observed 8 threeBytes
      (.initial ⟨cutting [], []⟩ .empty) (.ok output) h' w' ∧ w'.peer.peer.scripted = [] := by
  have fresh : Stage ⟨"t"⟩ ⟨some "http", some "h", "/b/k", none⟩ ⟨#[1, 2, 3]⟩
      (.initial ⟨cutting [], []⟩ .empty) none :=
    .unstarted ⟨⟨rfl, rfl, rfl, rfl⟩, rfl, rfl, rfl⟩ holds_missing
      fun x member => absurd member List.not_mem_nil
  have delivers : threeBytes.Delivers ⟨"http://h", "b", "k"⟩ ⟨#[1, 2, 3]⟩ := ⟨rfl, rfl, by decide⟩
  obtain ⟨start, h', w', returned, done⟩ := fresh.succeeds wellFormed_plain (by decide) delivers rfl
  exact ⟨_, h', w', returned, done.peer.scripted⟩

/-- The object is uploaded a second time. -/
theorem repeated_upload_asks_once : ∃ output h' w' v,
    (newcomer ⟨"t"⟩ 0 .restart).Returns Server.connection.observed 8 threeBytes
      (.initial ⟨cutting [], []⟩ .empty) (.ok output) h' w' ∧
    Handler.Repeats Server.connection.observed threeBytes.key ⟨#[1, 2, 3]⟩ h' w'
      [.ok output] h' v ∧
    ∃ uri, Handler.Stays output uri 3 h' w' [.ok output] h' v := by
  obtain ⟨output, h', w', returned, plain⟩ := fresh_upload_succeeds
  have unscripted := Server.scripted?_eq_none plain .query
  obtain ⟨uri, done⟩ := returned.completed rfl
  obtain ⟨v, x, again, -⟩ : ∃ v x, h'.Returns Server.connection.observed 1
      threeBytes w' (.ok output) h' v ∧ _ :=
    done.again unscripted
  have repeats := Handler.Repeats.again .none again
  obtain ⟨uri, -, stays, -⟩ :=
    Handler.completed_upload_is_idempotent rfl returned unscripted repeats
  exact ⟨output, h', w', v, returned, repeats, uri, stays⟩

end Upload

end ObjectTransfer
