import ObjectTransfer.Proofs.Upload.Ownership
/-!
What a call deletes. When a call deletes an object, it has put this object there itself, or it went on
with a session that was complete before the call began, or that was a session for another object.
-/
namespace ObjectTransfer.Upload
open Http Rehearsal Server Handler Job
variable {σ : Type} {server : σ → Server} {path : String} {w : World (Observed σ)}
  {held : Option SessionUri} {c : Connection σ} {u : Job (Observed σ)}

def Leads (key : ObjectKey) (path : String) : Prop :=
  ∀ target, objectTarget key = .ok target → target.path = path

theorem query_noted (serves : c.Serves server) (hc : u.connection = c.observed) {uri : SessionUri}
    {v v' : World (Observed σ)} {answer : Except Error SessionState}
    (asked : u.query uri v = (answer, v')) :
    ∃ x : Exchanged σ, x.request = queryRequest uri u.total ∧
      answer = x.result.bind stateOf ∧ Notes server v.peer x v'.peer := by
  obtain ⟨x, hx, result, noted⟩ := noted_exchange serves (queryRequest uri u.total) (.inl rfl) v
  rw [← hc, ← query_world, asked] at noted
  refine ⟨x, hx, ?_, noted⟩
  rw [result, ← hc, ← query_answer, asked]

/-- The state of an attempt, as far as what was seen accounts for it. -/
def Sound (server : σ → Server) (path : String) (w : World (Observed σ)) (held : Option SessionUri)
    (s : State (Observed σ)) : Prop :=
  Accounts server path w held s.session.uri s.world.peer

namespace Sound

theorem starts (serves : c.Serves server) (hc : u.connection = c.observed)
    (leads : Leads u.key path) {s t : State (Observed σ)} {result : Except Error Unit}
    (h : u.Starts s result t) (hs : Sound server path w held s) : Sound server path w held t := by
  have asked {request : Request} {answer : Answer} {v : World (Observed σ)}
      (made : startRequest u.key u.headers = .ok request)
      (asked : u.connection.exchange request s.world = (answer, v)) :
      (∀ uri, answer.bind startedSession = .ok uri →
        Accounts server path w held (some uri) v.peer) ∧
      ((∀ uri, answer.bind startedSession ≠ .ok uri) →
        Accounts server path w held s.session.uri v.peer) := by
    obtain ⟨kind, target⟩ := kindOf_start made
    rw [hc] at asked
    obtain ⟨x, hx, result, noted⟩ := noted_exchange serves request (.inr kind) s.world
    rw [asked] at result noted
    subst hx result
    have undeleted : x.request.method ≠ .delete := by
      rw [method_of_start made]
      nofun
    refine ⟨fun uri answered => ?_, fun refused => ?_⟩
    · exact hs.granted noted undeleted made (leads _ target) (Answer.grants_iff.2 answered)
    · refine hs.next noted undeleted (fun _ => leads _ target) fun _ uri granted => ?_
      exact refused uri (Answer.grants_iff.1 granted)
  cases h with
  | unmade made => exact hs
  | failed made failed => exact (asked made failed).2 nofun
  | refused made refused answered =>
    refine (asked made refused).2 fun uri granted => ?_
    cases answered.symm.trans granted
  | untracked made named answered tracker => exact (asked made named).1 _ answered
  | saved made named answered tracker save => exact (asked made named).1 _ answered
  | unsaved made named answered tracker save => exact (asked made named).1 _ answered

theorem resumes (serves : c.Serves server) (hc : u.connection = c.observed)
    (leads : Leads u.key path) {s t : State (Observed σ)} {result : Except Error (Option String)}
    (h : u.Resumes s result t) (hs : Sound server path w held s) :
    Sound server path w held t ∧
      ∀ tag, result = .ok (some tag) → Justifies server path w held t.world.peer := by
  have queried {uri : SessionUri} {v : World (Observed σ)} {answer : Except Error SessionState}
      (asked : u.query uri s.world = (answer, v)) :
      Accounts server path w held s.session.uri v.peer := by
    obtain ⟨x, hx, -, noted⟩ := query_noted serves hc asked
    exact hs.put noted (by rw [hx]; rfl)
  have untold {r : Except Error Unit} (tag : String) :
      (r.map fun _ => (none : Option String)) ≠ .ok (some tag) := by
    cases r <;> nofun
  cases h with
  | began unheld started =>
    exact ⟨starts serves hc leads started hs, fun tag told => absurd told (untold tag)⟩
  | @restarted uri answer v r t known asked stale started =>
    have hv : Sound server path w held ⟨s.session, v⟩ := queried asked
    exact ⟨starts serves hc leads started hv, fun tag told => absurd told (untold tag)⟩
  | incomplete known asked => exact ⟨queried asked, nofun⟩
  | @complete uri eTag v known asked =>
    refine ⟨queried asked, fun _ _ => ?_⟩
    obtain ⟨x, hx, answered, noted⟩ := query_noted serves hc asked
    unfold Sound at hs
    rw [known] at hs
    exact hs.tagged noted (by rw [hx]; rfl) (by rw [hx]; rfl) (Answer.tagged_iff.2 answered.symm)
  | untagged known asked => exact ⟨queried asked, nofun⟩
  | refused known asked auth => exact ⟨queried asked, nofun⟩
  | failed known asked disposition => exact ⟨queried asked, nofun⟩

theorem sends (serves : c.Serves server) (hc : u.connection = c.observed) {uri : SessionUri}
    {s t : State (Observed σ)} {result : Except Error String} (h : u.Sends uri s result t)
    (known : s.session.uri = some uri) (hs : Sound server path w held s) :
    Sound server path w held t ∧
      ∀ tag, result = .ok tag → Justifies server path w held t.world.peer := by
  have waited : Accounts server path w held (some uri) (u.connection.wait s.world).peer := by
    unfold Sound at hs
    rw [known] at hs
    rw [hc]
    exact hs.wait serves
  have put {reader : Reader} {answer : Answer} {body : SourceBody} {v : World (Observed σ)}
      (put : u.connection.send (dataRequest uri (u.offset s) u.total) (u.rest s) reader
        (u.connection.wait s.world) = (answer, body, v)) :
      ∃ x : Exchanged σ, x.request = dataRequest uri (u.offset s) u.total ∧ x.result = answer ∧
        Notes server (u.connection.wait s.world).peer x v.peer := by
    obtain ⟨x, hx, result, noted⟩ := noted_put serves (dataRequest uri (u.offset s) u.total)
      rfl (u.rest s) reader (u.connection.wait s.world)
    rw [← hc, put] at result noted
    exact ⟨x, hx, result, noted⟩
  have sent {reader : Reader} {answer : Answer} {body : SourceBody} {v : World (Observed σ)}
      (h : u.connection.send (dataRequest uri (u.offset s) u.total) (u.rest s) reader
        (u.connection.wait s.world) = (answer, body, v)) :
      Accounts server path w held s.session.uri v.peer := by
    obtain ⟨x, hx, -, noted⟩ := put h
    rw [known]
    exact waited.put noted (by rw [hx]; rfl)
  cases h with
  | unopened opened =>
    refine ⟨?_, nofun⟩
    rw [← known] at waited
    exact waited
  | changed opened went changed => exact ⟨sent went, nofun⟩
  | stored opened went same answered =>
    refine ⟨sent went, fun _ _ => ?_⟩
    obtain ⟨x, hx, result, noted⟩ := put went
    rw [← result] at answered
    exact waited.tagged noted (by rw [hx]; rfl) (by rw [hx]; rfl) (Answer.stored_iff.2 answered)
  | @failed reader answer body v e opened went same answered =>
    refine ⟨?_, nofun⟩
    obtain ⟨n, session⟩ := u.afterFailure_session uri e ⟨s.session, v⟩
    obtain ⟨x, hx, -, noted⟩ := noted_exchange serves (queryRequest uri u.total) (.inl rfl) v
    rw [Sound, session, afterFailure_world, hc]
    exact (sent went).put noted (by rw [hx]; rfl)

end Sound

/-- What was seen at the end of an attempt: no deletion, or at the very end one of an object that is
accounted for. -/
inductive Ending (server : σ → Server) (path : String) (w : World (Observed σ))
    (held : Option SessionUri) (key : ObjectKey) (o : Observed σ) : Prop
  | undeleted {log : List (Exchanged σ)} (seen : o.seen = w.peer.seen ++ log)
      (none : ∀ y ∈ log, y.request.method ≠ .delete)
  | deleted {log : List (Exchanged σ)} {x : Exchanged σ}
      (seen : o.seen = w.peer.seen ++ log ++ [x])
      (none : ∀ y ∈ log, y.request.method ≠ .delete) (made : deleteRequest key = .ok x.request)
      (justified : (∃ data, Uploaded server (server w.peer.peer) path log data) ∨
        Inherited (server w.peer.peer) path held log)

theorem Sound.ending {s : State (Observed σ)} (h : Sound server path w held s) :
    Ending server path w held u.key s.world.peer := by
  obtain ⟨log, since, -⟩ := h
  exact .undeleted since.seen since.undeleted

theorem Justifies.finishes (hc : u.connection = c.observed) {eTag : String}
    {s t : State (Observed σ)} {result : Except Error Output} (h : u.Finishes eTag s result t)
    (hs : Justifies server path w held s.world.peer) :
    Ending server path w held u.key t.world.peer := by
  obtain ⟨log, since, justified⟩ := hs
  have cleared : (u.cleared s).world.peer = s.world.peer := peer_removeTracker _ _
  cases h with
  | verified same =>
    rw [cleared]
    exact .undeleted since.seen since.undeleted
  | undeleted differs made =>
    rw [cleared]
    exact .undeleted since.seen since.undeleted
  | @deleted request differs made =>
    obtain ⟨x, hx, -, -, -, -, seen⟩ := c.seen_exchange request (u.cleared s).world
    rw [cleared, since.seen] at seen
    rw [hc]
    exact .deleted seen since.undeleted (by rw [hx]; exact made) justified

theorem not_isRetryable_of_finishes {eTag : String} {s t : State σ} {u : Job σ}
    {result : Except Error Output} (h : u.Finishes eTag s result t) {e : Error}
    (failed : result = .error e) : ¬e.isRetryable := by
  cases h with
  | verified same => cases failed
  | undeleted differs made =>
    cases failed
    decide
  | deleted differs made =>
    cases failed
    decide

theorem Sound.goes (serves : c.Serves server) (hc : u.connection = c.observed)
    (leads : Leads u.key path) {s t : State (Observed σ)} {result : Except Error Output}
    (h : u.Goes s result t) (hs : Sound server path w held s) :
    Ending server path w held u.key t.world.peer ∧
      ∀ e, result = .error e → e.isRetryable → Sound server path w held t := by
  have hb : Sound server path w held (u.begun s) := by
    unfold Sound begun
    rw [hc]
    exact Accounts.wait serves hs
  have stays {v : State (Observed σ)} {r : Except Error Output} (hv : Sound server path w held v) :
      Ending server path w held u.key v.world.peer ∧
        ∀ e, r = .error e → e.isRetryable → Sound server path w held v :=
    ⟨hv.ending, fun _ _ _ => hv⟩
  have finishes {eTag : String} {v t : State (Observed σ)} {r : Except Error Output}
      (finished : u.Finishes eTag v r t) (justified : Justifies server path w held v.world.peer) :
      Ending server path w held u.key t.world.peer ∧
        ∀ e, r = .error e → e.isRetryable → Sound server path w held t :=
    ⟨justified.finishes hc finished, fun e failed retryable =>
      absurd retryable (not_isRetryable_of_finishes finished failed)⟩
  cases h with
  | unreadable size => exact stays hb
  | resized size differs => exact stays hb
  | unresumed size resumed => exact stays (Sound.resumes serves hc leads resumed hb).1
  | complete size resumed finished =>
    exact finishes finished ((Sound.resumes serves hc leads resumed hb).2 _ rfl)
  | unsent size resumed known sent =>
    have hr := (Sound.resumes serves hc leads resumed hb).1
    exact stays (Sound.sends serves hc sent known hr).1
  | sent size resumed known sent finished =>
    have hr := (Sound.resumes serves hc leads resumed hb).1
    exact finishes finished ((Sound.sends serves hc sent known hr).2 _ rfl)

/-- What a deletion is among what was seen: the last exchange. -/
theorem snoc_eq_of_deletes {log before after : List (Exchanged σ)} {x d : Exchanged σ}
    (none : ∀ y ∈ log, y.request.method ≠ .delete) (deletes : x.request.method = .delete)
    (h : log ++ [d] = before ++ x :: after) : before = log ∧ x = d := by
  obtain ⟨more, rfl, rest⟩ | ⟨more, rfl, rest⟩ := List.append_eq_append_iff.1 h
  · cases more with
    | nil =>
      cases rest
      exact ⟨List.append_nil _, rfl⟩
    | cons y more => simp at rest
  · cases more with
    | nil =>
      cases rest
      exact ⟨(List.append_nil _).symm, rfl⟩
    | cons y more =>
      cases rest
      exact absurd deletes (none x (by simp))

/-- When a call begins, the session that the handler holds is inherited or owned. -/
theorem Sound.opens (serves : c.Serves server) {h : Handler} {buffer : Nat} {task : Task}
    {s : State (Observed σ)} (opened : h.Opens c.observed buffer task w u s) :
    Sound server path w (h.loadTracker w.files).uri s := by
  cases opened with
  | @intro total md5 v inspected =>
    have waited : v.peer.seen = w.peer.seen ∧ server v.peer.peer = server w.peer.peer :=
      inspected.keeps
        (P := fun (o : Observed σ) _ => o.seen = w.peer.seen ∧ server o.peer = server w.peer.peer)
        (fun v hv => ⟨(c.seen_wait v).trans hv.1, (serves.elapse _ _).trans hv.2⟩) ⟨rfl, rfl⟩
    have since : Since server w v.peer [] :=
      ⟨by rw [waited.1, List.append_nil], by rw [waited.2]; rfl, by simp⟩
    refine ⟨[], since, ?_⟩
    by_cases foreign : ∃ uri id session, (h.loadTracker w.files).uri = some uri ∧
        uploadId? uri.uri = some id ∧ (server w.peer.peer).sessions.lookup id = some session ∧
        (session.eTag.isSome ∨ session.path ≠ path)
    · exact .inl ⟨rfl, foreign, by simp⟩
    · refine .inr fun now id hnow named session found => ?_
      have own : ¬(session.eTag.isSome ∨ session.path ≠ path) :=
        fun different => foreign ⟨now, id, session, hnow, named, found, different⟩
      rw [not_or, not_not] at own
      exact ⟨own.2, fun complete => absurd complete own.1⟩

/-- Whatever the store was told to do and whatever becomes of the source: when a call deletes an object,
that is the object of its key; and either a request with data of the same call has put this object there,
or the call went on with a session of an earlier one, which was complete before the call began or was a
session for another object, and has started none. -/
theorem deletions_are_accounted_for (serves : c.Serves server) {h : Handler} {buffer : Nat}
    {task : Task} {s : State (Observed σ)} (begun : h.Begins c.observed buffer task w u s)
    {before after : List (Exchanged σ)} {x : Exchanged σ}
    (seen : (u.attempt s).2.world.peer.seen = w.peer.seen ++ before ++ x :: after)
    (deletes : x.request.method = .delete) :
    PathOf task.key x.request.uri.path ∧
      ((∃ data, Uploaded server (server w.peer.peer) x.request.uri.path before data) ∨
        Inherited (server w.peer.peer) x.request.uri.path (h.loadTracker w.files).uri before) := by
  obtain ⟨path, leads⟩ : ∃ path, Leads task.key path := by
    cases htarget : objectTarget task.key with
    | error e =>
      refine ⟨"", fun target ht => ?_⟩
      rw [htarget] at ht
      cases ht
    | ok target =>
      refine ⟨target.path, fun target' ht => ?_⟩
      rw [htarget] at ht
      cases ht
      rfl
  obtain ⟨hc, hkey, sound⟩ := Begins.invariant
    (I := fun u s => u.connection = c.observed ∧ u.key = task.key ∧
      Sound server path w (h.loadTracker w.files).uri s)
    (fun u s opened => ⟨opened.connection, by cases opened; rfl, Sound.opens serves opened⟩)
    (fun u s t e ⟨hc, hkey, hs⟩ attempted retryable =>
      ⟨hc, hkey, (Sound.goes serves hc (hkey ▸ leads) (Job.goes attempted) hs).2 e rfl retryable⟩)
    begun
  rcases attempted : u.attempt s with ⟨result, t⟩
  obtain ⟨ending, -⟩ := Sound.goes serves hc (hkey ▸ leads) (Job.goes attempted) sound
  rw [attempted, List.append_assoc] at seen
  dsimp only at seen
  cases ending with
  | undeleted seen' none =>
    rw [seen', List.append_cancel_left_eq] at seen
    exact absurd deletes (none x (by rw [seen]; simp))
  | @deleted log d seen' none made justified =>
    rw [seen', List.append_assoc, List.append_cancel_left_eq] at seen
    obtain ⟨rfl, rfl⟩ := snoc_eq_of_deletes none deletes seen
    have target : objectTarget task.key = .ok x.request.uri := by
      rw [hkey, deleteRequest] at made
      split at made
      · cases made
      · rename_i target htarget
        rw [htarget, ← congrArg Request.uri (Except.ok.inj made)]
    rw [leads _ target]
    exact ⟨⟨_, target, leads _ target⟩, justified⟩

/-- An exchange as it looks from outside: the request, and what there is after it. -/
structure Glance where
  method : Method
  path : String
  kind : Server.Kind
  /-- The paths of the sessions. -/
  sessions : List String
  /-- The bytes of the object `/b/k`. -/
  object : Option (Array UInt8)
  deriving DecidableEq

def glance (y : Exchanged Server) : Glance :=
  ⟨y.request.method, y.request.uri.path, kindOf y.request,
    y.peer.sessions.map fun entry => entry.2.path, (y.peer.objects.lookup "/b/k").map (·.data)⟩

theorem seen_of_glances {seen : List (Exchanged Server)} {before : List Glance} {last : Glance}
    (glances : seen.map glance = before ++ [last]) :
    ∃ log x, seen = log ++ [x] ∧ log.map glance = before ∧ glance x = last := by
  obtain ⟨log, rest, rfl, hlog, hrest⟩ := List.map_eq_append_iff.1 glances
  obtain ⟨x, rfl, hx⟩ := List.map_eq_singleton_iff.1 hrest
  exact ⟨log, x, rfl, hlog, hx⟩

def bytesTask (data : ByteArray) : Task := ⟨⟨"http://h", "b", "k"⟩, .bytes data, [], none⟩

theorem serves_connection : Server.connection.Serves id where
  arrive _ _ _ := rfl
  elapse _ _ := rfl
  answer _ _ _ _ := ⟨rfl, rfl⟩

/-- A store whose objects get an entity tag that is not their digest. -/
def mistagging : Server := { Server.empty with eTag := some "\"x\"" }

def unheld : Handler := ⟨none, 0, .restart, .none⟩

def mistaggedJob : Job (Observed Server) :=
  unheld.job Server.connection.observed 8 (bytesTask ⟨#[1]⟩) 1 (Digest.md5Hex ⟨#[1]⟩)

def mistaggedState : State (Observed Server) :=
  ⟨unheld.loadTracker .empty,
    { World.initial ⟨mistagging, []⟩ .empty with metrics := Metrics.zero.initiate }⟩

theorem begins_mistagged : unheld.Begins Server.connection.observed 8 (bytesTask ⟨#[1]⟩)
    (.initial ⟨mistagging, []⟩ .empty) mistaggedJob mistaggedState :=
  .intro (.intro (inspects_bytes _ _ _ _ _ _)) .start

/-- The first call to that store finds its own object wrong, and deletes it. -/
theorem mistagged_upload_is_deleted : ∃ before x,
    (mistaggedJob.attempt mistaggedState).2.world.peer.seen = before ++ [x] ∧
      x.request.method = .delete ∧ x.request.uri.path = "/b/k" ∧
        ∃ data, Uploaded id mistagging "/b/k" before data := by
  have glances : (mistaggedJob.attempt mistaggedState).2.world.peer.seen.map glance =
      [⟨.post, "/b/k", .start, ["/b/k"], none⟩, ⟨.put, "/b/k", .chunk "1", ["/b/k"], some #[1]⟩] ++
        [⟨.delete, "/b/k", .other, ["/b/k"], none⟩] := by decide +kernel
  obtain ⟨before, x, seen, -, last⟩ := seen_of_glances glances
  have method : x.request.method = .delete := congrArg Glance.method last
  have here : x.request.uri.path = "/b/k" := congrArg Glance.path last
  have all : (mistaggedJob.attempt mistaggedState).2.world.peer.seen = [] ++ before ++ x :: [] := seen
  obtain ⟨-, uploaded | inherited⟩ :=
    deletions_are_accounted_for serves_connection begins_mistagged all method
  · rw [here] at uploaded
    exact ⟨before, x, seen, method, here, uploaded⟩
  · obtain ⟨uri, -, -, held, -⟩ := inherited.session
    cases held

/-- A call deletes the object `/b/k`, which was in the store before it began and was not put there by
the call. -/
def Loses (s : Server) (h : Handler) (task : Task) : Prop :=
  ∃ result h' w' before x object,
    h.Returns Server.connection.observed 8 task (.initial ⟨s, []⟩ .empty) result h' w' ∧
    w'.peer.seen = before ++ [x] ∧ x.request.method = .delete ∧ x.request.uri.path = "/b/k" ∧
    s.objects.lookup "/b/k" = some object ∧
    (latest id s before).objects.lookup "/b/k" = some object ∧
    x.peer.objects.lookup "/b/k" = none ∧ ¬∃ data, Uploaded id s "/b/k" before data

theorem loses_of_glances {s : Server} {h : Handler} {task : Task} {object : ByteArray}
    (before : List Glance) (sessions : List String)
    (glances : (h.send Server.connection.observed 8 1 task (.initial ⟨s, []⟩ .empty)).map
        (fun r => r.2.2.peer.seen.map glance) =
      some (before ++ [⟨.delete, "/b/k", .other, sessions, none⟩]))
    (stored : s.objects.lookup "/b/k" = some object)
    (there : before.getLast?.bind Glance.object = some object.data)
    (foreign : ∀ log, log.map glance = before → ¬∃ data, Uploaded id s "/b/k" log data) :
    Loses s h task := by
  obtain ⟨⟨result, h', w'⟩, sent, glanced⟩ := Option.map_eq_some_iff.1 glances
  obtain ⟨log, x, seen, rfl, last⟩ := seen_of_glances glanced
  refine ⟨result, h', w', log, x, object, returns_of_send sent, seen, congrArg Glance.method last,
    congrArg Glance.path last, stored, ?_, Option.map_eq_none_iff.1 (congrArg Glance.object last),
    foreign log rfl⟩
  rw [List.getLast?_map, Option.bind_map] at there
  obtain ⟨y, hy, bytes⟩ := Option.bind_eq_some_iff.1 there
  obtain ⟨found, hfound, same⟩ := Option.map_eq_some_iff.1 bytes
  rw [latest, hy]
  exact hfound.trans (congrArg some (ByteArray.ext same))

/-- The target of the first session of a store. -/
def sessionOne (path : String) : SessionUri :=
  ⟨⟨some "http", some "h", path, some "upload_id=1"⟩⟩

def holding (uri : SessionUri) : Handler := ⟨none, 0, .restart, ⟨some uri, 0, false, none⟩⟩

def finishedStore : Server :=
  { Server.empty with
    started := 1
    sessions := [("1", ⟨"/b/k", ⟨#[1]⟩, some (digestTag ⟨#[1]⟩)⟩)]
    objects := [("/b/k", ⟨#[1]⟩)] }

/-- The session was complete: the store says so, and the object it tells of is deleted. -/
theorem finished_store_loses :
    Loses finishedStore (holding (sessionOne "/b/k")) (bytesTask ⟨#[2]⟩) := by
  refine loses_of_glances [⟨.put, "/b/k", .query "1", ["/b/k"], some #[1]⟩] ["/b/k"]
    (by decide +kernel) rfl rfl ?_
  rintro log glances ⟨data, uploaded⟩
  obtain ⟨y, hy, id, chunk⟩ := uploaded.exists_chunk
  have query := List.mem_map_of_mem (f := glance) hy
  rw [glances, List.mem_singleton] at query
  cases chunk.symm.trans (congrArg Glance.kind query)

/-- An object of two bytes, and a session for another one, which holds one byte. -/
def otherStore : Server :=
  { Server.empty with
    started := 1
    sessions := [("1", ⟨"/b/j", ⟨#[2]⟩, none⟩)]
    objects := [("/b/k", ⟨#[1, 1]⟩)] }

/-- The session was one for another object: the rest of the data makes up that object, wrongly, and the
object of the key is deleted. -/
theorem other_store_loses :
    Loses otherStore (holding (sessionOne "/b/j")) (bytesTask ⟨#[1, 1]⟩) := by
  refine loses_of_glances
    [⟨.put, "/b/j", .query "1", ["/b/j"], some #[1, 1]⟩,
      ⟨.put, "/b/j", .chunk "1", ["/b/j"], some #[1, 1]⟩]
    ["/b/j"] (by decide +kernel) rfl rfl ?_
  rintro log glances ⟨data, uploaded⟩
  obtain ⟨t, ht, entry, hentry, here⟩ := uploaded.exists_session
  have elsewhere : t.sessions.map (fun entry => entry.2.path) = ["/b/j"] := by
    rcases ht with rfl | ⟨y, hy, rfl⟩
    · rfl
    · have held := List.mem_map_of_mem (f := glance) hy
      rw [glances] at held
      rcases List.mem_cons.1 held with same | same
      · exact congrArg Glance.sessions same
      · exact congrArg Glance.sessions (List.mem_singleton.1 same)
  have path := List.mem_map_of_mem (f := fun entry => entry.2.path) hentry
  rw [elsewhere, here] at path
  exact absurd path (by decide)

/-- Objects that a call did not put there are deleted in both of these cases: when the session of an
earlier call was complete, and when it was one for another object. -/
theorem inherited_sessions_lose_objects :
    Loses finishedStore (holding (sessionOne "/b/k")) (bytesTask ⟨#[2]⟩) ∧
      Loses otherStore (holding (sessionOne "/b/j")) (bytesTask ⟨#[1, 1]⟩) :=
  ⟨finished_store_loses, other_store_loses⟩

end ObjectTransfer.Upload
