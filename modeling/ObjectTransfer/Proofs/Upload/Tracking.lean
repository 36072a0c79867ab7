import ObjectTransfer.Proofs.TrackerFile
import ObjectTransfer.Proofs.Upload.Exchange
import ObjectTransfer.Proofs.Upload.Send
import ObjectTransfer.Proofs.Upload.SessionUri
/-!
The tracker file and the session of a handler. Whatever the store answers and whatever becomes of the
source, a handler that holds a session after a call holds the one in its tracker file, unless the
upload is over: then there is no tracker file.
-/
namespace ObjectTransfer

/-- The tracker file is left alone by whoever is at work while requests are made. -/
def Connection.LeavesTracker {σ : Type} (c : Connection σ) (t : TrackerFile) : Prop :=
  ∀ content, c.Keeps fun _ files => t.Holds files content

/-- Sessions are named in texts that a header can have and that are shorter than a target may be. -/
def Connection.NamesSessions {σ : Type} (c : Connection σ) : Prop :=
  ∀ request received p f response location,
    (c.answer request received p f).1 = .ok response →
    Http.Headers.text? response.headers "location" = some location →
    (∀ ch ∈ location.toList, Http.HeaderValue.isReadable ch.toNat) ∧
      location.utf8ByteSize < Uri.maxBytes

namespace Upload
open Handler Job
variable {σ : Type} {c : Connection σ} {t : TrackerFile}

def sessionIn (content : Option ByteArray) : Option SessionUri :=
  ((content.bind String.fromUTF8?).bind TrackerFile.token?).bind fun token =>
    (SessionUri.parse token).toOption

theorem sessionIn_eq_some {content : Option ByteArray} {uri : SessionUri}
    (h : sessionIn content = some uri) :
    ∃ token, (content.bind String.fromUTF8?).bind TrackerFile.token? = some token ∧
      SessionUri.parse token = .ok uri := by
  obtain ⟨token, htoken, hparse⟩ := Option.bind_eq_some_iff.1 h
  refine ⟨token, htoken, ?_⟩
  cases hp : SessionUri.parse token with
  | ok found =>
    rw [hp] at hparse
    cases hparse
    rfl
  | error e =>
    rw [hp] at hparse
    cases hparse

theorem tracked?_eq {files : Files.Store} {content : Option ByteArray} (h : t.Holds files content) :
    tracked? (some t) files = sessionIn content := by
  rw [tracked?, Option.bind_some, h.load_eq, sessionIn]

theorem sessionIn_line {uri : SessionUri} (h : uri.Written) :
    sessionIn (some (TrackerFile.line uri.text)) = some uri := by
  rw [sessionIn, Option.bind_some, TrackerFile.fromUTF8?_line, Option.bind_some, h.token,
    Option.bind_some, h.read]
  rfl

def Tracks (t : TrackerFile) (session : Session) (files : Files.Store) : Prop :=
  ∃ content, t.Holds files content ∧ ∀ uri, session.uri = some uri → sessionIn content = some uri

theorem Tracks.loadTracker {h : Handler} {files : Files.Store} (ht : h.tracker = some t)
    (hs : Tracks t h.session files) : Tracks t (h.loadTracker files) files := by
  obtain ⟨content, hc, huri⟩ := hs
  refine ⟨content, hc, ?_⟩
  unfold Handler.loadTracker
  split
  · exact huri
  · rw [ht, tracked?_eq hc]
    cases hin : sessionIn content with
    | none =>
      rw [hin] at huri
      exact huri
    | some uri =>
      intro uri' he
      exact he

theorem written_of_started (names : c.NamesSessions) {request : Http.Request} {w v : World σ}
    {response : Http.Response} {uri : SessionUri}
    (asked : c.exchange request w = (.ok response, v))
    (answered : startedSession response = .ok uri) : uri.Written := by
  obtain ⟨_, location, got, -, hl, hp⟩ := Answer.grants_iff.2
    (show (Except.ok response : Answer).bind startedSession = .ok uri from answered)
  cases got
  have ha : (c.answer request .nothing (c.arrive request w.peer w.files).1
      (c.arrive request w.peer w.files).2).1 = .ok response := by
    rw [Connection.exchange, Connection.ask] at asked
    exact congrArg Prod.fst asked
  obtain ⟨hread, hsize⟩ := names _ _ _ _ _ _ ha hl
  refine SessionUri.written_of_parse hp (fun ch hch => ?_) hsize
  have hr := hread ch hch
  simp only [Http.HeaderValue.isReadable, Bool.or_eq_true, Bool.and_eq_true, decide_eq_true_eq,
    beq_iff_eq] at hr
  omega

theorem Tracks.starts {u : Job σ} (ht : u.tracker = some t) (apart : u.connection.LeavesTracker t)
    (names : u.connection.NamesSessions) {s s' : State σ} {result : Except Error Unit}
    (h : u.Starts s result s') (hs : Tracks t s.session s.world.files) :
    Tracks t s'.session s'.world.files := by
  obtain ⟨content, hc, huri⟩ := hs
  have after {request : Http.Request} {answer : Except Error Http.Response} {w : World σ}
      (asked : u.connection.exchange request s.world = (answer, w)) : t.Holds w.files content := by
    have hk := (apart content).exchange request (w := s.world) hc
    rwa [asked] at hk
  cases h with
  | unmade made => exact ⟨content, hc, huri⟩
  | failed made asked => exact ⟨content, after asked, huri⟩
  | refused made asked answered => exact ⟨content, after asked, huri⟩
  | untracked made asked answered tracker =>
    rw [ht] at tracker
    cases tracker
  | saved made asked answered tracker save =>
    rw [ht] at tracker
    cases tracker
    obtain ⟨files, hsave, hfiles⟩ := (after asked).save _
    rw [hsave] at save
    cases save
    refine ⟨_, hfiles, fun uri he => ?_⟩
    cases he
    exact sessionIn_line (written_of_started names asked answered)
  | unsaved made asked answered tracker save =>
    -- A file that could be made can be written.
    rw [ht] at tracker
    cases tracker
    obtain ⟨files, hsave, -⟩ := (after asked).save _
    rw [hsave] at save
    cases save

theorem Tracks.resumes {u : Job σ} (ht : u.tracker = some t)
    (apart : u.connection.LeavesTracker t) (names : u.connection.NamesSessions) {s s' : State σ}
    {result : Except Error (Option String)} (h : u.Resumes s result s')
    (hs : Tracks t s.session s.world.files) : Tracks t s'.session s'.world.files := by
  have after {uri : SessionUri} {answer : Except Error SessionState} {w : World σ}
      (asked : u.query uri s.world = (answer, w)) : Tracks t s.session w.files := by
    obtain ⟨content, hc, huri⟩ := hs
    have hk := (apart content).exchange (queryRequest uri u.total) (w := s.world) hc
    rw [← query_world, asked] at hk
    exact ⟨content, hk, huri⟩
  cases h with
  | began held started => exact Tracks.starts ht apart names started hs
  | restarted held asked stale started => exact Tracks.starts ht apart names started (after asked)
  | incomplete held asked => exact after asked
  | complete held asked => exact after asked
  | untagged held asked => exact after asked
  | refused held asked auth => exact after asked
  | failed held asked disposition => exact after asked

theorem Tracks.sends {u : Job σ} (apart : u.connection.LeavesTracker t) {uri : SessionUri}
    {s s' : State σ} {result : Except Error String} (h : u.Sends uri s result s')
    (hs : Tracks t s.session s.world.files) : Tracks t s'.session s'.world.files := by
  obtain ⟨content, hc, huri⟩ := hs
  have hw := (apart content).wait (w := s.world) hc
  have after {reader : Reader} {answer : Except Error Http.Response} {body : SourceBody}
      {v : World σ}
      (put : u.connection.send (dataRequest uri (u.offset s) u.total) (u.rest s) reader
        (u.connection.wait s.world) = (answer, body, v)) : t.Holds v.files content := by
    have hk := (apart content).send (dataRequest uri (u.offset s) u.total) (u.rest s) reader hw
    rwa [put] at hk
  cases h with
  | unopened opened => exact ⟨content, hw, huri⟩
  | changed opened put changed => exact ⟨content, after put, huri⟩
  | stored opened put same answered => exact ⟨content, after put, huri⟩
  | failed opened put same answered =>
    rename_i v e
    obtain ⟨n, hsession⟩ := u.afterFailure_session uri e ⟨s.session, v⟩
    have hk := (apart content).exchange (queryRequest uri u.total) (w := v) (after put)
    refine ⟨content, ?_, ?_⟩
    · rw [afterFailure_world]
      exact hk
    · rw [hsession]
      exact huri

theorem holds_cleared {u : Job σ} (ht : u.tracker = some t) {s : State σ}
    {content : Option ByteArray} (hs : t.Holds s.world.files content) :
    t.Holds (u.cleared s).world.files none := by
  rw [cleared, ht, files_removeTracker]
  exact hs.remove

theorem holds_discard {u : Job σ} (ht : u.tracker = some t) {s : State σ}
    {content : Option ByteArray} (hs : t.Holds s.world.files content) :
    t.Holds (u.discard s).world.files none := by
  rw [Job.discard, ht, files_removeTracker]
  exact hs.remove

theorem uri_discard (u : Job σ) (s : State σ) : (u.discard s).session.uri = none := by
  rw [Job.discard, session_removeTracker]

/-- What an attempt leaves: no tracker file when the upload is over, and otherwise one that holds the
session, unless the session is about to be given up. -/
structure Leaves (t : TrackerFile) (result : Except Error Output) (s : State σ) : Prop where
  apart : ∃ content, t.Holds s.world.files content
  delivered : ∀ output, result = .ok output → t.Holds s.world.files none
  kept : ∀ e, result = .error e → e.disposition ≠ some .abort → Tracks t s.session s.world.files

theorem Leaves.failed {s : State σ} (hs : Tracks t s.session s.world.files) (e : Error) :
    Leaves t (.error e) s where
  apart := hs.imp fun _ h => h.1
  delivered _ h := by cases h
  kept _ _ _ := hs

theorem Leaves.finished {u : Job σ} (ht : u.tracker = some t)
    (apart : u.connection.LeavesTracker t) {eTag : String} {s s' : State σ}
    {result : Except Error Output} (h : u.Finishes eTag s result s')
    (hs : Tracks t s.session s.world.files) : Leaves t result s' := by
  obtain ⟨content, hc, -⟩ := hs
  have hcleared := holds_cleared ht hc
  have corrupted {v : State σ} (hv : t.Holds v.world.files none) :
      Leaves t (.error (.resumable .abort .uploadCorrupted)) v :=
    { apart := ⟨none, hv⟩
      delivered := fun _ h => by cases h
      kept := fun _ he hd => by
        cases he
        exact absurd rfl hd }
  cases h with
  | verified same =>
    exact ⟨⟨none, hcleared⟩, fun _ _ => hcleared, fun _ h => by cases h⟩
  | undeleted differs made => exact corrupted hcleared
  | deleted differs made =>
    exact corrupted ((apart none).exchange _ (w := (u.cleared s).world) hcleared)

theorem Tracks.goes {u : Job σ} (ht : u.tracker = some t) (apart : u.connection.LeavesTracker t)
    (names : u.connection.NamesSessions) {s s' : State σ} {result : Except Error Output}
    (h : u.Goes s result s') (hs : Tracks t s.session s.world.files) : Leaves t result s' := by
  have hb : Tracks t (u.begun s).session (u.begun s).world.files :=
    hs.imp fun content h => ⟨(apart content).wait (w := s.world) h.1, h.2⟩
  cases h with
  | unreadable size => exact .failed hb _
  | resized size differs => exact .failed hb _
  | unresumed size resumed => exact .failed (Tracks.resumes ht apart names resumed hb) _
  | complete size resumed finished =>
    have hr := Tracks.resumes ht apart names resumed hb
    exact .finished ht apart finished hr
  | unsent size resumed held sent =>
    have hr := Tracks.resumes ht apart names resumed hb
    exact .failed (Tracks.sends apart sent hr) _
  | sent size resumed held sent finished =>
    have hr := Tracks.resumes ht apart names resumed hb
    exact .finished ht apart finished (Tracks.sends apart sent hr)

section
variable {h : Handler} {buffer : Nat} {task : Task} {w : World σ}

theorem Tracks.begins (ht : h.tracker = some t) (apart : c.LeavesTracker t)
    (names : c.NamesSessions) (hs : Tracks t h.session w.files) {u : Job σ} {s : State σ}
    (hb : h.Begins c buffer task w u s) :
    u.tracker = some t ∧ u.connection = c ∧ Tracks t s.session s.world.files := by
  refine Begins.invariant (I := fun u s => u.tracker = some t ∧ u.connection = c ∧
    Tracks t s.session s.world.files) ?_ ?_ hb
  · rintro _ _ ⟨inspected⟩
    obtain ⟨content, hc, huri⟩ := Tracks.loadTracker ht hs
    exact ⟨ht, rfl, content, inspected.keeps (in_wait (apart content)) hc, huri⟩
  · rintro u s s' e ⟨hu, rfl, hs⟩ hattempt hretry
    have hl := Tracks.goes hu apart names (Job.goes hattempt) hs
    exact ⟨hu, rfl, hl.kept e rfl (Error.ne_abort_of_isRetryable hretry)⟩

/-- What a call leaves. -/
structure Settles (t : TrackerFile) (result : Except Error Output) (session : Session)
    (files : Files.Store) : Prop where
  delivered : ∀ output, result = .ok output → t.Holds files none
  given : ∀ e, result = .error e → e.disposition = some .abort →
    t.Holds files none ∧ session.uri = none
  kept : ∀ e, result = .error e → e.disposition ≠ some .abort → Tracks t session files

theorem ne_abort {d : Option Disposition} (h : d = none ∨ d = some .abortCurrentProcess) :
    d ≠ some .abort := by
  rcases h with rfl | rfl
  · decide
  · decide

theorem Tracks.ended (ht : h.tracker = some t) (apart : c.LeavesTracker t)
    (names : c.NamesSessions) (hs : Tracks t h.session w.files) {result : Except Error Output}
    {session : Session} {peer : σ} {files : Files.Store}
    (he : h.Ended c buffer task w result session peer files) : Settles t result session files := by
  -- An error that is not `Abort` leaves the state of the attempt as it is.
  have left {e : Error} {session : Session} {files : Files.Store} (hd : e.disposition ≠ some .abort)
      (hs : Tracks t session files) : Settles t (.error e) session files :=
    { delivered := fun _ h => by cases h
      given := fun _ h ha => by
        cases h
        exact absurd ha hd
      kept := fun _ _ _ => hs }
  cases he with
  | uninspected inspected =>
    obtain ⟨content, hc, huri⟩ := Tracks.loadTracker ht hs
    refine left ?_ ⟨content, inspected.keeps (in_wait (apart content)) hc, huri⟩
    rw [inspected.disposition]
    decide
  | attempted begun ends =>
    obtain ⟨hu, rfl, hs⟩ := Tracks.begins ht apart names hs begun
    cases ends with
    | finished attempt =>
      have hl := Tracks.goes hu apart names (Job.goes attempt) hs
      exact
        { delivered := fun _ _ => hl.delivered _ rfl
          given := fun _ h => by cases h
          kept := fun _ h => by cases h }
    | left attempt kept =>
      have hl := Tracks.goes hu apart names (Job.goes attempt) hs
      exact left (ne_abort kept) (hl.kept _ rfl (ne_abort kept))
    | abandoned attempt abort =>
      obtain ⟨content, hc⟩ := (Tracks.goes hu apart names (Job.goes attempt) hs).apart
      refine ⟨nofun, fun _ _ _ => ⟨holds_discard hu hc, uri_discard _ _⟩,
        fun _ h hd => ?_⟩
      cases h
      exact absurd abort hd
    | exhausted attempt retryable =>
      have hl := Tracks.goes hu apart names (Job.goes attempt) hs
      exact left (by simp) (hl.kept _ rfl (Error.ne_abort_of_isRetryable retryable))

end

theorem LeavesTracker.observed (apart : c.LeavesTracker t) : c.observed.LeavesTracker t :=
  fun content => (apart content).observed

theorem NamesSessions.observed (names : c.NamesSessions) : c.observed.NamesSessions :=
  fun request received p f => names request received p.peer f

section
variable {u : Job (Observed σ)} {seen : List (Exchanged σ)}

def StartsFirst (u : Job (Observed σ)) (seen : List (Exchanged σ)) (w : World (Observed σ)) : Prop :=
  ∃ x, startRequest u.key u.headers = .ok x.request ∧ seen ++ [x] <+: w.peer.seen

def Unasked (u : Job (Observed σ)) (seen : List (Exchanged σ)) (s : State (Observed σ)) : Prop :=
  s.session.uri = none ∧ s.world.peer.seen = seen ∨ StartsFirst u seen s.world

theorem Unasked.starts (hc : u.connection = c.observed) {s s' : State (Observed σ)}
    {result : Except Error Unit} (h : u.Starts s result s') (hs : s.world.peer.seen = seen)
    (huri : s.session.uri = none) :
    Unasked u seen s' ∧ (result = .ok () → StartsFirst u seen s'.world) := by
  have asked {request : Http.Request} {answer : Except Error Http.Response}
      {w : World (Observed σ)} (made : startRequest u.key u.headers = .ok request)
      (hx : u.connection.exchange request s.world = (answer, w)) : StartsFirst u seen w := by
    obtain ⟨x, hreq, -, -, -, -, hseen⟩ := c.seen_exchange request s.world
    rw [← hc, hx, hs] at hseen
    refine ⟨x, by rw [hreq]; exact made, ?_⟩
    exact hseen ▸ List.prefix_rfl
  cases h with
  | unmade made => exact ⟨.inl ⟨huri, hs⟩, nofun⟩
  | failed made hx => exact ⟨.inr (asked made hx), nofun⟩
  | refused made hx answered => exact ⟨.inr (asked made hx), nofun⟩
  | untracked made hx answered tracker =>
    have hfirst := asked made hx
    exact ⟨.inr hfirst, fun _ => hfirst⟩
  | saved made hx answered tracker save =>
    have hfirst := asked made hx
    exact ⟨.inr hfirst, fun _ => hfirst⟩
  | unsaved made hx answered tracker save => exact ⟨.inr (asked made hx), nofun⟩

theorem Unasked.resumes (hc : u.connection = c.observed) {s s' : State (Observed σ)}
    {result : Except Error (Option String)} (h : u.Resumes s result s')
    (hs : s.world.peer.seen = seen) (huri : s.session.uri = none) :
    Unasked u seen s' ∧ ∀ tag, result = .ok tag → StartsFirst u seen s'.world := by
  obtain ⟨r, started, rfl⟩ := h.of_unheld huri
  obtain ⟨hu, hok⟩ := Unasked.starts hc started hs huri
  refine ⟨hu, fun tag ht => ?_⟩
  cases r with
  | ok _ => exact hok rfl
  | error e => cases ht

theorem Unasked.goes (hc : u.connection = c.observed) {s s' : State (Observed σ)}
    {result : Except Error Output} (h : u.Goes s result s') (hs : Unasked u seen s) :
    Unasked u seen s' := by
  have grows (x : Exchanged σ) := Keeps.ofConnection (u := u)
    (hc ▸ c.keeps_seen (seen ++ [x]))
  have later {v v' : World (Observed σ)} (hv : StartsFirst u seen v)
      (step : ∀ x, seen ++ [x] <+: v.peer.seen → seen ++ [x] <+: v'.peer.seen) :
      StartsFirst u seen v' := hv.imp fun x hx => ⟨hx.1, step x hx.2⟩
  rcases hs with ⟨huri, hseen⟩ | hs
  · have hb : (u.begun s).world.peer.seen = seen := by
      rw [begun, hc, c.seen_wait, hseen]
    have resumes {v : State (Observed σ)} {r : Except Error (Option String)}
        (hr : u.Resumes (u.begun s) r v) := Unasked.resumes hc hr hb huri
    cases h with
    | unreadable size => exact .inl ⟨huri, hb⟩
    | resized size differs => exact .inl ⟨huri, hb⟩
    | unresumed size resumed => exact (resumes resumed).1
    | complete size resumed finished =>
      exact .inr (later ((resumes resumed).2 _ rfl) fun x hx =>
        (grows x).1.finishes (grows x).2 finished hx)
    | unsent size resumed held sent =>
      exact .inr (later ((resumes resumed).2 _ rfl) fun x hx => (grows x).1.sends sent hx)
    | sent size resumed held sent finished =>
      exact .inr (later ((resumes resumed).2 _ rfl) fun x hx =>
        (grows x).1.finishes (grows x).2 finished ((grows x).1.sends sent hx))
  · exact .inr (later hs fun x hx => (grows x).1.goes (grows x).2 h hx)

end

theorem Tracks.fails {h h' : Handler} {w v : World σ} (ht : h.tracker = some t)
    (apart : c.LeavesTracker t) (names : c.NamesSessions) (hs : Tracks t h.session w.files)
    (hf : h.Fails c w h' v) : h'.tracker = some t ∧ Tracks t h'.session v.files := by
  induction hf with
  | start => exact ⟨ht, hs⟩
  | @again _ _ _ _ _ _ e before returned ih =>
    obtain ⟨ht', hs'⟩ := ih
    obtain ⟨hh, hended⟩ := returned.ended
    have hset := Tracks.ended ht' apart names hs' hended
    refine ⟨by rw [hh]; exact ht', ?_⟩
    by_cases ha : e.disposition = some .abort
    · obtain ⟨hnone, huri⟩ := hset.given e rfl ha
      exact ⟨none, hnone, fun uri he => by rw [huri] at he; cases he⟩
    · exact hset.kept e rfl ha

section
variable {h h' : Handler} {buffer : Nat} {task : Task} {w w' : World (Observed σ)}

theorem seen_inspects {r : Except Error (Nat × String)} (hi : Inspects c.observed task w r w') :
    w'.peer.seen = w.peer.seen :=
  hi.keeps (P := fun (o : Observed σ) _ => o.seen = w.peer.seen)
    (fun v hv => (c.seen_wait v).trans hv) rfl

theorem first_attempt (huri : (h.loadTracker w.files).uri = none) {u : Job (Observed σ)}
    {s s' : State (Observed σ)} {result : Except Error Output}
    (hb : h.Begins c.observed buffer task w u s) (ha : u.attempt s = (result, s')) :
    ∃ new, s'.world.peer.seen = w.peer.seen ++ new ∧
      ∀ x ∈ new.head?, startRequest task.key task.headers = .ok x.request := by
  obtain ⟨hc, hkey, hheaders, hun⟩ := Begins.invariant
    (I := fun u s => u.connection = c.observed ∧ u.key = task.key ∧ u.headers = task.headers ∧
      Unasked u w.peer.seen s)
    (by
      rintro _ _ ⟨inspected⟩
      exact ⟨rfl, rfl, rfl, .inl ⟨huri, seen_inspects inspected⟩⟩)
    (by
      rintro u s t e ⟨hc, hkey, hheaders, hun⟩ hattempt -
      exact ⟨hc, hkey, hheaders, hun.goes hc (Job.goes hattempt)⟩) hb
  rcases hun.goes hc (Job.goes ha) with ⟨-, hseen⟩ | ⟨x, hx, rest, hseen⟩
  · exact ⟨[], by simp [hseen], by simp⟩
  · refine ⟨x :: rest, by simp [← hseen], ?_⟩
    intro y hy
    cases hy
    rw [← hkey, ← hheaders, hx]

theorem first_request {result : Except Error Output} (huri : (h.loadTracker w.files).uri = none)
    (hr : h.Returns c.observed buffer task w result h' w') :
    ∃ new, w'.peer.seen = w.peer.seen ++ new ∧
      ∀ x ∈ new.head?, startRequest task.key task.headers = .ok x.request := by
  obtain ⟨-, hended⟩ := hr.ended
  generalize w'.peer = peer at hended ⊢
  generalize w'.files = files at hended
  generalize h'.session = session at hended
  cases hended with
  | uninspected inspected => exact ⟨[], by simp [seen_inspects inspected], by simp⟩
  | attempted begun ends =>
    cases ends with
    | finished attempt => exact first_attempt huri begun attempt
    | left attempt kept => exact first_attempt huri begun attempt
    | abandoned attempt abort =>
      rename_i u _ _ _ v
      have hpeer : (u.discard v).world.peer = v.world.peer := by
        rw [Job.discard, peer_removeTracker]
      change ∃ new, (u.discard v).world.peer.seen = _ ∧ _
      rw [hpeer]
      exact first_attempt huri begun attempt
    | exhausted attempt retryable => exact first_attempt huri begun attempt

end

/-- Whatever the store answers and whatever becomes of the source: when a call of a handler with a
tracker file succeeds there is no tracker file any more; when it gives up for good there is no
tracker file and no session, and the next call asks for nothing before it starts one; and when it
fails otherwise with a session, that is the one the tracker file holds, with which a new handler goes
on. -/
theorem tracker_follows_session (apart : c.LeavesTracker t) (names : c.NamesSessions)
    {retries : Nat} {policy : StalePolicy} {w v v' : World (Observed σ)}
    {content : Option ByteArray} (holds : t.Holds w.files content) {h h' : Handler} {buffer : Nat}
    {task : Task} {result : Except Error Output}
    (before : Fails ⟨some t, retries, policy, .none⟩ c.observed w h v)
    (returned : h.Returns c.observed buffer task v result h' v') :
    (∀ output, result = .ok output → v'.files.find t.path = .error .notFound) ∧
    (∀ e, result = .error e → e.disposition = some .abort →
      v'.files.find t.path = .error .notFound ∧ h'.session.uri = none ∧
        ∀ buffer' task' result' h'' v'',
          h'.Returns c.observed buffer' task' v' result' h'' v'' →
          ∃ new, v''.peer.seen = v'.peer.seen ++ new ∧
            ∀ x ∈ new.head?, startRequest task'.key task'.headers = .ok x.request) ∧
    ∀ e uri, result = .error e → e.disposition ≠ some .abort → h'.session.uri = some uri →
      (∃ token, t.load v'.files = some token ∧ SessionUri.parse token = .ok uri) ∧
        ∀ retries' policy',
          (Handler.loadTracker ⟨some t, retries', policy', .none⟩ v'.files).uri = some uri := by
  have hs : Tracks t Session.none w.files := ⟨content, holds, nofun⟩
  have hobs := LeavesTracker.observed apart
  have hnames := NamesSessions.observed names
  obtain ⟨ht, htracks⟩ := Tracks.fails rfl hobs hnames hs before
  obtain ⟨hh, hended⟩ := returned.ended
  have settles := Tracks.ended ht hobs hnames htracks hended
  refine ⟨fun output hok => (settles.delivered output hok).find_none, fun e he habort => ?_,
    fun e uri he hd huri => ?_⟩
  · obtain ⟨hnone, huri⟩ := settles.given e he habort
    refine ⟨hnone.find_none, huri, fun buffer' task' result' h'' v'' hr => first_request ?_ hr⟩
    have ht' : h'.tracker = some t := by
      rw [hh]
      exact ht
    unfold Handler.loadTracker
    split
    · exact huri
    · rw [ht', tracked?_eq hnone]
      exact huri
  · obtain ⟨content', hc, hin⟩ := settles.kept e he hd
    have hsession := hin uri huri
    constructor
    · obtain ⟨token, htoken, hparse⟩ := sessionIn_eq_some hsession
      exact ⟨token, by rw [hc.load_eq, htoken], hparse⟩
    · intro retries' policy'
      rw [Handler.loadTracker, if_neg (by simp [Session.none]), tracked?_eq hc, hsession]

/-- A store that starts sessions and is not heard of again. -/
def silent : Connection Unit where
  arrive _ p f := (p, f)
  wants _ _ _ := false
  answer request _ p f :=
    (if request.method = .post then
      .ok ⟨⟨200⟩, [("location", .text "http://h/b/k?upload_id=1")], .empty⟩
    else .error (.transport (.given "gone")), p, f)

theorem silent_leaves : silent.LeavesTracker t :=
  fun _ => ⟨fun _ _ _ h => h, fun _ _ _ _ h => h, fun _ _ h => h⟩

theorem silent_names : silent.NamesSessions := by
  intro request received p f response location hr hl
  have hloc : location = "http://h/b/k?upload_id=1" := by
    simp only [silent] at hr
    split at hr
    · cases hr
      exact (Option.some.inj hl).symm
    · cases hr
  subst hloc
  exact ⟨List.all_eq_true.1 (by decide), by decide⟩

theorem holds_missing : (TrackerFile.mk "t").Holds .empty none :=
  ⟨by decide, [], "t", by decide, by decide, rfl⟩

def failure? {α : Type} : Except Error α → Option Disposition
  | .ok _ => none
  | .error e => e.disposition

/-- A call to that store ends with the session in the tracker file. -/
theorem silent_tracked : ∃ h' v' e uri,
    Returns ⟨some ⟨"t"⟩, 0, .restart, .none⟩ silent.observed 8
      ⟨⟨"http://h", "b", "k"⟩, .bytes ⟨#[1, 2, 3]⟩, [], none⟩ (.initial ⟨(), []⟩ .empty)
      (.error e) h' v' ∧ e.disposition = some .abortCurrentProcess ∧ h'.session.uri = some uri ∧
    (∃ token, (TrackerFile.mk "t").load v'.files = some token ∧ SessionUri.parse token = .ok uri) ∧
      ∀ retries' policy',
        (Handler.loadTracker ⟨some ⟨"t"⟩, retries', policy', .none⟩ v'.files).uri = some uri := by
  have hrun : ((Handler.mk (some ⟨"t"⟩) 0 .restart .none).send silent.observed 8 1
      ⟨⟨"http://h", "b", "k"⟩, .bytes ⟨#[1, 2, 3]⟩, [], none⟩ (.initial ⟨(), []⟩ .empty)).map
      (fun r => (failure? r.1, r.2.1.session.uri)) =
      some (some .abortCurrentProcess,
        some ⟨⟨some "http", some "h", "/b/k", some "upload_id=1"⟩⟩) := by decide
  obtain ⟨⟨result, h', v'⟩, hsend, hfacts⟩ := Option.map_eq_some_iff.1 hrun
  simp only [Prod.mk.injEq] at hfacts
  cases result with
  | ok output => cases hfacts.1
  | error e =>
    have he : e.disposition = some .abortCurrentProcess := hfacts.1
    have huri := hfacts.2
    have returned := returns_of_send hsend
    have hd : e.disposition ≠ some .abort := by
      rw [he]
      decide
    exact ⟨h', v', e, _, returned, he, huri,
      (tracker_follows_session silent_leaves silent_names holds_missing .start returned).2.2 e _ rfl
        hd huri⟩

end Upload

end ObjectTransfer
