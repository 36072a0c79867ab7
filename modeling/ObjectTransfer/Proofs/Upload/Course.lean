import Mathlib.Tactic.Common
import ObjectTransfer.Upload.Attempt
/-!
The courses that an attempt of an upload can take. Each relation has one case for every way through
an operation; what an operation keeps is proved by going through these cases once.
-/
namespace ObjectTransfer.Upload.Job
variable {σ : Type}

theorem method_of_start {key : ObjectKey} {headers : Http.Headers} {request : Http.Request}
    (made : startRequest key headers = .ok request) : request.method = .post := by
  unfold startRequest at made
  split at made
  · cases made
  · split at made
    · cases made
    · cases made
      rfl

/-- Starting a session: a request that cannot be made, one that fails, one that is refused, and a
session that is started, without a tracker file or with one that can or cannot be written. -/
inductive Starts (u : Job σ) (s : State σ) : Except Error Unit → State σ → Prop
  | unmade {e : Error} (made : startRequest u.key u.headers = .error e) :
      Starts u s (.error e) (s.confirm 0)
  | failed {request : Http.Request} {e : Error} {w : World σ}
      (made : startRequest u.key u.headers = .ok request)
      (asked : u.connection.exchange request s.world = (.error e, w)) :
      Starts u s (.error e) ⟨(s.confirm 0).session, w⟩
  | refused {request : Http.Request} {response : Http.Response} {e : Error} {w : World σ}
      (made : startRequest u.key u.headers = .ok request)
      (asked : u.connection.exchange request s.world = (.ok response, w))
      (answered : startedSession response = .error e) :
      Starts u s (.error e) ⟨(s.confirm 0).session, w⟩
  | untracked {request : Http.Request} {response : Http.Response} {uri : SessionUri} {w : World σ}
      (made : startRequest u.key u.headers = .ok request)
      (asked : u.connection.exchange request s.world = (.ok response, w))
      (answered : startedSession response = .ok uri) (tracker : u.tracker = none) :
      Starts u s (.ok ()) ⟨{ (s.confirm 0).session with uri := some uri }, w⟩
  | saved {request : Http.Request} {response : Http.Response} {uri : SessionUri} {w : World σ}
      {t : TrackerFile} {files : Files.Store}
      (made : startRequest u.key u.headers = .ok request)
      (asked : u.connection.exchange request s.world = (.ok response, w))
      (answered : startedSession response = .ok uri) (tracker : u.tracker = some t)
      (save : t.save uri.text w.files = .ok files) :
      Starts u s (.ok ()) ⟨{ (s.confirm 0).session with uri := some uri }, w.withFiles files⟩
  | unsaved {request : Http.Request} {response : Http.Response} {uri : SessionUri} {w : World σ}
      {t : TrackerFile} {e : Error}
      (made : startRequest u.key u.headers = .ok request)
      (asked : u.connection.exchange request s.world = (.ok response, w))
      (answered : startedSession response = .ok uri) (tracker : u.tracker = some t)
      (save : t.save uri.text w.files = .error e) :
      Starts u s (.error e) ⟨{ (s.confirm 0).session with uri := some uri }, w⟩

theorem starts {u : Job σ} {s t : State σ} {result : Except Error Unit}
    (h : u.start s = (result, t)) : u.Starts s result t := by
  cases made : startRequest u.key u.headers with
  | error e =>
    simp only [start, made] at h
    cases h
    exact .unmade made
  | ok request =>
    rcases hasked : u.connection.exchange request s.world with ⟨answer, w⟩
    have asked : u.connection.exchange request (s.confirm 0).world = (answer, w) := hasked
    cases answer with
    | error e =>
      simp only [start, made, asked] at h
      cases h
      exact .failed made hasked
    | ok response =>
      cases answered : startedSession response with
      | error e =>
        simp only [start, made, asked, answered] at h
        cases h
        exact .refused made hasked answered
      | ok uri =>
        cases tracker : u.tracker with
        | none =>
          simp only [start, made, asked, answered, tracker] at h
          cases h
          exact .untracked made hasked answered tracker
        | some f =>
          cases save : f.save uri.text w.files with
          | error e =>
            simp only [start, made, asked, answered, tracker, save] at h
            cases h
            exact .unsaved made hasked answered tracker save
          | ok files =>
            simp only [start, made, asked, answered, tracker, save] at h
            cases h
            exact .saved made hasked answered tracker save

/-- When the store names a session that can be written to the tracker file, that is what is done. -/
theorem Starts.of_named {u : Job σ} {s t : State σ} {result : Except Error Unit}
    {request : Http.Request} {response : Http.Response} {uri : SessionUri} {w : World σ}
    {f : TrackerFile} {files : Files.Store} (h : u.Starts s result t)
    (makes : startRequest u.key u.headers = .ok request)
    (answer : u.connection.exchange request s.world = (.ok response, w))
    (named : startedSession response = .ok uri) (tracked : u.tracker = some f)
    (saves : f.save uri.text w.files = .ok files) :
    result = .ok () ∧
      t = ⟨{ (s.confirm 0).session with uri := some uri }, w.withFiles files⟩ := by
  cases h with
  | unmade made => cases makes.symm.trans made
  | failed made asked =>
    cases makes.symm.trans made
    cases answer.symm.trans asked
  | refused made asked answered =>
    cases makes.symm.trans made
    cases answer.symm.trans asked
    cases named.symm.trans answered
  | untracked made asked answered tracker => cases tracked.symm.trans tracker
  | saved made asked answered tracker save =>
    cases makes.symm.trans made
    cases answer.symm.trans asked
    cases named.symm.trans answered
    cases tracked.symm.trans tracker
    cases saves.symm.trans save
    exact ⟨rfl, rfl⟩
  | unsaved made asked answered tracker save =>
    cases makes.symm.trans made
    cases answer.symm.trans asked
    cases named.symm.trans answered
    cases tracked.symm.trans tracker
    cases saves.symm.trans save

theorem query_world (u : Job σ) (uri : SessionUri) (w : World σ) :
    (u.query uri w).2 = (u.connection.exchange (queryRequest uri u.total) w).2 := by
  unfold query
  split
  · rename_i h
    rw [h]
  · rename_i h
    rw [h]

theorem query_answer (u : Job σ) (uri : SessionUri) (w : World σ) :
    (u.query uri w).1 = (u.connection.exchange (queryRequest uri u.total) w).1.bind stateOf := by
  unfold query
  split
  · rename_i h
    rw [h]
    rfl
  · rename_i h
    rw [h]
    rfl

theorem afterFailure_world (u : Job σ) (uri : SessionUri) (e : Error) (s : State σ) :
    (u.afterFailure uri e s).2.world =
      (u.connection.exchange (queryRequest uri u.total) s.world).2 := by
  rw [← query_world]
  unfold afterFailure
  split
  · rename_i h
    rw [h]
    rfl
  · rename_i h
    rw [h]
  · rename_i h
    rw [h]

theorem afterFailure_session (u : Job σ) (uri : SessionUri) (e : Error) (s : State σ) :
    ∃ n, (u.afterFailure uri e s).2.session = { s.session with confirmed := n } := by
  unfold afterFailure
  split
  · exact ⟨_, rfl⟩
  · exact ⟨s.session.confirmed, rfl⟩
  · exact ⟨s.session.confirmed, rfl⟩

/-- A query was answered in a way after which the session is given up for a new one. -/
inductive Stale (policy : StalePolicy) : Except Error SessionState → Prop
  | rejected {status : Http.Status}
      (auth : ¬((status.code = 401 ∨ status.code = 403) ∧ policy = .abortOnAuthFailure)) :
      Stale policy (.ok (.rejected status))
  | startOver {e : Error} (disposition : e.disposition = some .startOver) : Stale policy (.error e)

/-- Finding out where to go on: with no session, or a stale one, by starting a session. -/
inductive Resumes (u : Job σ) (s : State σ) : Except Error (Option String) → State σ → Prop
  | began {result : Except Error Unit} {t : State σ} (held : s.session.uri = none)
      (started : u.Starts s result t) : Resumes u s (result.map fun _ => none) t
  | restarted {uri : SessionUri} {answer : Except Error SessionState} {w : World σ}
      {result : Except Error Unit} {t : State σ} (held : s.session.uri = some uri)
      (asked : u.query uri s.world = (answer, w)) (stale : Stale u.stalePolicy answer)
      (started : u.Starts ⟨s.session, w⟩ result t) : Resumes u s (result.map fun _ => none) t
  | incomplete {uri : SessionUri} {confirmed : Nat} {w : World σ} (held : s.session.uri = some uri)
      (asked : u.query uri s.world = (.ok (.incomplete confirmed), w)) :
      Resumes u s (.ok none) (State.confirm ⟨s.session, w⟩ confirmed)
  | complete {uri : SessionUri} {eTag : String} {w : World σ} (held : s.session.uri = some uri)
      (asked : u.query uri s.world = (.ok (.complete (some eTag)), w)) :
      Resumes u s (.ok (some eTag)) (State.confirm ⟨s.session, w⟩ u.total)
  | untagged {uri : SessionUri} {w : World σ} (held : s.session.uri = some uri)
      (asked : u.query uri s.world = (.ok (.complete none), w)) :
      Resumes u s (.error (.resumable .abort .completeWithoutETag))
        (State.confirm ⟨s.session, w⟩ u.total)
  | refused {uri : SessionUri} {status : Http.Status} {w : World σ}
      (held : s.session.uri = some uri)
      (asked : u.query uri s.world = (.ok (.rejected status), w))
      (auth : (status.code = 401 ∨ status.code = 403) ∧ u.stalePolicy = .abortOnAuthFailure) :
      Resumes u s (.error (.resumable .abort (.queryRefused status))) ⟨s.session, w⟩
  | failed {uri : SessionUri} {e : Error} {w : World σ} (held : s.session.uri = some uri)
      (asked : u.query uri s.world = (.error e, w))
      (disposition : e.disposition ≠ some .startOver) : Resumes u s (.error e) ⟨s.session, w⟩

theorem resumes {u : Job σ} {s t : State σ} {result : Except Error (Option String)}
    (h : u.resumeOrStart s = (result, t)) : u.Resumes s result t := by
  cases held : s.session.uri with
  | none =>
    simp only [resumeOrStart, held] at h
    rcases hs : u.start s with ⟨r, v⟩
    rw [hs] at h
    cases r <;> cases h <;> exact .began held (starts hs)
  | some uri =>
    rcases asked : u.query uri s.world with ⟨answer, w⟩
    simp only [resumeOrStart, held, asked] at h
    rcases hs : u.start ⟨s.session, w⟩ with ⟨r, v⟩
    cases answer with
    | error e =>
      dsimp only at h
      rw [hs] at h
      by_cases disposition : e.disposition = some .startOver
      · rw [if_pos disposition] at h
        cases r <;> cases h <;> exact .restarted held asked (.startOver disposition) (starts hs)
      · rw [if_neg disposition] at h
        cases h
        exact .failed held asked disposition
    | ok state =>
      cases state with
      | complete eTag =>
        cases eTag with
        | none =>
          cases h
          exact .untagged held asked
        | some eTag =>
          cases h
          exact .complete held asked
      | incomplete confirmed =>
        cases h
        exact .incomplete held asked
      | rejected status =>
        dsimp only at h
        rw [hs] at h
        split at h
        · rename_i auth
          cases h
          exact .refused held asked (by simpa using auth)
        · rename_i auth
          have stale : Stale u.stalePolicy (.ok (.rejected status)) := .rejected (by simpa using auth)
          cases r <;> cases h <;> exact .restarted held asked stale (starts hs)

theorem Resumes.of_unheld {u : Job σ} {s t : State σ} {result : Except Error (Option String)}
    (h : u.Resumes s result t) (unheld : s.session.uri = none) :
    ∃ r, u.Starts s r t ∧ result = r.map fun _ => none := by
  cases h with
  | began held started => exact ⟨_, started, rfl⟩
  | restarted held asked stale started => cases unheld.symm.trans held
  | incomplete held asked => cases unheld.symm.trans held
  | complete held asked => cases unheld.symm.trans held
  | untagged held asked => cases unheld.symm.trans held
  | refused held asked auth => cases unheld.symm.trans held
  | failed held asked disposition => cases unheld.symm.trans held

/-- Where a session is held, the answer to the query decides, unless it is one after which the
session is given up. -/
theorem Resumes.of_held {u : Job σ} {s t : State σ} {result : Except Error (Option String)}
    {uri : SessionUri} {state : SessionState} {w : World σ} (h : u.Resumes s result t)
    (known : s.session.uri = some uri) (answered : u.query uri s.world = (.ok state, w))
    (kept : ¬Stale u.stalePolicy (.ok state)) :
    (∀ n, state = .incomplete n → result = .ok none ∧ t = State.confirm ⟨s.session, w⟩ n) ∧
      ∀ eTag, state = .complete (some eTag) →
        result = .ok (some eTag) ∧ t = State.confirm ⟨s.session, w⟩ u.total := by
  cases h with
  | began held started => cases known.symm.trans held
  | restarted held asked stale started =>
    cases known.symm.trans held
    cases answered.symm.trans asked
    exact absurd stale kept
  | incomplete held asked =>
    cases known.symm.trans held
    cases answered.symm.trans asked
    refine ⟨?_, fun eTag he => by cases he⟩
    rintro n ⟨⟩
    exact ⟨rfl, rfl⟩
  | complete held asked =>
    cases known.symm.trans held
    cases answered.symm.trans asked
    refine ⟨fun n hn => (by cases hn), ?_⟩
    rintro eTag ⟨⟩
    exact ⟨rfl, rfl⟩
  | untagged held asked =>
    cases known.symm.trans held
    cases answered.symm.trans asked
    exact ⟨fun n hn => (by cases hn), fun eTag he => by cases he⟩
  | refused held asked auth =>
    cases known.symm.trans held
    cases answered.symm.trans asked
    exact ⟨fun n hn => (by cases hn), fun eTag he => by cases he⟩
  | failed held asked disposition =>
    cases known.symm.trans held
    cases answered.symm.trans asked

/-- Where the data that is sent from a state begins. -/
def offset (u : Job σ) (s : State σ) : Nat := min s.session.confirmed u.total

def rest (u : Job σ) (s : State σ) : SourceBody :=
  SourceBody.ofRange (u.offset s) (u.total - u.offset s) u.buffer
    (u.progress.map fun p => p.tracker u.total u.buffer)

/-- Sending the rest: the source cannot be opened, or has changed, or the data is answered with an
entity tag, or with a failure after which the store is asked once more. -/
inductive Sends (u : Job σ) (uri : SessionUri) (s : State σ) : Except Error String → State σ → Prop
  | unopened {e : Error}
      (opened : u.source.readerAt (u.connection.wait s.world).files (u.offset s) = .error e) :
      Sends u uri s (.error e) ⟨s.session, u.connection.wait s.world⟩
  | changed {reader : Reader} {answer : Except Error Http.Response} {body : SourceBody}
      {w : World σ}
      (opened : u.source.readerAt (u.connection.wait s.world).files (u.offset s) = .ok reader)
      (put : u.connection.send (dataRequest uri (u.offset s) u.total) (u.rest s) reader
        (u.connection.wait s.world) = (answer, body, w)) (changed : body.changed = true) :
      Sends u uri s
        (.error (.resumable .abort (.sourceChanged body.given (u.total - u.offset s))))
        ⟨s.session, w⟩
  | stored {reader : Reader} {answer : Except Error Http.Response} {body : SourceBody}
      {w : World σ} {eTag : String}
      (opened : u.source.readerAt (u.connection.wait s.world).files (u.offset s) = .ok reader)
      (put : u.connection.send (dataRequest uri (u.offset s) u.total) (u.rest s) reader
        (u.connection.wait s.world) = (answer, body, w)) (same : body.changed = false)
      (answered : answer.bind storedTag = .ok eTag) : Sends u uri s (.ok eTag) ⟨s.session, w⟩
  | failed {reader : Reader} {answer : Except Error Http.Response} {body : SourceBody}
      {w : World σ} {e : Error}
      (opened : u.source.readerAt (u.connection.wait s.world).files (u.offset s) = .ok reader)
      (put : u.connection.send (dataRequest uri (u.offset s) u.total) (u.rest s) reader
        (u.connection.wait s.world) = (answer, body, w)) (same : body.changed = false)
      (answered : answer.bind storedTag = .error e) :
      Sends u uri s (.error (u.afterFailure uri e ⟨s.session, w⟩).1)
        (u.afterFailure uri e ⟨s.session, w⟩).2

theorem sends {u : Job σ} {uri : SessionUri} {s t : State σ} {result : Except Error String}
    (h : u.sendRest uri s = (result, t)) : u.Sends uri s result t := by
  cases opened : u.source.readerAt (u.connection.wait s.world).files (u.offset s) with
  | error e =>
    have ho := opened
    simp only [offset] at ho
    simp only [sendRest, ho] at h
    cases h
    exact .unopened opened
  | ok reader =>
    rcases put : u.connection.send (dataRequest uri (u.offset s) u.total) (u.rest s) reader
      (u.connection.wait s.world) with ⟨answer, body, w⟩
    have ho := opened
    have hp := put
    simp only [offset] at ho
    simp only [rest, offset] at hp
    simp only [sendRest, ho, hp] at h
    cases hsame : body.changed with
    | true =>
      simp only [hsame, if_true] at h
      cases h
      exact .changed opened put hsame
    | false =>
      simp only [hsame, Bool.false_eq_true, if_false] at h
      cases answered : answer.bind storedTag with
      | ok eTag =>
        simp only [answered] at h
        cases h
        exact .stored opened put hsame answered
      | error e =>
        simp only [answered] at h
        cases h
        exact .failed opened put hsame answered

/-- When the source was found as it was, the answer to the data decides. -/
theorem Sends.of_put {u : Job σ} {uri : SessionUri} {s t : State σ} {result : Except Error String}
    {reader : Reader} {answer : Except Error Http.Response} {body : SourceBody} {w : World σ}
    (h : u.Sends uri s result t)
    (reads : u.source.readerAt (u.connection.wait s.world).files (u.offset s) = .ok reader)
    (sent : u.connection.send (dataRequest uri (u.offset s) u.total) (u.rest s) reader
      (u.connection.wait s.world) = (answer, body, w)) (unchanged : body.changed = false) :
    (∃ eTag, answer.bind storedTag = .ok eTag ∧ result = .ok eTag ∧ t = ⟨s.session, w⟩) ∨
    ∃ e, answer.bind storedTag = .error e ∧
      result = .error (u.afterFailure uri e ⟨s.session, w⟩).1 ∧
      t = (u.afterFailure uri e ⟨s.session, w⟩).2 := by
  cases h with
  | unopened opened => cases reads.symm.trans opened
  | changed opened put changed =>
    cases reads.symm.trans opened
    cases sent.symm.trans put
    cases unchanged.symm.trans changed
  | stored opened put same answered =>
    cases reads.symm.trans opened
    cases sent.symm.trans put
    exact .inl ⟨_, answered, rfl, rfl⟩
  | failed opened put same answered =>
    cases reads.symm.trans opened
    cases sent.symm.trans put
    exact .inr ⟨_, answered, rfl, rfl⟩

/-- The state once the store has everything: the tracker file is gone. -/
def cleared (u : Job σ) (s : State σ) : State σ := (s.confirm u.total).removeTracker u.tracker

theorem session_removeTracker (s : State σ) (tracker : Option TrackerFile) :
    (s.removeTracker tracker).session = s.session := by
  cases tracker <;> rfl

theorem peer_removeTracker (s : State σ) (tracker : Option TrackerFile) :
    (s.removeTracker tracker).world.peer = s.world.peer := by
  cases tracker <;> rfl

theorem files_removeTracker (s : State σ) (t : TrackerFile) :
    (s.removeTracker (some t)).world.files = t.remove s.world.files := rfl

/-- The end of an upload of which the store has everything. -/
inductive Finishes (u : Job σ) (eTag : String) (s : State σ) :
    Except Error Output → State σ → Prop
  | verified (same : digestOf eTag = u.md5) :
      Finishes u eTag s (.ok ⟨eTag, (u.cleared s).session.startPoint.getD 0⟩) (u.cleared s)
  | undeleted {e : Error} (differs : digestOf eTag ≠ u.md5) (made : deleteRequest u.key = .error e) :
      Finishes u eTag s (.error (.resumable .abort .uploadCorrupted)) (u.cleared s)
  | deleted {request : Http.Request} (differs : digestOf eTag ≠ u.md5)
      (made : deleteRequest u.key = .ok request) :
      Finishes u eTag s (.error (.resumable .abort .uploadCorrupted))
        ⟨(u.cleared s).session, (u.connection.exchange request (u.cleared s).world).2⟩

theorem finishes {u : Job σ} {eTag : String} {s t : State σ} {result : Except Error Output}
    (h : u.finish eTag s = (result, t)) : u.Finishes eTag s result t := by
  rw [finish, ← cleared, verify] at h
  split at h
  · rename_i same
    cases h
    exact .verified same
  · rename_i differs
    cases made : deleteRequest u.key with
    | error e =>
      simp only [made] at h
      cases h
      exact .undeleted differs made
    | ok request =>
      simp only [made] at h
      cases h
      exact .deleted differs made

theorem Starts.uri_isSome {u : Job σ} {s t : State σ} (h : u.Starts s (.ok ()) t) :
    t.session.uri.isSome := by
  cases h <;> rfl

theorem Resumes.uri_isSome {u : Job σ} {s t : State σ} (h : u.Resumes s (.ok none) t) :
    t.session.uri.isSome := by
  generalize hr : (Except.ok none : Except Error (Option String)) = r at h
  cases h with
  | began held started =>
    rename_i result
    cases result with
    | ok _ => exact started.uri_isSome
    | error e => cases hr
  | restarted held asked stale started =>
    rename_i result
    cases result with
    | ok _ => exact started.uri_isSome
    | error e => cases hr
  | incomplete held asked => simp [State.confirm, held]
  | complete held asked => cases hr
  | untagged held asked => cases hr
  | refused held asked auth => cases hr
  | failed held asked disposition => cases hr

/-- The state in which an attempt looks at its source. -/
def begun (u : Job σ) (s : State σ) : State σ := ⟨s.session, u.connection.wait s.world⟩

/-- One attempt. -/
inductive Goes (u : Job σ) (s : State σ) : Except Error Output → State σ → Prop
  | unreadable {e : Error} (size : u.source.size (u.begun s).world.files = .error e) :
      Goes u s (.error e) (u.begun s)
  | resized {n : Nat} (size : u.source.size (u.begun s).world.files = .ok n) (differs : n ≠ u.total) :
      Goes u s (.error (.resumable .abort (.sizeChanged u.total n))) (u.begun s)
  | unresumed {e : Error} {t : State σ}
      (size : u.source.size (u.begun s).world.files = .ok u.total)
      (resumed : u.Resumes (u.begun s) (.error e) t) : Goes u s (.error e) t
  | complete {eTag : String} {t t' : State σ} {result : Except Error Output}
      (size : u.source.size (u.begun s).world.files = .ok u.total)
      (resumed : u.Resumes (u.begun s) (.ok (some eTag)) t)
      (finished : u.Finishes eTag (t.startAt u.total) result t') : Goes u s result t'
  | unsent {uri : SessionUri} {e : Error} {t t' : State σ}
      (size : u.source.size (u.begun s).world.files = .ok u.total)
      (resumed : u.Resumes (u.begun s) (.ok none) t) (held : t.session.uri = some uri)
      (sent : u.Sends uri (t.startAt t.session.confirmed) (.error e) t') : Goes u s (.error e) t'
  | sent {uri : SessionUri} {eTag : String} {t t' t'' : State σ} {result : Except Error Output}
      (size : u.source.size (u.begun s).world.files = .ok u.total)
      (resumed : u.Resumes (u.begun s) (.ok none) t) (held : t.session.uri = some uri)
      (sent : u.Sends uri (t.startAt t.session.confirmed) (.ok eTag) t')
      (finished : u.Finishes eTag t' result t'') : Goes u s result t''

theorem goes {u : Job σ} {s t : State σ} {result : Except Error Output}
    (h : u.attempt s = (result, t)) : u.Goes s result t := by
  cases size : u.source.size (u.begun s).world.files with
  | error e =>
    have hs := size
    simp only [begun] at hs
    simp only [attempt, hs] at h
    cases h
    exact .unreadable size
  | ok n =>
    have hs := size
    simp only [begun] at hs
    simp only [attempt, hs] at h
    by_cases hn : n = u.total
    · subst hn
      simp only [ne_eq, not_true_eq_false, if_false] at h
      rcases hr : u.resumeOrStart (u.begun s) with ⟨answer, v⟩
      have resumed := resumes hr
      simp only [begun] at hr
      match answer with
      | .error e =>
        simp only [hr] at h
        cases h
        exact .unresumed size resumed
      | .ok (some eTag) =>
        simp only [hr] at h
        exact .complete size resumed (finishes h)
      | .ok none =>
        obtain ⟨uri, held⟩ := Option.isSome_iff_exists.1 resumed.uri_isSome
        have hu : (v.startAt v.session.confirmed).session.uri = some uri := held
        simp only [hr, hu] at h
        rcases hd : u.sendRest uri (v.startAt v.session.confirmed) with ⟨answer, v'⟩
        cases answer with
        | error e =>
          simp only [hd] at h
          cases h
          exact .unsent size resumed held (sends hd)
        | ok eTag =>
          simp only [hd] at h
          exact .sent size resumed held (sends hd) (finishes h)
    · simp only [ne_eq, hn, not_false_eq_true, if_true] at h
      cases h
      exact .resized size hn

end ObjectTransfer.Upload.Job
