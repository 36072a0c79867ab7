import ObjectTransfer.Proofs.Rehearsal.Naming
/-!
How objects come to be in the store in memory. Every request of an upload has one of four effects: it
leaves sessions and objects as they are, it starts a session, it changes what one session holds, or it
sends the last bytes of an object, which is stored at the path of its session.
-/
namespace ObjectTransfer.Rehearsal.Server
open Http Upload

/-- What is taken of the data of a request: all that came, or what came before the cut. -/
def uncut (s : Server) (received : Received) : ByteArray :=
  (s.cut? received).elim received.bytes fun limit => received.bytes.extract 0 limit

/-- The request sends the last bytes of an object: with what is taken of its data the session is
complete, and what the session then holds is stored at its path. -/
inductive Finalizes (s : Server) (request : Request) (received : Received) :
    String → ByteArray → Prop
  | intro {id : String} {session : ServerSession} {start total : Nat}
      (chunk : kindOf request = .chunk id) (unscripted : s.scripted? .chunk = none)
      (accepted : s.acceptable id request = .ok (session, start, total))
      (whole : received.failure = none)
      (complete : (session.data.extract 0 start ++ s.uncut received).size = total) :
      Finalizes s request received session.path (session.data.extract 0 start ++ s.uncut received)

/-- Under one name there is this session, and under all others there are those of before. -/
def Puts (s t : Server) (id : String) (session : ServerSession) : Prop :=
  t.sessions.lookup id = some session ∧ ∀ j ≠ id, t.sessions.lookup j = s.sessions.lookup j

/-- What a request of an upload does to the sessions and the objects, with what it is answered. -/
inductive Effect (s : Server) (request : Request) (received : Received) (answer : Upload.Answer)
    (t : Server) : Prop
  | kept (sessions : t.sessions = s.sessions) (objects : t.objects = s.objects)
      (tagged : ∀ tag, answer.Tagged tag → ∃ id session, uploadId? request.uri = some id ∧
        s.sessions.lookup id = some session ∧ session.eTag = some tag)
      (ungranted : ∀ uri, ¬answer.Grants uri)
  | started (start : kindOf request = .start)
      (sessions : Puts s t (toString (s.started + 1)) ⟨request.uri.path, .empty, none⟩)
      (objects : t.objects = s.objects) (answered : answer = .ok (s.startSession request).1)
  | received {id : String} {session : ServerSession} {data : ByteArray}
      (chunk : kindOf request = .chunk id) (found : s.sessions.lookup id = some session)
      (sessions : Puts s t id { session with data }) (objects : t.objects = s.objects)
      (untagged : ∀ tag, ¬answer.Tagged tag)
  | finalized {id : String} {session : ServerSession} {data : ByteArray} {tag : String}
      (chunk : kindOf request = .chunk id) (found : s.sessions.lookup id = some session)
      (sessions : Puts s t id { session with data, eTag := some tag })
      (objects : t.objects = Keyed.put session.path data s.objects)
      (finalizes : Finalizes s request received session.path data)

section
variable {s : Server} {request : Request} {received : Received}

theorem untagged_bare (code : Nat) (tag : String) : ¬Upload.Answer.Tagged (.ok (.bare code)) tag := by
  rintro ⟨r, got, -, named⟩
  cases got
  cases named

theorem ungranted_bare (code : Nat) (uri : SessionUri) :
    ¬Upload.Answer.Grants (.ok (.bare code)) uri := by
  rintro ⟨r, location, got, -, named, -⟩
  cases got
  cases named

theorem untagged_error (e : Error) (tag : String) : ¬Upload.Answer.Tagged (.error e) tag := by
  rintro ⟨r, got, -, -⟩
  cases got

theorem Effect.bare {t : Server} (code : Nat) (sessions : t.sessions = s.sessions)
    (objects : t.objects = s.objects) : Effect s request received (.ok (.bare code)) t :=
  .kept sessions objects (fun tag told => absurd told (untagged_bare code tag)) (ungranted_bare code)

theorem uploadId?_of_kindOf {id : String}
    (h : kindOf request = .query id ∨ kindOf request = .chunk id) :
    uploadId? request.uri = some id := by
  unfold kindOf at h
  split at h
  · rcases h with h | h <;> cases h
  · split at h
    · cases named : uploadId? request.uri with
      | none =>
        rw [named] at h
        rcases h with h | h <;> cases h
      | some found =>
        rw [named] at h
        dsimp only at h
        split at h
        · rcases h with h | h <;> cases h
          rfl
        · rcases h with h | h <;> cases h
          rfl
    · rcases h with h | h <;> cases h

/-- A store that tells that an object is stored tells it of a session with that entity tag. -/
theorem tagged_sessionState {id tag : String} (h : Upload.Answer.Tagged (.ok (s.sessionState id)) tag) :
    ∃ session, s.sessions.lookup id = some session ∧ session.eTag = some tag := by
  obtain ⟨r, got, code, named⟩ := h
  cases got
  unfold sessionState at code named
  split at named
  · cases named
  · rename_i session found
    split at named
    · rename_i eTag tagged
      cases eq_of_text?_ofText named
      exact ⟨session, found, tagged⟩
    · split at named
      · cases named
      · cases named

theorem ungranted_sessionState (id : String) (uri : SessionUri) :
    ¬Upload.Answer.Grants (.ok (s.sessionState id)) uri := by
  rintro ⟨r, location, got, -, named, -⟩
  cases got
  unfold sessionState at named
  split at named
  · cases named
  · split at named
    · cases named
    · split at named
      · cases named
      · cases named

theorem puts_put (id : String) (session : ServerSession) (t : Server)
    (h : t.sessions = Keyed.put id session s.sessions) : Puts s t id session := by
  refine ⟨?_, fun j hj => ?_⟩
  · rw [h, Keyed.lookup_put_self]
  · rw [h, Keyed.lookup_put_of_ne hj]

section
variable {id : String} {session : ServerSession} {start total : Nat} {data : ByteArray}

theorem puts_taken {t : Server} {kept session' : ServerSession}
    (h : t.sessions = Keyed.put id session' (Keyed.put id kept s.sessions)) :
    Puts s t id session' := by
  refine ⟨?_, fun j hj => ?_⟩
  · rw [h, Keyed.lookup_put_self]
  · rw [h, Keyed.lookup_put_of_ne hj, Keyed.lookup_put_of_ne hj]

variable (s request id) in
theorem taken_complete (complete : (session.data.extract 0 start ++ data).size = total) :
    ∃ tag, (s.taken id request session start total data).1 = some tag ∧
      Puts s (s.taken id request session start total data).2 id
        { session with data := session.data.extract 0 start ++ data, eTag := some tag } ∧
      (s.taken id request session start total data).2.objects =
        Keyed.put session.path (session.data.extract 0 start ++ data) s.objects := by
  simp only [taken, extend, complete, if_true]
  exact ⟨_, rfl, puts_taken rfl, rfl⟩

variable (s request id) in
theorem taken_partly (partly : (session.data.extract 0 start ++ data).size ≠ total) :
    (s.taken id request session start total data).1 = none ∧
      Puts s (s.taken id request session start total data).2 id
        { session with data := session.data.extract 0 start ++ data } ∧
      (s.taken id request session start total data).2.objects = s.objects := by
  simp only [taken, extend, partly, if_false, true_and]
  exact ⟨puts_taken rfl, rfl⟩

theorem effect_taken (chunk : kindOf request = .chunk id) (unscripted : s.scripted? .chunk = none)
    (accepted : s.acceptable id request = .ok (session, start, total))
    (whole : received.failure = none) {answer : Upload.Answer} {t : Server}
    (sessions : t.sessions =
      (s.taken id request session start total (s.uncut received)).2.sessions)
    (objects : t.objects = (s.taken id request session start total (s.uncut received)).2.objects)
    (untagged : (s.taken id request session start total (s.uncut received)).1 = none →
      ∀ tag, ¬answer.Tagged tag) : Effect s request received answer t := by
  obtain ⟨-, found, -⟩ := acceptable_eq_ok accepted
  by_cases complete : (session.data.extract 0 start ++ s.uncut received).size = total
  · obtain ⟨tag, -, puts, stored⟩ := taken_complete s request id complete
    unfold Puts at puts
    rw [← sessions] at puts
    exact .finalized chunk found puts (objects.trans stored)
      (.intro chunk unscripted accepted whole complete)
  · obtain ⟨none, puts, same⟩ := taken_partly s request id complete
    unfold Puts at puts
    rw [← sessions] at puts
    exact .received chunk found puts (objects.trans same) (untagged none)

end

theorem effect_receive {id : String} (chunk : kindOf request = .chunk id)
    (unscripted : s.scripted? .chunk = none) (files : Files.Store) :
    Effect s request received (s.receive id request received files).1
      (s.receive id request received files).2.1 := by
  rcases accepted : s.acceptable id request with status | ⟨session, start, total⟩
  · unfold receive
    rw [accepted]
    exact .bare _ rfl rfl
  cases whole : received.failure with
  | some cause =>
    obtain ⟨-, found, -⟩ := acceptable_eq_ok accepted
    unfold receive
    rw [accepted]
    dsimp only
    rw [whole]
    exact .received chunk found (puts_put _ _ _ rfl) rfl (untagged_error _)
  | none =>
    cases cut : s.cut? received with
    | none =>
      have taken : s.uncut received = received.bytes := by rw [uncut, cut, Option.elim_none]
      rw [receive_whole accepted whole cut, ← taken]
      refine effect_taken chunk unscripted accepted whole rfl rfl fun partly => ?_
      rw [partly]
      exact untagged_bare 308
    | some limit =>
      have taken : s.uncut received = received.bytes.extract 0 limit := by
        rw [uncut, cut, Option.elim_some]
      rw [receive_cut accepted whole cut, ← taken]
      exact effect_taken chunk unscripted accepted whole rfl rfl fun _ => untagged_error _

theorem startSession_snd (s : Server) (request : Request) : (s.startSession request).2 =
    { s with
      started := s.started + 1
      sessions :=
        Keyed.put (toString (s.started + 1)) ⟨request.uri.path, .empty, none⟩ s.sessions } := by
  unfold startSession
  dsimp only
  split
  · rfl
  · rfl

theorem startSession_note (s : Server) (request : Request) (exchange : Option Exchange)
    (body : ByteArray) : (s.note exchange request body).startSession request =
      ((s.startSession request).1, (s.startSession request).2.note exchange request body) := by
  unfold startSession
  dsimp only [note]
  split
  · rfl
  · rfl

theorem effect (s : Server) (request : Request) (received : Received) (files : Files.Store)
    (asks : request.method = .put ∨ kindOf request = .start) :
    Effect s request received (s.answer request received files).1
      (s.answer request received files).2.1 := by
  unfold answer
  cases kind : kindOf request with
  | start =>
    dsimp only
    split
    · exact .bare _ rfl rfl
    · rw [startSession_note]
      have sessions : (s.startSession request).2.sessions =
          Keyed.put (toString (s.started + 1)) ⟨request.uri.path, .empty, none⟩ s.sessions := by
        rw [startSession_snd]
      have objects : (s.startSession request).2.objects = s.objects := by rw [startSession_snd]
      exact .started kind (puts_put _ _ _ sessions) objects rfl
  | query id =>
    dsimp only
    split
    · exact .bare _ rfl rfl
    · refine .kept rfl rfl (fun tag told => ?_) (ungranted_sessionState id)
      obtain ⟨session, found, tagged⟩ := tagged_sessionState told
      exact ⟨id, session, uploadId?_of_kindOf (.inl kind), found, tagged⟩
  | chunk id =>
    dsimp only
    split
    · exact .bare _ rfl rfl
    · rename_i unscripted
      exact effect_receive kind unscripted files
  | unnamed => exact .bare _ rfl rfl
  | other =>
    rcases asks with put | start
    · rw [kindOf_put put] at kind
      cases named : uploadId? request.uri with
      | none =>
        rw [named] at kind
        cases kind
      | some id =>
        rw [named, Option.elim_some] at kind
        split at kind
        · cases kind
        · cases kind
    · rw [start] at kind
      cases kind

theorem kindOf_put_ne (put : request.method = .put) :
    kindOf request ≠ .start ∧ kindOf request ≠ .other := by
  rw [kindOf_put put]
  cases uploadId? request.uri with
  | none => exact ⟨nofun, nofun⟩
  | some id =>
    rw [Option.elim_some]
    split
    · exact ⟨nofun, nofun⟩
    · exact ⟨nofun, nofun⟩

/-- The store has everything of the session that is named here, and tells its entity tag. -/
def Tells (s : Server) (uri : Uri) (tag : String) : Prop :=
  ∃ id session, uploadId? uri = some id ∧ s.sessions.lookup id = some session ∧
    session.eTag = some tag ∧ Upload.Answer.Tagged (.ok (responseWith 200 "etag" tag)) tag

theorem tagged_told {eTag tag : String}
    (told : Upload.Answer.Tagged (.ok (responseWith 200 "etag" eTag)) tag) : eTag = tag := by
  obtain ⟨r, got, -, named⟩ := told
  cases got
  exact (eq_of_text?_ofText named).symm

theorem Tells.query {uri : SessionUri} {tag : String} (h : s.Tells uri.uri tag)
    (unscripted : s.scripted? .query = none) (total : Nat) (files : Files.Store) :
    s.answer (queryRequest uri total) received files =
      (.ok (responseWith 200 "etag" tag), s.note (some .query) (queryRequest uri total) .empty,
        files) := by
  obtain ⟨id, session, named, found, tagged, -⟩ := h
  have none : (s.note (some .query) (queryRequest uri total) .empty).scripted? .query = none :=
    unscripted
  have state : (s.note (some .query) (queryRequest uri total) .empty).sessionState id =
      responseWith 200 "etag" tag := by
    have found : (s.note (some .query) (queryRequest uri total) .empty).sessions.lookup id =
      some session := found
    simp only [sessionState, found, tagged]
  simp only [answer, kindOf_query, named, Option.elim_some, none, state]

theorem tells_receive {id : String} (named : uploadId? request.uri = some id) (files : Files.Store)
    {tag : String} (told : Upload.Answer.Tagged (s.receive id request received files).1 tag) :
    (s.receive id request received files).2.1.Tells request.uri tag := by
  rcases accepted : s.acceptable id request with status | ⟨session, start, total⟩
  · unfold receive at told
    rw [accepted] at told
    exact absurd told (untagged_bare _ _)
  cases whole : received.failure with
  | some cause =>
    unfold receive at told
    rw [accepted] at told
    dsimp only at told
    rw [whole] at told
    exact absurd told (untagged_error _ _)
  | none =>
    cases cut : s.cut? received with
    | some limit =>
      rw [receive_cut accepted whole cut] at told
      exact absurd told (untagged_error _ _)
    | none =>
      rw [receive_whole accepted whole cut] at told ⊢
      by_cases complete : (session.data.extract 0 start ++ received.bytes).size = total
      · obtain ⟨stored, taken, puts, -⟩ := taken_complete s request id complete
        rw [taken, Option.elim_some] at told
        cases tagged_told told
        exact ⟨id, _, named, puts.1, rfl, told⟩
      · rw [(taken_partly s request id complete).1] at told
        exact absurd told (untagged_bare _ _)

theorem tells_answer (files : Files.Store) (put : request.method = .put) {tag : String}
    (told : Upload.Answer.Tagged (s.answer request received files).1 tag) :
    (s.answer request received files).2.1.Tells request.uri tag := by
  unfold answer at told ⊢
  cases kind : kindOf request with
  | start => exact absurd kind (kindOf_put_ne put).1
  | query id =>
    rw [kind] at told
    dsimp only at told ⊢
    split at told
    · exact absurd told (untagged_bare _ _)
    · obtain ⟨session, found, tagged⟩ := tagged_sessionState told
      refine ⟨id, session, uploadId?_of_kindOf (.inl kind), found, tagged, ?_⟩
      simpa only [sessionState, found, tagged] using told
  | chunk id =>
    rw [kind] at told
    dsimp only at told ⊢
    split at told
    · exact absurd told (untagged_bare _ _)
    · exact tells_receive (uploadId?_of_kindOf (.inr kind)) files told
  | unnamed =>
    rw [kind] at told
    exact absurd told (untagged_bare _ _)
  | other => exact absurd kind (kindOf_put_ne put).2

end

end ObjectTransfer.Rehearsal.Server
