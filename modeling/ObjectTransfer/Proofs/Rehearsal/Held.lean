import ObjectTransfer.Proofs.Rehearsal.Delivery
import ObjectTransfer.Proofs.Rehearsal.Storing
/-!
How much of an object the store in memory has, and how much it has received. When no answers are arranged
for, all that a request for data adds to its session is counted as received, and queries, starts and
deletions leave both as they were.
-/
namespace ObjectTransfer.Rehearsal
open Http Upload

/-- How much of an object of `total` bytes a session has: all of it, once it is finished. -/
def ServerSession.held (session : ServerSession) (total : Nat) : Nat :=
  match session.eTag with
  | none => session.data.size
  | some _ => total

namespace Server

/-- How much of an object of `total` bytes the store has in the session with this name, and nothing without
one. -/
def heldOf (s : Server) (total : Nat) (id : String) : Nat :=
  (s.sessions.lookup id).elim 0 fun session => session.held total

def held (s : Server) (total : Nat) (uri : Option SessionUri) : Nat :=
  (uri.bind fun uri => uploadId? uri.uri).elim 0 (s.heldOf total)

/-- No answers are arranged for, and the sessions are small enough for their sizes to be told. -/
structure Regular (s : Server) : Prop where
  unscripted : s.scripted = []
  small : ∀ entry ∈ s.sessions, entry.2.data.size < Text.Unsigned.limit

structure Rests (s t : Server) : Prop where
  scripted : t.scripted = s.scripted
  sessions : t.sessions = s.sessions
  received : t.bytesReceived = s.bytesReceived

section
variable {s t : Server} {total : Nat} {uri : SessionUri} {known : Option SessionUri} {id : String}
  {request : Request} {received : Received}

theorem Rests.refl (s : Server) : s.Rests s := ⟨rfl, rfl, rfl⟩

theorem Rests.trans {v : Server} (h : s.Rests t) (h' : t.Rests v) : s.Rests v :=
  ⟨h'.scripted.trans h.scripted, h'.sessions.trans h.sessions, h'.received.trans h.received⟩

theorem Rests.regular (h : s.Rests t) (regular : s.Regular) : t.Regular :=
  ⟨h.scripted.trans regular.unscripted, h.sessions ▸ regular.small⟩

theorem Rests.heldOf (h : s.Rests t) (total : Nat) (id : String) :
    t.heldOf total id = s.heldOf total id := by
  unfold Server.heldOf
  rw [h.sessions]

theorem Rests.held (h : s.Rests t) (total : Nat) (known : Option SessionUri) :
    t.held total known = s.held total known := by
  unfold Server.held
  rw [funext (h.heldOf total)]

theorem Regular.scripted?_eq (h : s.Regular) (exchange : Exchange) : s.scripted? exchange = none :=
  scripted?_eq_none h.unscripted exchange

theorem Regular.found (h : s.Regular) {session : ServerSession}
    (found : s.sessions.lookup id = some session) : session.data.size < Text.Unsigned.limit :=
  h.small _ (Keyed.mem_of_lookup found)

theorem bytesReceived_note (s : Server) (exchange : Option Exchange) (request : Request)
    (body : ByteArray) : (s.note exchange request body).bytesReceived =
      s.bytesReceived + if exchange = some .chunk then body.size else 0 := by
  simp only [bytesReceived, note, Array.foldl_push]
  split
  · rfl
  · rfl

theorem rests_note {exchange : Option Exchange} (other : exchange ≠ some .chunk) (s : Server)
    (request : Request) (body : ByteArray) : s.Rests (s.note exchange request body) :=
  ⟨rfl, rfl, by rw [bytesReceived_note, if_neg other, Nat.add_zero]⟩

theorem held_eq (s : Server) (total : Nat) (named : uploadId? uri.uri = some id) :
    s.held total (some uri) = s.heldOf total id := by
  rw [held, Option.bind_some, named, Option.elim_some]

theorem heldOf_eq {session : ServerSession} (found : s.sessions.lookup id = some session) :
    s.heldOf total id = session.held total := by
  rw [heldOf, found, Option.elim_some]

/-- All of an object is held of a session that was told to be finished. -/
theorem Tells.held {tag : String} (h : s.Tells uri.uri tag) : s.held total (some uri) = total := by
  obtain ⟨id, session, named, found, tagged, -⟩ := h
  rw [s.held_eq total named, heldOf_eq found, ServerSession.held, tagged]

/-- What a query can be told of a session of which this much is held. -/
inductive Told (total : Nat) : Nat → Except Error SessionState → Prop
  | unknown {status : Status} : Told total 0 (.ok (.rejected status))
  | unfinished {n : Nat} : Told total n (.ok (.incomplete n))
  | finished {eTag : Option String} : Told total total (.ok (.complete eTag))

theorem Regular.sessionState (h : s.Regular) (total : Nat) (id : String) :
    Told total (s.heldOf total id) (stateOf (s.sessionState id)) := by
  cases found : s.sessions.lookup id with
  | none =>
    have state : s.sessionState id = .bare 404 := by rw [Server.sessionState, found]
    rw [heldOf, found, Option.elim_none, state, stateOf_rejected (by decide)]
    exact .unknown
  | some session =>
    rw [heldOf_eq found, ServerSession.held]
    cases tagged : session.eTag with
    | none =>
      rw [sessionState_unfinished found tagged (h.found found)]
      exact .unfinished
    | some eTag =>
      have state : s.sessionState id = responseWith 200 "etag" eTag := by
        simp only [Server.sessionState, found, tagged]
      rw [state, stateOf_complete (.inl rfl)]
      exact .finished

theorem Regular.query (h : s.Regular) (kind : kindOf request = (uploadId? uri.uri).elim .unnamed .query)
    (total : Nat) (received : Received) (files : Files.Store) :
    s.Rests (s.answer request received files).2.1 ∧
      Told total (s.held total (some uri)) ((s.answer request received files).1.bind stateOf) := by
  unfold Server.answer
  rw [kind, held, Option.bind_some]
  cases uploadId? uri.uri with
  | none =>
    refine ⟨.refl s, ?_⟩
    have rejected : stateOf (.bare 400) = .ok (.rejected ⟨400⟩) := stateOf_rejected (by decide)
    have bound : (Except.ok (Response.bare 400) : Except Error Response).bind stateOf =
      stateOf (.bare 400) := rfl
    rw [Option.elim_none, Option.elim_none, bound, rejected]
    exact .unknown
  | some id =>
    have rests : s.Rests (s.note (some .query) request .empty) := rests_note (by decide) s _ _
    have regular := rests.regular h
    simp only [Option.elim_some, regular.scripted?_eq]
    refine ⟨rests, ?_⟩
    have same : (s.note (some .query) request .empty).heldOf total id = s.heldOf total id := rfl
    rw [← same]
    exact regular.sessionState total id

theorem exchange_connection (request : Request) (w : World Server) :
    (connection.exchange request w).1 = (w.peer.answer request .nothing w.files).1 ∧
      (connection.exchange request w).2.peer = (w.peer.answer request .nothing w.files).2.1 :=
  ⟨rfl, rfl⟩

theorem Regular.start (h : s.Regular) (kind : kindOf request = .start) (received : Received)
    (files : Files.Store) :
    (s.answer request received files).2.1.Regular ∧
      (s.answer request received files).2.1.bytesReceived = s.bytesReceived ∧
      (s.answer request received files).2.1.sessions =
        Keyed.put (toString (s.started + 1)) ⟨request.uri.path, .empty, none⟩ s.sessions ∧
      (s.answer request received files).1 = .ok (s.startSession request).1 := by
  have noted := rests_note (show some Exchange.start ≠ some .chunk by decide) s request .empty
  have started := rests_note (show some Exchange.start ≠ some .chunk by decide)
    (s.startSession request).2 request .empty
  have answer : s.answer request received files = (.ok (s.startSession request).1,
      (s.startSession request).2.note (some .start) request .empty, files) := by
    unfold Server.answer
    rw [kind]
    dsimp only
    rw [(noted.regular h).scripted?_eq]
    dsimp only
    rw [startSession_note]
  rw [startSession_snd] at started answer
  rw [answer]
  refine ⟨⟨started.scripted.trans h.unscripted, ?_⟩, started.received, started.sessions, rfl⟩
  intro entry member
  rw [started.sessions] at member
  rcases Keyed.mem_put member with rfl | member
  · exact Nat.two_pow_pos 64
  · exact h.small entry member

theorem heldOf_put_new {path name : String}
    (sessions : t.sessions = Keyed.put name ⟨path, .empty, none⟩ s.sessions) :
    t.heldOf total name = 0 := by
  rw [heldOf, sessions, Keyed.lookup_put_self]
  rfl

theorem held_put_empty {path name : String}
    (sessions : t.sessions = Keyed.put name ⟨path, .empty, none⟩ s.sessions)
    (none : s.held total known = 0) : t.held total known = 0 := by
  unfold held at none ⊢
  cases named : known.bind fun uri => uploadId? uri.uri with
  | none => rfl
  | some id =>
    rw [named] at none
    rw [Option.elim_some]
    by_cases same : id = name
    · rw [same, heldOf_put_new sessions]
    · rw [heldOf, sessions, Keyed.lookup_put_of_ne same]
      exact none

theorem rests_delete (deletes : request.method = .delete) (s : Server) (received : Received)
    (files : Files.Store) : s.Rests (s.answer request received files).2.1 := by
  have kind : kindOf request = .other := by
    unfold kindOf
    rw [deletes]
    rfl
  have noted := rests_note (show none ≠ some Exchange.chunk by decide) s request .empty
  have served (t : Server) : t.Rests (t.serve request).2 := by
    cases stored : t.objects.lookup request.uri.path with
    | none =>
      simp only [serve, deletes, stored]
      exact .refl t
    | some data =>
      simp only [serve, deletes, stored]
      exact ⟨rfl, rfl, rfl⟩
  unfold Server.answer
  rw [kind]
  exact noted.trans (served _)

theorem Regular.taken (h : s.Regular) {session : ServerSession} {start : Nat} {data : ByteArray}
    (small : (session.data.extract 0 start ++ data).size < Text.Unsigned.limit) :
    (s.taken id request session start total data).2.Regular ∧
      (s.taken id request session start total data).2.bytesReceived =
        s.bytesReceived + data.size := by
  have kept : (session.data.extract 0 start).size < Text.Unsigned.limit := by
    rw [ByteArray.size_append] at small
    omega
  have entries {session' : ServerSession} (less : session'.data.size < Text.Unsigned.limit)
      (entry : String × ServerSession) (member : entry ∈ Keyed.put id session'
        (Keyed.put id { session with data := session.data.extract 0 start } s.sessions)) :
      entry.2.data.size < Text.Unsigned.limit := by
    rcases Keyed.mem_put member with rfl | member
    · exact less
    · rcases Keyed.mem_put member with rfl | member
      · exact kept
      · exact h.small entry member
  have counted := bytesReceived_note { s with
    sessions := Keyed.put id { session with data := session.data.extract 0 start } s.sessions
    breaks := s.breaks.drop 1 } (some .chunk) request data
  rw [if_pos rfl] at counted
  unfold Server.taken extend
  dsimp only
  split
  · exact ⟨⟨h.unscripted, entries small⟩, counted⟩
  · exact ⟨⟨h.unscripted, entries small⟩, counted⟩

/-- What is taken of the data is no more than what came of it. -/
theorem size_uncut (s : Server) (received : Received) :
    (s.uncut received).size ≤ received.bytes.size := by
  unfold uncut
  cases s.cut? received with
  | none => exact Nat.le_refl _
  | some limit =>
    rw [Option.elim_some, ByteArray.size_extract]
    omega

/-- A session that is cut back to where data begins, and takes some of it, has that much more. -/
theorem held_taken {session : ServerSession} {start n : Nat} {data : ByteArray}
    (stands : start = min (session.held total) total) (size : data.size = start + n)
    (few : start + n ≤ total) : min (({ session with data } : ServerSession).held total) total =
      start + n := by
  unfold ServerSession.held at stands ⊢
  dsimp only
  cases tagged : session.eTag with
  | none =>
    dsimp only
    omega
  | some eTag =>
    rw [tagged] at stands
    dsimp only at stands ⊢
    omega

/-- A session whose data came with a failure is cut back to where the data begins, which is where it
stopped, and nothing is counted. -/
theorem Regular.interrupted (h : s.Regular) {session : ServerSession} {start : Nat}
    (accepted : s.acceptable id request = .ok (session, start, total))
    (stands : start = min (session.held total) total) (small : total < Text.Unsigned.limit)
    {cause : Cause} (failed : received.failure = some cause) (files : Files.Store) :
    (s.receive id request received files).2.1.Regular ∧
      min ((s.receive id request received files).2.1.heldOf total id) total = start ∧
      (s.receive id request received files).2.1.bytesReceived = s.bytesReceived := by
  obtain ⟨-, -, within⟩ := acceptable_eq_ok accepted
  have kept : (session.data.extract 0 start).size = start := by
    rw [ByteArray.size_extract]
    omega
  have cut : (s.receive id request received files).2.1 = { s with
      sessions := Keyed.put id { session with data := session.data.extract 0 start } s.sessions
      breaks := s.breaks.drop 1 } := by
    unfold Server.receive
    rw [accepted]
    dsimp only
    rw [failed]
  rw [cut, heldOf_eq (Keyed.lookup_put_self _ _ _)]
  refine ⟨⟨h.unscripted, fun entry member => ?_⟩, held_taken (n := 0) stands kept (by omega), rfl⟩
  rcases Keyed.mem_put member with rfl | member
  · dsimp only
    omega
  · exact h.small entry member

/-- A session that takes data has that much more, and that much is counted. -/
theorem Regular.grows (h : s.Regular) {session : ServerSession} {start : Nat} {data : ByteArray}
    (accepted : s.acceptable id request = .ok (session, start, total))
    (stands : start = min (session.held total) total) (small : total < Text.Unsigned.limit)
    (few : start + data.size ≤ total) :
    (s.taken id request session start total data).2.Regular ∧
      min ((s.taken id request session start total data).2.heldOf total id) total =
        start + data.size ∧
      (s.taken id request session start total data).2.bytesReceived =
        s.bytesReceived + data.size := by
  obtain ⟨-, -, within⟩ := acceptable_eq_ok accepted
  have size : (session.data.extract 0 start ++ data).size = start + data.size := by
    rw [ByteArray.size_append, ByteArray.size_extract]
    omega
  obtain ⟨regular, counted⟩ :
    (s.taken id request session start total data).2.Regular ∧ _ := h.taken (by omega)
  refine ⟨regular, ?_, counted⟩
  by_cases complete : (session.data.extract 0 start ++ data).size = total
  · obtain ⟨tag, -, puts, -⟩ := taken_complete s request id complete
    rw [heldOf_eq puts.1, ServerSession.held]
    dsimp only
    omega
  · obtain ⟨-, puts, -⟩ := taken_partly s request id complete
    rw [heldOf_eq puts.1, held_taken stands size (by omega)]

/-- Whatever comes of the rest of an object, what the session has grows by what is counted. -/
theorem Regular.receive (h : s.Regular) {session : ServerSession} {start : Nat}
    (accepted : s.acceptable id request = .ok (session, start, total))
    (stands : start = min (s.heldOf total id) total) (small : total < Text.Unsigned.limit)
    (few : start + received.bytes.size ≤ total) (files : Files.Store) :
    (s.receive id request received files).2.1.Regular ∧
      min ((s.receive id request received files).2.1.heldOf total id) total + s.bytesReceived =
        start + (s.receive id request received files).2.1.bytesReceived := by
  obtain ⟨-, found, -⟩ := acceptable_eq_ok accepted
  rw [heldOf_eq found] at stands
  cases whole : received.failure with
  | some cause =>
    obtain ⟨regular, held, counted⟩ := h.interrupted accepted stands small whole files
    exact ⟨regular, by rw [held, counted]⟩
  | none =>
    have uncut := size_uncut s received
    obtain ⟨regular, held, counted⟩ :
      (s.taken id request session start total (s.uncut received)).2.Regular ∧ _ :=
      h.grows accepted stands small (by omega)
    have told : min ((s.taken id request session start total (s.uncut received)).2.heldOf total id)
        total + s.bytesReceived =
          start + (s.taken id request session start total (s.uncut received)).2.bytesReceived := by
      omega
    cases cut : s.cut? received with
    | none =>
      have all : s.uncut received = received.bytes := by rw [Server.uncut, cut, Option.elim_none]
      rw [receive_whole accepted whole cut, ← all]
      exact ⟨regular, told⟩
    | some limit =>
      have first : s.uncut received = received.bytes.extract 0 limit := by
        rw [Server.uncut, cut, Option.elim_some]
      rw [receive_cut accepted whole cut, ← first]
      generalize (s.taken id request session start total (s.uncut received)).2 = t at regular told
      have rests : t.Rests { t with onBreak := none } := ⟨rfl, rfl, rfl⟩
      exact ⟨rests.regular regular, by rw [rests.heldOf, rests.received]; exact told⟩

/-- Data that is sent from where its session stops, and does not go beyond the object. -/
theorem Regular.data (h : s.Regular) {start : Nat}
    (stands : start = min (s.held total (some uri)) total) (small : total < Text.Unsigned.limit)
    (few : received.bytes.size ≤ total - start) (files : Files.Store) :
    (s.answer (dataRequest uri start total) received files).2.1.Regular ∧
      min ((s.answer (dataRequest uri start total) received files).2.1.held total (some uri)) total +
          s.bytesReceived =
        start + (s.answer (dataRequest uri start total) received files).2.1.bytesReceived := by
  have within : start ≤ total := stands ▸ Nat.min_le_right _ _
  by_cases spent : Spent start total
  · obtain ⟨rests, -⟩ := h.query (kindOf_spent uri spent) total received files
    refine ⟨rests.regular h, ?_⟩
    rw [rests.held, ← stands, rests.received]
  · unfold Server.answer
    rw [kindOf_data uri spent]
    cases named : uploadId? uri.uri with
    | none =>
      refine ⟨h, ?_⟩
      rw [Option.elim_none, ← stands]
    | some id =>
      simp only [Option.elim_some, h.scripted?_eq]
      rw [held_eq _ total named] at stands ⊢
      rcases accepted : s.acceptable id (dataRequest uri start total) with status | ⟨session, from_, size⟩
      · unfold Server.receive
        rw [accepted]
        exact ⟨h, by rw [← stands]⟩
      · obtain ⟨placed, -, -⟩ := acceptable_eq_ok accepted
        obtain ⟨rfl, rfl⟩ := placement_data uri spent within placed
        exact h.receive accepted stands small (by omega) files

end

end Server

end ObjectTransfer.Rehearsal
