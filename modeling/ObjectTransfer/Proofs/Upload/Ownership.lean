import ObjectTransfer.Proofs.Rehearsal.Honest
import ObjectTransfer.Proofs.Rehearsal.Storing
import ObjectTransfer.Proofs.Source.Changes
import ObjectTransfer.Proofs.Upload.Send
/-!
Whose the objects in the store are. What was asked of the store since a call began shows which object
the call itself has put there; a session that was started meanwhile is complete only when it has, and
so is one from before, unless that was complete already or is a session for another object.
-/
namespace ObjectTransfer

/-- A connection behind which the store answers, and nobody else changes it. -/
structure Connection.Serves {σ : Type} (c : Connection σ) (server : σ → Rehearsal.Server) : Prop where
  arrive : ∀ request p f, server (c.arrive request p f).1 = server p
  elapse : ∀ p f, server (c.elapse p f).1 = server p
  answer : ∀ request received p f,
    (c.answer request received p f).1 = ((server p).answer request received f).1 ∧
      server (c.answer request received p f).2.1 = ((server p).answer request received f).2.1

namespace Upload
open Http Rehearsal Server Handler Job
variable {σ : Type} {server : σ → Server}

def latest (server : σ → Server) (s : Server) (log : List (Exchanged σ)) : Server :=
  log.getLast?.elim s fun x => server x.peer

/-- This object is at the path now, and one of these exchanges has put it there: a request with data
has finalized it, and it was there after every exchange since. -/
inductive Uploaded (server : σ → Server) (s : Server) (path : String) :
    List (Exchanged σ) → ByteArray → Prop
  | finalized {log : List (Exchanged σ)} {x : Exchanged σ} {data : ByteArray}
      (finalizes : (latest server s log).Finalizes x.request x.received path data)
      (there : (server x.peer).objects.lookup path = some data) :
      Uploaded server s path (log ++ [x]) data
  | stays {log : List (Exchanged σ)} {x : Exchanged σ} {data : ByteArray}
      (before : Uploaded server s path log data)
      (there : (server x.peer).objects.lookup path = some data) :
      Uploaded server s path (log ++ [x]) data

/-- The session that was held when these exchanges began was complete then, or for another path, and
none of them was a start that was answered with a new session. -/
structure Inherited (s : Server) (path : String) (held : Option SessionUri)
    (log : List (Exchanged σ)) : Prop where
  session : ∃ uri id session, held = some uri ∧ uploadId? uri.uri = some id ∧
    s.sessions.lookup id = some session ∧ (session.eTag.isSome ∨ session.path ≠ path)
  alone : ∀ y ∈ log, y.request.method = .post → ∀ uri, ¬Answer.Grants y.result uri

/-- What is held under a name is a session for this path, and if it is complete then the object is one
that these exchanges have put there. -/
def Owned (server : σ → Server) (s : Server) (path : String) (log : List (Exchanged σ))
    (id : String) : Prop :=
  ∀ session, (latest server s log).sessions.lookup id = some session →
    session.path = path ∧ (session.eTag.isSome → ∃ data, Uploaded server s path log data)

section
variable {s : Server} {path : String} {log : List (Exchanged σ)} {x : Exchanged σ}

theorem latest_snoc : latest server s (log ++ [x]) = server x.peer := by
  simp [latest]

theorem Uploaded.stored {data : ByteArray} (h : Uploaded server s path log data) :
    (latest server s log).objects.lookup path = some data := by
  cases h with
  | finalized finalizes there => rw [latest_snoc, there]
  | stays before there => rw [latest_snoc, there]

theorem Uploaded.next {data : ByteArray} (h : Uploaded server s path log data)
    (effect : Effect (latest server s log) x.request x.received x.result (server x.peer)) :
    ∃ data', Uploaded server s path (log ++ [x]) data' := by
  have stays (same : (server x.peer).objects.lookup path =
      (latest server s log).objects.lookup path) : Uploaded server s path (log ++ [x]) data :=
    .stays h (same.trans h.stored)
  cases effect with
  | kept sessions objects tagged ungranted => exact ⟨data, stays (by rw [objects])⟩
  | started start sessions objects answered => exact ⟨data, stays (by rw [objects])⟩
  | received chunk found sessions objects untagged => exact ⟨data, stays (by rw [objects])⟩
  | @finalized id session data' tag chunk found sessions objects finalizes =>
    by_cases here : path = session.path
    · subst here
      exact ⟨data', .finalized finalizes (by rw [objects, Keyed.lookup_put_self])⟩
    · exact ⟨data, stays (by rw [objects, Keyed.lookup_put_of_ne here])⟩

theorem Uploaded.exists_chunk {data : ByteArray}
    (h : Uploaded server s path log data) : ∃ y ∈ log, ∃ id, kindOf y.request = .chunk id := by
  induction h with
  | @finalized log x data finalizes there =>
    cases finalizes with
    | intro chunk unscripted accepted whole complete => exact ⟨x, by simp, _, chunk⟩
  | stays before there ih =>
    obtain ⟨y, hy, chunk⟩ := ih
    exact ⟨y, List.mem_append_left _ hy, chunk⟩

theorem Uploaded.exists_session {data : ByteArray}
    (h : Uploaded server s path log data) :
    ∃ t, (t = s ∨ ∃ y ∈ log, t = server y.peer) ∧ ∃ entry ∈ t.sessions, entry.2.path = path := by
  induction h with
  | @finalized log x data finalizes there =>
    refine ⟨latest server s log, ?_, ?_⟩
    · rcases List.eq_nil_or_concat' log with rfl | ⟨earlier, y, rfl⟩
      · exact .inl rfl
      · exact .inr ⟨y, by simp, latest_snoc⟩
    · cases finalizes with
      | intro chunk unscripted accepted whole complete =>
        obtain ⟨-, found, -⟩ := acceptable_eq_ok accepted
        exact ⟨_, Keyed.mem_of_lookup found, rfl⟩
  | stays before there ih =>
    obtain ⟨t, ht, session⟩ := ih
    exact ⟨t, ht.imp_right fun ⟨y, hy, same⟩ => ⟨y, List.mem_append_left _ hy, same⟩, session⟩

theorem Owned.next {id : String} (h : Owned server s path log id)
    (effect : Effect (latest server s log) x.request x.received x.result (server x.peer))
    (here : kindOf x.request = .start → x.request.uri.path = path) :
    Owned server s path (log ++ [x]) id := by
  have before {session : ServerSession}
      (found : (latest server s log).sessions.lookup id = some session) :
      session.path = path ∧
        (session.eTag.isSome → ∃ data, Uploaded server s path (log ++ [x]) data) := by
    obtain ⟨hpath, hdone⟩ := h session found
    refine ⟨hpath, fun complete => ?_⟩
    obtain ⟨data, uploaded⟩ := hdone complete
    exact uploaded.next effect
  intro session found
  rw [latest_snoc] at found
  cases effect with
  | kept sessions objects tagged ungranted =>
    rw [sessions] at found
    exact before found
  | started start sessions objects answered =>
    by_cases new : id = toString ((latest server s log).started + 1)
    · rw [new, sessions.1] at found
      cases found
      exact ⟨here start, nofun⟩
    · rw [sessions.2 id new] at found
      exact before found
  | @received id' session' data chunk found' sessions objects untagged =>
    by_cases same : id = id'
    · subst same
      rw [sessions.1] at found
      cases found
      have kept := before found'
      exact kept
    · rw [sessions.2 id same] at found
      exact before found
  | @finalized id' session' data tag chunk found' sessions objects finalizes =>
    by_cases same : id = id'
    · subst same
      rw [sessions.1] at found
      cases found
      obtain ⟨rfl, -⟩ := h session' found'
      refine ⟨rfl, fun _ => ⟨data, .finalized finalizes ?_⟩⟩
      rw [objects, Keyed.lookup_put_self]
    · rw [sessions.2 id same] at found
      exact before found

theorem owned_of_grants {key : ObjectKey} {headers : Headers} {uri : SessionUri}
    (made : startRequest key headers = .ok x.request) (here : x.request.uri.path = path)
    (effect : Effect (latest server s log) x.request x.received x.result (server x.peer))
    (granted : Answer.Grants x.result uri) :
    ∀ id, uploadId? uri.uri = some id → Owned server s path (log ++ [x]) id := by
  obtain ⟨kind, -⟩ := kindOf_start made
  cases effect with
  | kept sessions objects tagged ungranted => exact absurd granted (ungranted uri)
  | received chunk found sessions objects untagged =>
    rw [kind] at chunk
    cases chunk
  | finalized chunk found sessions objects finalizes =>
    rw [kind] at chunk
    cases chunk
  | started start sessions objects answered =>
    rw [answered] at granted
    intro id named session found
    rw [uploadId?_of_grants made granted] at named
    cases named
    rw [latest_snoc, sessions.1] at found
    cases found
    exact ⟨here, nofun⟩

theorem kindOf_ne_start {request : Request} (put : request.method = .put) :
    kindOf request ≠ .start := by
  rw [kindOf_put put]
  cases uploadId? request.uri with
  | none => nofun
  | some id =>
    rw [Option.elim_some]
    split
    · nofun
    · nofun

theorem complete_of_tagged {tag : String} (put : x.request.method = .put)
    (effect : Effect (latest server s log) x.request x.received x.result (server x.peer))
    (tagged : Answer.Tagged x.result tag) :
    ∃ id session, uploadId? x.request.uri = some id ∧
      (latest server s (log ++ [x])).sessions.lookup id = some session ∧ session.eTag.isSome := by
  rw [latest_snoc]
  cases effect with
  | kept sessions objects told ungranted =>
    obtain ⟨id, session, named, found, complete⟩ := told tag tagged
    exact ⟨id, session, named, by rw [sessions, found], by rw [complete]; rfl⟩
  | started start sessions objects answered => exact absurd start (kindOf_ne_start put)
  | received chunk found sessions objects untagged => exact absurd tagged (untagged tag)
  | finalized chunk found sessions objects finalizes =>
    exact ⟨_, _, uploadId?_of_kindOf (.inr chunk), sessions.1, rfl⟩

end

/-- The observer has seen these exchanges since the world `w`, and no deletion among them. -/
structure Since (server : σ → Server) (w : World (Observed σ)) (o : Observed σ)
    (log : List (Exchanged σ)) : Prop where
  seen : o.seen = w.peer.seen ++ log
  peer : server o.peer = latest server (server w.peer.peer) log
  undeleted : ∀ y ∈ log, y.request.method ≠ .delete

structure Notes (server : σ → Server) (o : Observed σ) (x : Exchanged σ) (o' : Observed σ) :
    Prop where
  seen : o'.seen = o.seen ++ [x]
  peer : server o'.peer = server x.peer
  effect : Effect (server o.peer) x.request x.received x.result (server x.peer)

theorem Since.next {w : World (Observed σ)} {o o' : Observed σ} {log : List (Exchanged σ)}
    {x : Exchanged σ} (h : Since server w o log) (noted : Notes server o x o')
    (undeleted : x.request.method ≠ .delete) : Since server w o' (log ++ [x]) where
  seen := by rw [noted.seen, h.seen, List.append_assoc]
  peer := by rw [noted.peer, latest_snoc]
  undeleted := by
    intro y hy
    rcases List.mem_append.1 hy with hy | hy
    · exact h.undeleted y hy
    · rw [List.mem_singleton.1 hy]
      exact undeleted

section
variable {c : Connection σ} (serves : c.Serves server)
include serves

theorem effect_noted {request : Request} (asks : request.method = .put ∨ kindOf request = .start)
    (received : Received) (p : σ) (f : Files.Store) :
    Effect (server p) request received (c.noted request received p f).result
      (server (c.noted request received p f).peer) := by
  obtain ⟨answer, after⟩ := serves.answer request received p f
  have told := effect (server p) request received f asks
  rw [← answer, ← after] at told
  exact told

theorem noted_exchange (request : Request)
    (asks : request.method = .put ∨ kindOf request = .start) (w : World (Observed σ)) :
    ∃ x : Exchanged σ, x.request = request ∧ x.result = (c.observed.exchange request w).1 ∧
      Notes server w.peer x (c.observed.exchange request w).2.peer := by
  refine ⟨c.noted request .nothing (c.arrive request w.peer.peer w.files).1
    (c.arrive request w.peer.peer w.files).2, rfl, rfl, rfl, rfl, ?_⟩
  have effect := effect_noted serves asks .nothing (c.arrive request w.peer.peer w.files).1
    (c.arrive request w.peer.peer w.files).2
  rw [serves.arrive] at effect
  exact effect

theorem noted_put (request : Request) (put : request.method = .put) (body : SourceBody)
    (reader : Reader) (w : World (Observed σ)) :
    ∃ x : Exchanged σ, x.request = request ∧
      x.result = (c.observed.send request body reader w).1 ∧
      Notes server w.peer x (c.observed.send request body reader w).2.2.peer := by
  obtain ⟨received, p, f, same, result, -, peer⟩ := Connection.noted_send (c := c)
    (P := fun p _ => server p = server w.peer.peer)
    (fun p f h => (serves.elapse p f).trans h) request body reader w (serves.arrive _ _ _)
  have effect := effect_noted serves (.inl put) received p f
  rw [same] at effect
  exact ⟨c.noted request received p f, rfl, result.symm, by rw [peer], by rw [peer], effect⟩

end

section
variable {path : String} {w : World (Observed σ)} {held : Option SessionUri}

/-- What was seen since the world `w` accounts for the session that is held now: it is the one that was
inherited, or it is owned. -/
def Accounts (server : σ → Server) (path : String) (w : World (Observed σ))
    (held uri : Option SessionUri) (o : Observed σ) : Prop :=
  ∃ log, Since server w o log ∧
    (uri = held ∧ Inherited (server w.peer.peer) path held log ∨
      ∀ now id, uri = some now → uploadId? now.uri = some id →
        Owned server (server w.peer.peer) path log id)

/-- What was seen since the world `w` accounts for the object at the path. -/
def Justifies (server : σ → Server) (path : String) (w : World (Observed σ))
    (held : Option SessionUri) (o : Observed σ) : Prop :=
  ∃ log, Since server w o log ∧
    ((∃ data, Uploaded server (server w.peer.peer) path log data) ∨
      Inherited (server w.peer.peer) path held log)

theorem Inherited.next {s : Server} {log : List (Exchanged σ)} {x : Exchanged σ}
    (h : Inherited s path held log)
    (ungranted : x.request.method = .post → ∀ uri, ¬Answer.Grants x.result uri) :
    Inherited s path held (log ++ [x]) where
  session := h.session
  alone := by
    intro y hy
    rcases List.mem_append.1 hy with hy | hy
    · exact h.alone y hy
    · rw [List.mem_singleton.1 hy]
      exact ungranted

namespace Accounts
variable {uri : Option SessionUri} {o o' : Observed σ} {x : Exchanged σ}

theorem next (h : Accounts server path w held uri o) (noted : Notes server o x o')
    (undeleted : x.request.method ≠ .delete)
    (here : kindOf x.request = .start → x.request.uri.path = path)
    (ungranted : x.request.method = .post → ∀ uri, ¬Answer.Grants x.result uri) :
    Accounts server path w held uri o' := by
  obtain ⟨log, since, accounted⟩ := h
  have effect := noted.effect
  rw [since.peer] at effect
  refine ⟨log ++ [x], since.next noted undeleted, ?_⟩
  rcases accounted with ⟨same, inherited⟩ | owned
  · exact .inl ⟨same, inherited.next ungranted⟩
  · exact .inr fun now id hnow named => (owned now id hnow named).next effect here

theorem put (h : Accounts server path w held uri o) (noted : Notes server o x o')
    (put : x.request.method = .put) : Accounts server path w held uri o' := by
  refine h.next noted ?_ (fun start => absurd start (kindOf_ne_start put)) ?_
  · rw [put]
    nofun
  · rw [put]
    nofun

theorem granted (h : Accounts server path w held uri o) (noted : Notes server o x o')
    (undeleted : x.request.method ≠ .delete) {key : ObjectKey} {headers : Headers}
    (made : startRequest key headers = .ok x.request) (here : x.request.uri.path = path)
    {new : SessionUri} (granted : Answer.Grants x.result new) :
    Accounts server path w held (some new) o' := by
  obtain ⟨log, since, -⟩ := h
  have effect := noted.effect
  rw [since.peer] at effect
  refine ⟨log ++ [x], since.next noted undeleted, .inr ?_⟩
  rintro _ id ⟨⟩ named
  exact owned_of_grants made here effect granted id named

theorem tagged {now : SessionUri} (h : Accounts server path w held (some now) o)
    (noted : Notes server o x o') (put : x.request.method = .put) (asked : x.request.uri = now.uri)
    {tag : String} (tagged : Answer.Tagged x.result tag) : Justifies server path w held o' := by
  have after := h.put noted put
  obtain ⟨before, since, -⟩ := h
  have effect := noted.effect
  rw [since.peer] at effect
  obtain ⟨id, session, named, found, complete⟩ := complete_of_tagged put effect tagged
  rw [asked] at named
  obtain ⟨log, since', accounted⟩ := after
  have same : latest server (server w.peer.peer) (before ++ [x]) =
      latest server (server w.peer.peer) log := by
    rw [← since'.peer, noted.peer, latest_snoc]
  rw [same] at found
  refine ⟨log, since', ?_⟩
  rcases accounted with ⟨-, inherited⟩ | owned
  · exact .inr inherited
  · exact .inl ((owned now id rfl named session found).2 complete)

theorem wait {c : Connection σ} (serves : c.Serves server) {v : World (Observed σ)}
    (h : Accounts server path w held uri v.peer) :
    Accounts server path w held uri (c.observed.wait v).peer := by
  obtain ⟨log, since, accounted⟩ := h
  exact ⟨log, ⟨since.seen, (serves.elapse _ _).trans since.peer, since.undeleted⟩, accounted⟩

end Accounts

end

end Upload

end ObjectTransfer
