import ObjectTransfer.Proofs.Rehearsal.Server
import ObjectTransfer.Proofs.Source
import ObjectTransfer.Proofs.Upload.Exchange
/-!
The store in memory while only the same bytes are uploaded, and to one key. Whatever it was told about
its answers, each of its sessions holds the first bytes of those bytes, and the object is all of them
once it is there.
-/
namespace ObjectTransfer.Upload
open Http Rehearsal

def PathOf (key : ObjectKey) (path : String) : Prop :=
  ∃ target, objectTarget key = .ok target ∧ target.path = path

theorem PathOf.unique {key : ObjectKey} {path path' : String} (h : PathOf key path)
    (h' : PathOf key path') : path = path' := by
  obtain ⟨target, ht, rfl⟩ := h
  obtain ⟨target', ht', rfl⟩ := h'
  rw [ht] at ht'
  cases ht'
  rfl

def Stored (key : ObjectKey) (b : ByteArray) (s : Server) : Prop :=
  ∃ path, PathOf key path ∧ s.objects.lookup path = some b

/-- A session of the key that holds the first bytes of `b`. When it has an entity tag, which it keeps
for good, this is the one of `b`, and `b` was stored. -/
structure Faithful (key : ObjectKey) (b : ByteArray) (objects : List (String × ByteArray))
    (session : ServerSession) : Prop where
  path : PathOf key session.path
  data : ∃ n, session.data = b.extract 0 n
  tagged : ∀ tag, session.eTag = some tag →
    tag = Server.digestTag b ∧ objects.lookup session.path = some b

/-- The store has nothing but sessions of the key with first bytes of `b`, and as the object nothing
but `b`. -/
structure Honest (key : ObjectKey) (b : ByteArray) (s : Server) : Prop where
  digests : s.eTag = none
  sessions : ∀ entry ∈ s.sessions, Faithful key b s.objects entry.2
  object : ∀ path, PathOf key path → ∀ data, s.objects.lookup path = some data → data = b

def Vouched (key : ObjectKey) (b : ByteArray) (a : Answer) (s : Server) : Prop :=
  ∀ tag, a.Tagged tag → tag = Server.digestTag b ∧ Stored key b s

variable {key : ObjectKey} {b : ByteArray} {s : Server}

theorem vouched_bare (code : Nat) : Vouched key b (.ok (.bare code)) s := by
  rintro tag ⟨r, hr, -, ht⟩
  cases hr
  cases ht

theorem vouched_error (e : Error) : Vouched key b (.error e) s := by
  rintro tag ⟨r, hr, -, -⟩
  cases hr

theorem vouched_location (code : Nat) (location : String) :
    Vouched key b (.ok (Server.responseWith code "location" location)) s := by
  rintro tag ⟨r, hr, -, ht⟩
  cases hr
  cases ht

theorem vouched_range (range : String) :
    Vouched key b (.ok (Server.responseWith 308 "range" range)) s := by
  rintro tag ⟨r, hr, -, ht⟩
  cases hr
  cases ht

theorem vouched_eTag (h : Stored key b s) :
    Vouched key b (.ok (Server.responseWith 200 "etag" (Server.digestTag b))) s := by
  rintro tag ⟨r, hr, -, ht⟩
  cases hr
  have hv : Headers.text? [("etag", HeaderValue.ofText (Server.digestTag b))] "etag" =
      some (Server.digestTag b) := by
    rw [Server.ofText_digestTag]
    rfl
  rw [Server.responseWith, hv] at ht
  cases ht
  exact ⟨rfl, h⟩

theorem extract_eq_self {n : Nat} (h : (b.extract 0 n).size = b.size) : b.extract 0 n = b := by
  have hn : min n b.size = min b.size b.size := by
    rw [ByteArray.size_extract] at h
    omega
  rw [extract_eq_of_min_eq hn, ByteArray.extract_zero_size]

namespace Honest

theorem same {t : Server} (h : Honest key b s) (digests : t.eTag = s.eTag)
    (sessions : t.sessions = s.sessions) (objects : t.objects = s.objects) : Honest key b t where
  digests := digests.trans h.digests
  sessions := by
    rw [sessions, objects]
    exact h.sessions
  object := by
    rw [objects]
    exact h.object

theorem put (h : Honest key b s) (id : String) {session : ServerSession}
    (hf : Faithful key b s.objects session) :
    Honest key b { s with sessions := Keyed.put id session s.sessions } where
  digests := h.digests
  sessions := by
    intro entry hentry
    rcases Keyed.mem_put hentry with rfl | hentry
    · exact hf
    · exact h.sessions entry hentry
  object := h.object

theorem find (h : Honest key b s) {id : String} {session : ServerSession}
    (hl : s.sessions.lookup id = some session) : Faithful key b s.objects session :=
  h.sessions _ (Keyed.mem_of_lookup hl)

theorem start (h : Honest key b s) {request : Request} (path : PathOf key request.uri.path) :
    Honest key b (s.startSession request).2 ∧
      Vouched key b (.ok (s.startSession request).1) (s.startSession request).2 := by
  have hf : Faithful key b s.objects ⟨request.uri.path, .empty, none⟩ := by
    refine ⟨path, ⟨0, ?_⟩, nofun⟩
    rw [ByteArray.extract_same]
  have hput := h.put (toString (s.started + 1)) hf
  unfold Server.startSession
  dsimp only
  split
  · exact ⟨hput.same rfl rfl rfl, vouched_bare _⟩
  · exact ⟨hput.same rfl rfl rfl, vouched_location _ _⟩

theorem sessionState (h : Honest key b s) (id : String) :
    Vouched key b (.ok (s.sessionState id)) s := by
  unfold Server.sessionState
  split
  · exact vouched_bare _
  · rename_i session hl
    have hf := h.find hl
    split
    · rename_i tag htag
      obtain ⟨rfl, hstored⟩ := hf.tagged tag htag
      exact vouched_eTag ⟨_, hf.path, hstored⟩
    · split
      · exact vouched_bare _
      · exact vouched_range _

/-- Data that goes on where a session stops leaves first bytes there; when these are all, the object
is stored. -/
theorem extend (h : Honest key b s) {id : String} {session : ServerSession} {start n : Nat}
    (hf : Faithful key b s.objects session) (hdata : session.data = b.extract 0 start) :
    Honest key b (s.extend id session (b.extract start (start + n)) b.size).2 ∧
      ∀ tag, (s.extend id session (b.extract start (start + n)) b.size).1 = some tag →
        tag = Server.digestTag b ∧
          Stored key b (s.extend id session (b.extract start (start + n)) b.size).2 := by
  have hjoin : session.data ++ b.extract start (start + n) = b.extract 0 (start + n) := by
    rw [hdata, ByteArray.extract_append_extract]
    congr 1
    omega
  unfold Server.extend
  rw [hjoin]
  dsimp only
  split
  · rename_i hall
    rw [extract_eq_self hall, h.digests]
    have hstored : (Keyed.put session.path b s.objects).lookup session.path = some b :=
      Keyed.lookup_put_self _ _ _
    have hobjects : ∀ path, PathOf key path →
        (Keyed.put session.path b s.objects).lookup path = some b := by
      intro path hpath
      rw [hpath.unique hf.path, hstored]
    refine ⟨⟨rfl, ?_, ?_⟩, ?_⟩
    · intro entry hentry
      rcases Keyed.mem_put hentry with rfl | hentry
      · refine ⟨hf.path, ⟨b.size, ByteArray.extract_zero_size.symm⟩, ?_⟩
        rintro tag ⟨⟩
        exact ⟨rfl, hstored⟩
      · have he := h.sessions entry hentry
        exact ⟨he.path, he.data, fun tag ht => ⟨(he.tagged tag ht).1, hobjects _ he.path⟩⟩
    · intro path hpath data hd
      rw [hobjects path hpath] at hd
      exact (Option.some.inj hd).symm
    · rintro tag ⟨⟩
      exact ⟨rfl, _, hf.path, hstored⟩
  · exact ⟨h.put id ⟨hf.path, ⟨_, rfl⟩, hf.tagged⟩, nofun⟩

theorem taken (h : Honest key b s) {id : String} (request : Request) {session : ServerSession}
    {start n : Nat} (hl : s.sessions.lookup id = some session) (hle : start ≤ session.data.size) :
    Honest key b (s.taken id request session start b.size (b.extract start (start + n))).2 ∧
      ∀ tag, (s.taken id request session start b.size (b.extract start (start + n))).1 = some tag →
        tag = Server.digestTag b ∧
          Stored key b (s.taken id request session start b.size (b.extract start (start + n))).2 := by
  have hf := h.find hl
  have hkept : session.data.extract 0 start = b.extract 0 start := by
    obtain ⟨k, hk⟩ := hf.data
    rw [hk, ByteArray.size_extract] at hle
    rw [hk, ByteArray.extract_extract]
    congr 1
    omega
  have hf' : Faithful key b s.objects { session with data := session.data.extract 0 start } :=
    ⟨hf.path, ⟨start, hkept⟩, hf.tagged⟩
  have hcut := h.put id hf'
  unfold Server.taken
  refine Honest.extend ?_ hf' hkept
  exact hcut.same rfl rfl rfl

theorem receive (h : Honest key b s) (uri : SessionUri) (id : String) {offset n : Nat}
    {received : Received} (files : Files.Store) (ho : offset ≤ b.size)
    (spent : ¬Server.Spent offset b.size) (hr : received.Is (b.extract offset (offset + n))) :
    Honest key b (s.receive id (dataRequest uri offset b.size) received files).2.1 ∧
      Vouched key b (s.receive id (dataRequest uri offset b.size) received files).1
        (s.receive id (dataRequest uri offset b.size) received files).2.1 := by
  rcases hacc : s.acceptable id (dataRequest uri offset b.size) with status | ⟨session, start, total⟩
  · unfold Server.receive
    rw [hacc]
    exact ⟨h, vouched_bare _⟩
  obtain ⟨hp, hl, hle⟩ := Server.acceptable_eq_ok hacc
  obtain ⟨rfl, rfl⟩ := Server.placement_data uri spent ho hp
  cases hc : s.cut? received with
  | none =>
    rw [Server.receive_whole hacc hr.failure hc, hr.bytes]
    obtain ⟨ht, htag⟩ := h.taken (dataRequest uri start b.size) (n := n) hl hle
    refine ⟨ht, ?_⟩
    cases htaken : (s.taken id (dataRequest uri start b.size) session start b.size
        (b.extract start (start + n))).1 with
    | none => exact vouched_bare _
    | some tag =>
      obtain ⟨rfl, hstored⟩ := htag tag htaken
      exact vouched_eTag hstored
  | some limit =>
    have hpart : received.bytes.extract 0 limit = b.extract start (start + min limit n) := by
      rw [hr.bytes, ByteArray.extract_extract]
      congr 1
      omega
    rw [Server.receive_cut hacc hr.failure hc, hpart]
    obtain ⟨ht, -⟩ := h.taken (dataRequest uri start b.size) (n := min limit n) hl hle
    exact ⟨ht.same rfl rfl rfl, vouched_error _⟩

end Honest

/-- The requests of an upload of `b` to the key, with what is received of their bodies. -/
inductive Asks (key : ObjectKey) (b : ByteArray) : Request → Received → Prop
  | start {headers : Headers} {request : Request} (made : startRequest key headers = .ok request) :
      Asks key b request .nothing
  | query (uri : SessionUri) : Asks key b (queryRequest uri b.size) .nothing
  | data (uri : SessionUri) {offset n : Nat} {received : Received} (inside : offset ≤ b.size)
      (came : received.Is (b.extract offset (offset + n))) :
      Asks key b (dataRequest uri offset b.size) received

theorem Asks.kept {request : Request} {received : Received} (h : Asks key b request received) :
    request.method ≠ .delete := by
  cases h with
  | start made =>
    unfold startRequest at made
    split at made
    · cases made
    · split at made
      · cases made
      · cases made
        nofun
  | query uri => nofun
  | data uri inside came => nofun

namespace Honest

theorem queried (h : Honest key b s) {request : Request} {uri : SessionUri}
    (hk : Server.kindOf request = (Server.uploadId? uri.uri).elim .unnamed .query)
    (received : Received) (files : Files.Store) :
    Honest key b (s.answer request received files).2.1 ∧
      Vouched key b (s.answer request received files).1 (s.answer request received files).2.1 := by
  unfold Server.answer
  rw [hk]
  cases Server.uploadId? uri.uri with
  | none => exact ⟨h, vouched_bare _⟩
  | some id =>
    have hnote : Honest key b (s.note (some .query) request .empty) := h.same rfl rfl rfl
    dsimp only [Option.elim_some]
    split
    · exact ⟨h.same rfl rfl rfl, vouched_bare _⟩
    · exact ⟨hnote, hnote.sessionState id⟩

theorem answer (h : Honest key b s) {request : Request} {received : Received}
    (hr : Asks key b request received) (files : Files.Store) :
    Honest key b (s.answer request received files).2.1 ∧
      Vouched key b (s.answer request received files).1 (s.answer request received files).2.1 := by
  cases hr with
  | start made =>
    obtain ⟨hk, htarget⟩ := Server.kindOf_start made
    unfold Server.answer
    rw [hk]
    dsimp only
    split
    · exact ⟨h.same rfl rfl rfl, vouched_bare _⟩
    · have hnote : Honest key b (s.note (some .start) request .empty) := h.same rfl rfl rfl
      exact hnote.start ⟨_, htarget, rfl⟩
  | query uri => exact h.queried (Server.kindOf_query uri b.size) _ files
  | @data uri offset n received inside came =>
    by_cases spent : Server.Spent offset b.size
    · exact h.queried (Server.kindOf_spent uri spent) _ files
    · unfold Server.answer
      rw [Server.kindOf_data uri spent]
      cases Server.uploadId? uri.uri with
      | none => exact ⟨h, vouched_bare _⟩
      | some id =>
        dsimp only [Option.elim_some]
        split
        · exact ⟨h.same rfl rfl rfl, vouched_bare _⟩
        · exact h.receive uri id files inside spent came

end Honest

end ObjectTransfer.Upload
