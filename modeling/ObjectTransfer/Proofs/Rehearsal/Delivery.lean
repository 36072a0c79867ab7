import ObjectTransfer.Proofs.Rehearsal.Server
import ObjectTransfer.Proofs.Source
import ObjectTransfer.Proofs.Upload.Exchange
/-!
The store in memory while one object is delivered to it in one session, and nothing is arranged for
but cuts. The data that it noted, the data of the session and what it says of the session are always
the same first bytes of the object.
-/
namespace ObjectTransfer.Rehearsal.Server
open Http Upload

def sent (s : Server) : ByteArray :=
  s.requests.foldl (fun all r => if r.exchange = some .chunk then all ++ r.body else all) .empty

theorem sent_note_chunk (s : Server) (request : Request) (data : ByteArray) :
    (s.note (some .chunk) request data).sent = s.sent ++ data := by
  simp [sent, note]

theorem sent_note {exchange : Exchange} (h : exchange ≠ .chunk) (s : Server) (request : Request)
    (data : ByteArray) : (s.note (some exchange) request data).sent = s.sent := by
  simp [sent, note, h]

/-- Nothing is arranged for but cuts. -/
structure Plain (s : Server) : Prop where
  scripted : s.scripted = []
  onBreak : s.onBreak = none
  digests : s.eTag = none
  locations : s.omitLocation = false

structure Unstarted (s : Server) : Prop extends Plain s where
  started : s.started = 0
  sessions : s.sessions = []
  nothing : s.sent = .empty

/-- The only session that was started holds the first `n` bytes of `b`, which are all that was
noted. -/
structure Holds (path : String) (b : ByteArray) (n : Nat) (tag : Option String) (s : Server) :
    Prop extends Plain s where
  started : s.started = 1
  session : s.sessions.lookup "1" = some ⟨path, b.extract 0 n, tag⟩
  noted : s.sent = b.extract 0 n

/-- More is to come of the object, or all of it when it is empty. -/
structure Open (path : String) (b : ByteArray) (n : Nat) (s : Server) : Prop
    extends Holds path b n none s where
  le : n ≤ b.size
  unspent : ¬Spent n b.size

/-- The object is stored. -/
structure Complete (path : String) (b : ByteArray) (s : Server) : Prop
    extends Holds path b b.size (some (digestTag b)) s where
  object : s.objects.lookup path = some b

variable {s : Server} {path : String} {b : ByteArray} {n : Nat}

theorem scripted?_eq_none (h : s.scripted = []) (exchange : Exchange) :
    s.scripted? exchange = none := by
  rw [scripted?, h]
  rfl

theorem Plain.scripted?_eq (h : s.Plain) (exchange : Exchange) : s.scripted? exchange = none :=
  scripted?_eq_none h.scripted exchange

def firstSession (target : Uri) : Uri := { target with query := some "upload_id=1" }

theorem text_firstSession {target : Uri} {scheme authority : String}
    (hs : target.scheme = some scheme) (ha : target.authority = some authority) :
    (firstSession target).text =
      scheme ++ "://" ++ authority ++ target.path ++ "?upload_id=" ++ toString 1 := by
  have hq : "?" ++ "upload_id=1" = "?upload_id=" ++ toString 1 := by decide
  simp only [firstSession, Uri.text, hs, ha, Option.getD_some, hq, String.append_assoc]

theorem Plain.note (h : s.Plain) (exchange : Option Exchange) (request : Request)
    (data : ByteArray) : (s.note exchange request data).Plain :=
  ⟨h.scripted, h.onBreak, h.digests, h.locations⟩

theorem Unstarted.answer (h : s.Unstarted) {request : Request} (hk : kindOf request = .start)
    {scheme authority : String} (hs : request.uri.scheme = some scheme)
    (ha : request.uri.authority = some authority) (b : ByteArray) (received : Received)
    (files : Files.Store) :
    ∃ t, s.answer request received files =
        (.ok (responseWith 200 "location" (firstSession request.uri).text), t, files) ∧
      Open request.uri.path b 0 t ∧ t.breaks = s.breaks := by
  have plain := h.toPlain.note (some .start) request .empty
  have hone : Nat.repr 1 = "1" := by decide
  have hsent : (s.note (some .start) request .empty).sent = .empty :=
    (sent_note (by decide) s request .empty).trans h.nothing
  have hstart : startSession (s.note (some .start) request .empty) request =
      (responseWith 200 "location" (firstSession request.uri).text,
        { s.note (some .start) request .empty with
          started := 1
          sessions := [("1", ⟨request.uri.path, .empty, none⟩)] }) := by
    rw [text_firstSession hs ha]
    simp [startSession, Server.note, h.locations, h.started, h.sessions, Keyed.put, hs, ha, hone]
  unfold Server.answer
  rw [hk]
  dsimp only
  rw [plain.scripted?_eq, hstart]
  refine ⟨_, rfl, ⟨⟨⟨plain.scripted, plain.onBreak, plain.digests, plain.locations⟩, rfl, ?_, ?_⟩,
    Nat.zero_le _, fun spent => spent.1 (Nat.le_zero.1 spent.2)⟩, rfl⟩
  · rw [ByteArray.extract_same]
    rfl
  · exact hsent.trans ByteArray.extract_same.symm

theorem Plain.query (h : s.Plain) {uri : SessionUri} (id : uploadId? uri.uri = some "1")
    (total : Nat) (received : Received) (files : Files.Store) :
    s.answer (queryRequest uri total) received files =
      (.ok (s.sessionState "1"), s.note (some .query) (queryRequest uri total) .empty, files) := by
  unfold Server.answer
  rw [kindOf_query, id]
  dsimp only [Option.elim_some]
  rw [(h.note _ _ _).scripted?_eq]
  rfl

theorem Open.size_extract (h : Open path b n s) : (b.extract 0 n).size = n := by
  have hle := h.le
  rw [ByteArray.size_extract]
  omega

/-- How much of a session is held is what the store says of it, until it is finished. -/
theorem sessionState_unfinished {id : String} {session : ServerSession}
    (found : s.sessions.lookup id = some session) (unfinished : session.eTag = none)
    (small : session.data.size < Text.Unsigned.limit) :
    stateOf (s.sessionState id) = .ok (.incomplete session.data.size) := by
  unfold sessionState
  rw [found]
  dsimp only
  rw [unfinished]
  dsimp only
  split
  · rename_i h0
    rw [h0]
    exact stateOf_unnamed rfl rfl
  · have hlt : session.data.size - 1 < Text.Unsigned.limit := by omega
    have hheader : "bytes=0-" ++ toString (session.data.size - 1) =
        (ByteRange.inclusive 0 (session.data.size - 1)).header := by
      have hfront : "bytes=" ++ (toString 0 ++ "-") = "bytes=0-" := by decide
      rw [ByteRange.header, ByteRange.text, ← hfront]
      simp only [String.append_assoc]
    have hreadable : HeaderValue.ofText ("bytes=0-" ++ toString (session.data.size - 1)) =
        .text ("bytes=0-" ++ toString (session.data.size - 1)) := by
      apply ofText_eq
      intro c hc
      rw [String.toList_append, List.mem_append] at hc
      rcases hc with hc | hc
      · have hfront : ∀ d ∈ "bytes=0-".toList, HeaderValue.isReadable d.toNat = true :=
          List.all_eq_true.1 (by decide)
        exact hfront c hc
      · exact isReadable_of_isDigit (Text.isDigit_of_mem_toString hc)
    have holding : Answer.Holding
        (responseWith 308 "range" ("bytes=0-" ++ toString (session.data.size - 1)))
        session.data.size := by
      refine ⟨_, 0, session.data.size - 1, ?_, ByteRange.parse_header (Nat.zero_le _) hlt, by omega⟩
      rw [responseWith, hreadable, hheader]
      rfl
    rw [stateOf_holding rfl holding, Nat.mod_eq_of_lt small]

theorem Open.sessionState (h : Open path b n s) (hl : b.size < Text.Unsigned.limit) :
    stateOf (s.sessionState "1") = .ok (.incomplete n) := by
  have hle := h.le
  have hsize : (b.extract 0 n).size < Text.Unsigned.limit := by
    rw [h.size_extract]
    omega
  rw [sessionState_unfinished h.session rfl hsize, h.size_extract]

theorem Complete.sessionState (h : Complete path b s) :
    stateOf (s.sessionState "1") = .ok (.complete (some (digestTag b))) := by
  unfold Server.sessionState
  rw [h.session]
  dsimp only
  rw [stateOf_complete (.inl rfl), responseWith, ofText_digestTag]
  rfl

theorem Holds.note {tag : Option String} (h : Holds path b n tag s) (request : Request) :
    Holds path b n tag (s.note (some .query) request .empty) :=
  ⟨h.toPlain.note _ _ _, h.started, h.session, (sent_note (by decide) _ _ _).trans h.noted⟩

theorem Open.query (h : Open path b n s) {uri : SessionUri} (id : uploadId? uri.uri = some "1")
    (hl : b.size < Text.Unsigned.limit) (received : Received) (files : Files.Store) :
    ∃ r t, s.answer (queryRequest uri b.size) received files = (.ok r, t, files) ∧
      stateOf r = .ok (.incomplete n) ∧ Open path b n t ∧ t.breaks = s.breaks :=
  ⟨_, _, h.toPlain.query id b.size received files, h.sessionState hl,
    ⟨h.toHolds.note _, h.le, h.unspent⟩, rfl⟩

theorem Complete.query (h : Complete path b s) {uri : SessionUri}
    (id : uploadId? uri.uri = some "1") (received : Received) (files : Files.Store) :
    ∃ r t, s.answer (queryRequest uri b.size) received files = (.ok r, t, files) ∧
      stateOf r = .ok (.complete (some (digestTag b))) ∧ Complete path b t ∧
      t.breaks = s.breaks :=
  ⟨_, _, h.toPlain.query id b.size received files, h.sessionState,
    ⟨h.toHolds.note _, h.object⟩, rfl⟩

/-- More data is put where the session stops; the last of it makes the object. -/
theorem Open.taken (h : Open path b n s) (request : Request) {m : Nat} (hm : n + m ≤ b.size) :
    let after := s.taken "1" request ⟨path, b.extract 0 n, none⟩ n b.size (b.extract n (n + m))
    after.2.breaks = s.breaks.drop 1 ∧
      if n + m = b.size then after.1 = some (digestTag b) ∧ Complete path b after.2
      else after.1 = none ∧ Open path b (n + m) after.2 := by
  have hjoin : b.extract 0 n ++ b.extract n (n + m) = b.extract 0 (n + m) := by
    rw [ByteArray.extract_append_extract]
    congr 1
    omega
  have hsize : (b.extract 0 (n + m)).size = n + m := by
    rw [ByteArray.size_extract]
    omega
  have hkept : (b.extract 0 n).extract 0 n = b.extract 0 n := by
    rw [ByteArray.extract_extract]
    congr 1
    omega
  have hnoted : s.sent ++ b.extract n (n + m) = b.extract 0 (n + m) := by
    rw [h.noted, hjoin]
  unfold Server.taken extend
  simp only [hkept, hjoin, hsize]
  by_cases hall : n + m = b.size
  · have hb : b.extract 0 b.size = b := ByteArray.extract_zero_size
    rw [hall, hb] at hnoted
    simp only [hall, if_true, hb]
    refine ⟨rfl, ?_, ⟨⟨⟨h.scripted, h.onBreak, h.digests, h.locations⟩, h.started, ?_, ?_⟩,
      Keyed.lookup_put_self _ _ _⟩⟩
    · rw [Server.note, h.digests]
      rfl
    · refine (Keyed.lookup_put_self _ _ _).trans ?_
      rw [hb, Server.note, h.digests]
      rfl
    · rw [hb]
      exact (sent_note_chunk _ _ _).trans hnoted
  · simp only [hall, if_false]
    refine ⟨rfl, trivial,
      ⟨⟨⟨h.scripted, h.onBreak, h.digests, h.locations⟩, h.started, ?_, ?_⟩, hm, ?_⟩⟩
    · exact Keyed.lookup_put_self _ _ _
    · exact (sent_note_chunk _ _ _).trans hnoted
    · unfold Spent
      omega

theorem Open.acceptable (h : Open path b n s) (uri : SessionUri)
    (hl : b.size < Text.Unsigned.limit) :
    s.acceptable "1" (dataRequest uri n b.size) =
      .ok (⟨path, b.extract 0 n, none⟩, n, b.size) := by
  unfold Server.acceptable
  rw [placement_eq uri h.unspent h.le hl]
  dsimp only
  rw [h.session]
  dsimp only
  rw [h.size_extract, if_neg (Nat.lt_irrefl n)]

theorem cut?_eq_some {received : Received} {limit : Nat} (h : s.cut? received = some limit) :
    s.breaks.head? = some limit ∧ limit ≤ received.size := by
  rw [cut?, Option.filter_eq_some_iff, Bool.and_eq_true, decide_eq_true_eq] at h
  exact ⟨h.1, h.2.2⟩

theorem Open.wants (h : Open path b n s) {uri : SessionUri} (id : uploadId? uri.uri = some "1")
    (hl : b.size < Text.Unsigned.limit) {received : Received} (hc : s.cut? received = none) :
    s.wants (dataRequest uri n b.size) received = true := by
  unfold Server.wants
  rw [kindOf_data uri h.unspent, id]
  dsimp only [Option.elim_some]
  rw [h.scripted?_eq, h.acceptable uri hl]
  rw [cut?] at hc
  cases hb : s.breaks with
  | nil => rfl
  | cons limit rest =>
    rw [hb, List.head?_cons, Option.filter_eq_none_iff] at hc
    have hlimit := hc limit rfl
    cases hempty : received.newest.isEmpty with
    | true => rfl
    | false =>
      rw [hempty] at hlimit
      simpa using hlimit

theorem Complete.uncut (h : Complete path b s) : Complete path b { s with onBreak := none } :=
  ⟨⟨⟨h.scripted, rfl, h.digests, h.locations⟩, h.started, h.session, h.noted⟩, h.object⟩

theorem Open.uncut (h : Open path b n s) : Open path b n { s with onBreak := none } :=
  ⟨⟨⟨h.scripted, rfl, h.digests, h.locations⟩, h.started, h.session, h.noted⟩, h.le, h.unspent⟩

theorem storedTag_digestTag (b : ByteArray) :
    storedTag (responseWith 200 "etag" (digestTag b)) = .ok (digestTag b) := by
  apply storedTag_tagged (.inl rfl)
  rw [responseWith, ofText_digestTag]
  rfl

/-- Where the data of a request ends up: it is all there and the object is stored, or it was cut off
after some bytes of it, which may be all. -/
theorem Open.data (h : Open path b n s) {uri : SessionUri} (id : uploadId? uri.uri = some "1")
    (hl : b.size < Text.Unsigned.limit) {m : Nat} {received : Received} (hm : m ≤ b.size - n)
    (hr : received.Is (b.extract n (n + m)))
    (wanted : m = b.size - n ∨ Server.wants (dataRequest uri n b.size) received s = false)
    (files : Files.Store) :
    (∃ r t, s.answer (dataRequest uri n b.size) received files = (.ok r, t, files) ∧
      storedTag r = .ok (digestTag b) ∧ Complete path b t) ∨
    ∃ t, s.answer (dataRequest uri n b.size) received files =
        (.error (.transport (.given "connection reset by peer")), t, files) ∧
      ((∃ k, Open path b k t) ∨ Complete path b t) ∧ t.breaks.length < s.breaks.length := by
  have hle := h.le
  have hacc := h.acceptable uri hl
  have hanswer : s.answer (dataRequest uri n b.size) received files =
      s.receive "1" (dataRequest uri n b.size) received files := by
    unfold Server.answer
    rw [kindOf_data uri h.unspent, id]
    dsimp only [Option.elim_some]
    rw [h.scripted?_eq]
  rw [hanswer]
  cases hc : s.cut? received with
  | none =>
    left
    have hall : n + m = b.size := by
      rcases wanted with rfl | hw
      · omega
      · rw [h.wants id hl hc] at hw
        cases hw
    obtain ⟨-, htaken⟩ := h.taken (dataRequest uri n b.size) (m := m) (by omega)
    rw [if_pos hall] at htaken
    rw [receive_whole hacc hr.failure hc, hr.bytes, htaken.1]
    exact ⟨_, _, rfl, storedTag_digestTag b, htaken.2⟩
  | some limit =>
    right
    obtain ⟨hhead, hlimit⟩ := cut?_eq_some hc
    rw [hr.size, ByteArray.size_extract] at hlimit
    have hpart : received.bytes.extract 0 limit = b.extract n (n + limit) := by
      rw [hr.bytes, ByteArray.extract_extract]
      congr 1
      omega
    obtain ⟨hbreaks, htaken⟩ := h.taken (dataRequest uri n b.size) (m := limit) (by omega)
    have hfewer : (s.breaks.drop 1).length < s.breaks.length := by
      cases hb : s.breaks with
      | nil => simp [hb] at hhead
      | cons first rest => simp
    rw [receive_cut hacc hr.failure hc, hpart]
    generalize s.taken _ _ _ _ _ _ = after at hbreaks htaken ⊢
    rw [← hbreaks] at hfewer
    split at htaken
    · refine ⟨_, ?_, .inr htaken.2.uncut, hfewer⟩
      rw [htaken.2.onBreak]
      rfl
    · refine ⟨_, ?_, .inl ⟨_, htaken.2.uncut⟩, hfewer⟩
      rw [htaken.2.onBreak]
      rfl

end ObjectTransfer.Rehearsal.Server
