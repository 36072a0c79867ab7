import ObjectTransfer.Proofs.Upload.Exchange
import ObjectTransfer.Proofs.Upload.Send
/-!
The requests of an upload. Whatever a store answers, the requests of every attempt come in one order,
and which of them are made, to whom, and with which bytes, is decided by the answers before them.
-/
namespace ObjectTransfer.Upload
open Http
variable {σ : Type}

/-- The requests of one attempt, in their order. -/
structure Round (σ : Type) where
  asked : Option (Exchanged σ)
  started : Option (Exchanged σ)
  sent : Option (Exchanged σ)
  askedAgain : Option (Exchanged σ)
  deleted : Option (Exchanged σ)

def Round.exchanges (r : Round σ) : List (Exchanged σ) :=
  r.asked.toList ++ r.started.toList ++ r.sent.toList ++ r.askedAgain.toList ++ r.deleted.toList

def IsQuery (uri : SessionUri) (total : Nat) (x : Exchanged σ) : Prop :=
  x.request = ⟨.put, uri.uri, [("content-range", .text ("bytes */" ++ toString total)),
    ("content-length", .text "0")]⟩ ∧ x.received = .nothing

/-- A request for a new session, with the headers of the caller and one header that says so. -/
def IsStart (target : Uri) (headers : Headers) (x : Exchanged σ) : Prop :=
  x.request.method = .post ∧ x.request.uri = target ∧
    x.request.headers.filter (fun field => field.1 == "x-goog-resumable") =
      [("x-goog-resumable", .text "start")] ∧
    x.request.headers.filter (fun field => field.1 != "x-goog-resumable") =
      headers.filter (fun field => field.1 != "x-goog-resumable") ∧ x.received = .nothing

/-- The range that is named for the data from an offset on; none for an empty object. -/
def rangeOf (offset total : Nat) : Headers :=
  if total = 0 then []
  else if offset < total then
    [("content-range", .text ("bytes " ++ toString offset ++ "-" ++ toString (total - 1) ++ "/" ++
      toString total))]
  else [("content-range", .text ("bytes */" ++ toString total))]

/-- A request with the data from an offset on: what was taken of its body are the bytes of the source
from there, all of them unless the other side wanted no more. -/
def IsData (c : Connection σ) (uri : SessionUri) (offset : Nat) (data : ByteArray)
    (x : Exchanged σ) : Prop :=
  x.request = ⟨.put, uri.uri, ("content-length", .text (toString (data.size - offset))) ::
    rangeOf offset data.size⟩ ∧
  ∃ n ≤ data.size - offset, x.received.Is (data.extract offset (offset + n)) ∧
    (n = data.size - offset ∨ ∃ p, c.wants x.request x.received p = false)

def IsDelete (target : Uri) (x : Exchanged σ) : Prop :=
  x.request = ⟨.delete, target, []⟩ ∧ x.received = .nothing

/-- Data may be sent to this session, of which the store holds `n` bytes: it said so when it was
asked, or the session was just started, and written to the tracker file where there is one. -/
def Allows (lost : Answer → Prop) (tracker : Option TrackerFile) (held : Option SessionUri)
    (asked started : Option (Exchanged σ)) (uri : SessionUri) (n : Nat) : Prop :=
  (held = some uri ∧ ∃ x ∈ asked,
    Answer.Confirms x.result n ∧ ¬lost x.result ∨ lost x.result ∧ n = 0) ∨
  (n = 0 ∧ ∃ x ∈ started, Answer.Grants x.result uri ∧
    ∀ t ∈ tracker, ∃ files, t.save uri.text x.files = .ok files)

/-- The requests of an attempt that began with the session `held` are those of the protocol. An
answer that is `lost` counts as one that names no range. -/
structure Conforms (lost : Answer → Prop) (c : Connection σ) (policy : StalePolicy)
    (tracker : Option TrackerFile) (headers : Headers) (target : Uri) (data : ByteArray)
    (held : Option SessionUri) (r : Round σ) : Prop where
  asked : r.asked.isSome ↔ held.isSome
  query : ∀ x ∈ r.asked, ∀ uri ∈ held, IsQuery uri data.size x
  started : r.started.isSome ↔
    held = none ∨ ∃ x ∈ r.asked, Answer.Restarts policy x.result ∧ ¬lost x.result
  start : ∀ x ∈ r.started, IsStart target headers x
  sent : r.sent.isSome ↔ ∃ uri n, Allows lost tracker held r.asked r.started uri n
  rest : ∀ x ∈ r.sent, ∀ uri n, Allows lost tracker held r.asked r.started uri n →
    IsData c uri (min n data.size) data x
  askedAgain : r.askedAgain.isSome ↔ ∃ x ∈ r.sent, ¬∃ tag, Answer.Tagged x.result tag
  queryAgain : ∀ x ∈ r.askedAgain, ∀ uri n,
    Allows lost tracker held r.asked r.started uri n → IsQuery uri data.size x
  deleted : r.deleted.isSome ↔ ∃ x tag, (x ∈ r.asked ∨ x ∈ r.sent) ∧
    Answer.Tagged x.result tag ∧ Job.digestOf tag ≠ Digest.md5Hex data
  delete : ∀ x ∈ r.deleted, IsDelete target x

theorem restarts_of_hidden {policy : StalePolicy} {a : Answer} (h : a.Hidden) :
    a.Restarts policy := by
  obtain ⟨r, got, code, range, raw⟩ := h
  refine .inr (.inl ⟨r, got, code, range, ?_⟩)
  rintro ⟨n, text, start, stop, ht, -⟩
  rw [raw] at ht
  cases ht

theorem IsData.offset_eq {c : Connection σ} {uri : SessionUri} {n m : Nat} {data : ByteArray}
    {x : Exchanged σ} (h : IsData c uri n data x) (h' : IsData c uri m data x)
    (hn : n ≤ data.size) (hm : m ≤ data.size) : n = m := by
  have same := h.1.symm.trans h'.1
  simp only [Request.mk.injEq, List.cons.injEq, Prod.mk.injEq, HeaderValue.text.injEq, true_and] at same
  have rest : data.size - n = data.size - m :=
    (Text.Unsigned.numeral_toString _).unique (same.1 ▸ Text.Unsigned.numeral_toString _)
  omega

section
variable {c : Connection σ} {policy : StalePolicy} {tracker : Option TrackerFile} {headers : Headers}
  {target : Uri} {data : ByteArray} {held : Option SessionUri} {r : Round σ} {x : Exchanged σ}

/-- To the letter, a range that is no text is followed by a start. -/
theorem Conforms.not_hidden
    (h : Conforms (Answer.Misread data.size) c policy tracker headers target data held r)
    (literal : Conforms (fun _ => False) c policy tracker headers target data held r)
    (hx : r.asked = some x) : ¬Answer.Hidden x.result := by
  intro hidden
  have hstart : r.started.isSome := literal.started.2 (.inr ⟨x, hx, restarts_of_hidden hidden, id⟩)
  rcases h.started.1 hstart with hnone | ⟨y, hy, -, hseen⟩
  · have hasked : r.asked.isSome := by rw [hx]; rfl
    rw [h.asked, hnone] at hasked
    cases hasked
  · cases hx.symm.trans hy
    exact hseen (.inl hidden)

/-- To the letter, nothing is left to send once the store has counted past a word; but all is sent. -/
theorem Conforms.empty_of_overruns
    (h : Conforms (Answer.Misread data.size) c policy tracker headers target data held r)
    (literal : Conforms (fun _ => False) c policy tracker headers target data held r)
    (hx : r.asked = some x) (overruns : Answer.Overruns x.result) : data.size = 0 := by
  by_contra filled
  obtain ⟨uri, known⟩ : ∃ uri, held = some uri :=
    Option.isSome_iff_exists.1 (h.asked.1 (by rw [hx]; rfl))
  have allowed : Allows (Answer.Misread data.size) tracker held r.asked r.started uri 0 :=
    .inl ⟨known, x, hx, .inr ⟨.inr ⟨overruns, filled⟩, rfl⟩⟩
  have named : Allows (fun _ => False) tracker held r.asked r.started uri Text.Unsigned.limit :=
    .inl ⟨known, x, hx, .inl ⟨overruns, id⟩⟩
  obtain ⟨y, hy⟩ := Option.isSome_iff_exists.1 (h.sent.2 ⟨uri, 0, allowed⟩)
  have same := (h.rest y hy uri 0 allowed).offset_eq (literal.rest y hy uri _ named)
    (Nat.min_le_right _ _) (Nat.min_le_right _ _)
  have positive : 0 < Text.Unsigned.limit := by decide
  omega

/-- The protocol is followed to the letter exactly when no query is answered with something else than
what is understood: a range that is no text should lead to a new session, and does not; a count past a
word should leave nothing to send, and all is sent. -/
theorem Conforms.to_the_letter
    (h : Conforms (Answer.Misread data.size) c policy tracker headers target data held r) :
    Conforms (fun _ => False) c policy tracker headers target data held r ↔
      ∀ x ∈ r.asked, ¬Answer.Misread data.size x.result := by
  constructor
  · rintro literal x hx (hidden | ⟨overruns, filled⟩)
    · exact h.not_hidden literal hx hidden
    · exact filled (h.empty_of_overruns literal hx overruns)
  · intro seen
    have allows : Allows (fun _ => False) tracker held r.asked r.started =
        Allows (Answer.Misread data.size) tracker held r.asked r.started := by
      funext uri n
      refine propext (or_congr (and_congr_right fun _ => exists_congr fun x =>
        and_congr_right fun hx => ?_) Iff.rfl)
      simp [seen x hx]
    exact
      { h with
        started := by
          rw [h.started]
          refine or_congr Iff.rfl (exists_congr fun x => and_congr_right fun hx => ?_)
          simp [seen x hx]
        sent := by rw [allows]; exact h.sent
        rest := by rw [allows]; exact h.rest
        queryAgain := by rw [allows]; exact h.queryAgain }

end

namespace Job
variable {c : Connection σ} {u : Job (Observed σ)}

theorem exchange_seen (hc : u.connection = c.observed) (request : Request)
    (w : World (Observed σ)) :
    ∃ x : Exchanged σ, x.request = request ∧ x.received = .nothing ∧
      x.result = (u.connection.exchange request w).1 ∧
      x.files = (u.connection.exchange request w).2.files ∧
      (u.connection.exchange request w).2.peer.seen = w.peer.seen ++ [x] := by
  rw [hc]
  obtain ⟨x, hreq, hrec, hres, -, hfiles, hseen⟩ := c.seen_exchange request w
  exact ⟨x, hreq, hrec, hres, hfiles, hseen⟩

theorem isQuery_of {uri : SessionUri} {total : Nat} {x : Exchanged σ}
    (h : x.request = queryRequest uri total) (hr : x.received = .nothing) : IsQuery uri total x := by
  refine ⟨?_, hr⟩
  rw [h]
  rfl

theorem query_seen (hc : u.connection = c.observed) {uri : SessionUri} {w v : World (Observed σ)}
    {answer : Except Error SessionState} (h : u.query uri w = (answer, v)) :
    ∃ x : Exchanged σ, IsQuery uri u.total x ∧ answer = x.result.bind stateOf ∧
      v.peer.seen = w.peer.seen ++ [x] := by
  obtain ⟨x, hreq, hrec, hres, -, hseen⟩ := exchange_seen hc (queryRequest uri u.total) w
  rw [← query_world, h] at hseen
  refine ⟨x, isQuery_of hreq hrec, ?_, hseen⟩
  rw [hres, ← query_answer, h]

theorem isStart_of {key : ObjectKey} {target : Uri} {headers : Headers} {request : Request}
    (hk : objectTarget key = .ok target) (made : startRequest key headers = .ok request)
    {x : Exchanged σ} (hreq : x.request = request) (hr : x.received = .nothing) :
    IsStart target headers x := by
  unfold startRequest at made
  split at made
  · cases made
  · rw [hk] at made
    cases made
    refine ⟨by rw [hreq], by rw [hreq], ?_, ?_, hr⟩
    · rw [hreq]
      simp [Headers.set, List.filter_append, List.filter_filter]
    · rw [hreq]
      simp [Headers.set, List.filter_append, List.filter_filter]

/-- A start is one request, and it gives a session when the answer names one and the tracker file
can be written. -/
theorem Starts.seen (hc : u.connection = c.observed) {target : Uri}
    (hk : objectTarget u.key = .ok target) (hh : Headers.has u.headers "content-length" = false)
    {s t : State (Observed σ)} {result : Except Error Unit} (h : u.Starts s result t) :
    ∃ x : Exchanged σ, IsStart target u.headers x ∧ t.world.peer.seen = s.world.peer.seen ++ [x] ∧
      (result = .ok () → ∃ uri, Answer.Grants x.result uri ∧
        ∀ t ∈ u.tracker, ∃ files, t.save uri.text x.files = .ok files) ∧
      (∀ uri, Answer.Grants x.result uri →
        (∀ t ∈ u.tracker, ∃ files, t.save uri.text x.files = .ok files) →
        result = .ok () ∧ t.session.uri = some uri ∧ t.session.confirmed = 0) := by
  -- The request can be made, whatever becomes of it.
  have start {request : Request} {answer : Answer} {w : World (Observed σ)}
      (made : startRequest u.key u.headers = .ok request)
      (asked : u.connection.exchange request s.world = (answer, w)) :
      ∃ x : Exchanged σ, IsStart target u.headers x ∧ x.result = answer ∧ x.files = w.files ∧
        w.peer.seen = s.world.peer.seen ++ [x] := by
    obtain ⟨x, hreq, hrec, hres, hfiles, hseen⟩ := exchange_seen hc request s.world
    rw [asked] at hres hfiles hseen
    exact ⟨x, isStart_of hk made hreq hrec, hres, hfiles, hseen⟩
  have grants {x : Exchanged σ} {response : Response} (hres : x.result = .ok response)
      (uri : SessionUri) : Answer.Grants x.result uri ↔ startedSession response = .ok uri := by
    rw [Answer.grants_iff, hres]
    exact Iff.rfl
  cases h with
  | unmade made =>
    rw [startRequest, if_neg (by simp [hh]), hk] at made
    cases made
  | failed made asked =>
    obtain ⟨x, hx, hres, -, hseen⟩ := start made asked
    refine ⟨x, hx, hseen, nofun, fun uri hg _ => ?_⟩
    obtain ⟨r, location, got, -⟩ := hg
    rw [hres] at got
    cases got
  | refused made asked answered =>
    obtain ⟨x, hx, hres, -, hseen⟩ := start made asked
    refine ⟨x, hx, hseen, nofun, fun uri hg _ => ?_⟩
    rw [grants hres, answered] at hg
    cases hg
  | @untracked _ _ uri _ made asked answered tracker =>
    obtain ⟨x, hx, hres, -, hseen⟩ := start made asked
    refine ⟨x, hx, hseen, fun _ => ⟨uri, (grants hres uri).2 answered, ?_⟩, fun uri' hg _ => ?_⟩
    · rw [tracker]
      nofun
    · rw [grants hres, answered] at hg
      cases hg
      exact ⟨rfl, rfl, rfl⟩
  | @saved _ _ uri _ t files made asked answered tracker save =>
    obtain ⟨x, hx, hres, hfiles, hseen⟩ := start made asked
    refine ⟨x, hx, hseen, fun _ => ⟨uri, (grants hres uri).2 answered, ?_⟩, fun uri' hg _ => ?_⟩
    · rw [tracker, hfiles]
      rintro _ ⟨⟩
      exact ⟨files, save⟩
    · rw [grants hres, answered] at hg
      cases hg
      exact ⟨rfl, rfl, rfl⟩
  | @unsaved _ _ uri _ t e made asked answered tracker save =>
    obtain ⟨x, hx, hres, hfiles, hseen⟩ := start made asked
    refine ⟨x, hx, hseen, nofun, fun uri' hg hsave => ?_⟩
    rw [grants hres, answered] at hg
    cases hg
    obtain ⟨files, hs⟩ := hsave t tracker
    rw [hfiles, save] at hs
    cases hs

/-- The requests with which an attempt finds out where to go on, and what comes of them. -/
structure Opening (u : Job (Observed σ)) (target : Uri) (held : Option SessionUri)
    (q p : Option (Exchanged σ)) (result : Except Error (Option String)) (session : Session) :
    Prop where
  asked : q.isSome ↔ held.isSome
  query : ∀ x ∈ q, ∀ uri ∈ held, IsQuery uri u.total x
  started : p.isSome ↔
    held = none ∨ ∃ x ∈ q, Answer.Restarts u.stalePolicy x.result ∧ ¬Answer.Misread u.total x.result
  start : ∀ x ∈ p, IsStart target u.headers x
  allowed : ∀ uri n, Allows (Answer.Misread u.total) u.tracker held q p uri n →
    result = .ok none ∧ session.uri = some uri ∧ min session.confirmed u.total = min n u.total
  allows : result = .ok none → ∃ uri n, Allows (Answer.Misread u.total) u.tracker held q p uri n
  tagged : ∀ tag, result = .ok (some tag) ↔ ∃ x ∈ q, Answer.Tagged x.result tag

/-- The session was asked for, and goes on or fails without a new one. -/
theorem Opening.of_query {target : Uri} {uri : SessionUri} {q : Exchanged σ}
    {answer : Except Error SessionState} {result : Except Error (Option String)}
    {session : Session} (hq : IsQuery uri u.total q) (ha : answer = q.result.bind stateOf)
    (hstale : ¬Stale u.stalePolicy answer)
    (hgo : ∀ n, answer = .ok (.incomplete n) →
      result = .ok none ∧ session.uri = some uri ∧ session.confirmed = n)
    (hon : result = .ok none → ∃ n, answer = .ok (.incomplete n))
    (htag : ∀ tag, result = .ok (some tag) ↔ answer = .ok (.complete (some tag))) :
    Opening u target (some uri) (some q) none result session where
  asked := by simp
  query := by
    rintro _ ⟨⟩ _ ⟨⟩
    exact hq
  started := by
    rw [ha, ← Answer.stale_iff u.total] at hstale
    simpa using hstale
  start := by simp
  allowed := by
    rintro uri' n (⟨⟨⟩, _, ⟨⟩, hn⟩ | ⟨-, _, ⟨⟩, -⟩)
    obtain ⟨m, understood, same⟩ := Answer.incomplete_of_allowed hn
    obtain ⟨hok, huri, rfl⟩ := hgo m (ha.trans understood)
    exact ⟨hok, huri, same⟩
  allows := by
    intro hok
    obtain ⟨n, hn⟩ := hon hok
    obtain ⟨m, hm⟩ := Answer.allowed_of_incomplete u.total (ha.symm.trans hn)
    exact ⟨uri, m, .inl ⟨rfl, q, rfl, hm⟩⟩
  tagged := by
    intro tag
    rw [htag, ha, ← Answer.tagged_iff]
    simp

/-- There is no session, or it is out of date, and one is started. -/
theorem Opening.of_start {target : Uri} {held : Option SessionUri} {q : Option (Exchanged σ)}
    {x : Exchanged σ} {result : Except Error Unit} {session : Session}
    (asked : q.isSome ↔ held.isSome) (query : ∀ y ∈ q, ∀ uri ∈ held, IsQuery uri u.total y)
    (stale : ∀ y ∈ q, Stale u.stalePolicy (y.result.bind stateOf))
    (hx : IsStart target u.headers x)
    (hok : result = .ok () → ∃ uri, Answer.Grants x.result uri ∧
      ∀ t ∈ u.tracker, ∃ files, t.save uri.text x.files = .ok files)
    (hgrant : ∀ uri, Answer.Grants x.result uri →
      (∀ t ∈ u.tracker, ∃ files, t.save uri.text x.files = .ok files) →
      result = .ok () ∧ session.uri = some uri ∧ session.confirmed = 0) :
    Opening u target held q (some x) (result.map fun _ => none) session where
  asked := asked
  query := query
  started := by
    cases held with
    | none => simp
    | some uri =>
      obtain ⟨y, hy⟩ := Option.isSome_iff_exists.1 (asked.2 rfl)
      simpa using ⟨y, hy, (Answer.stale_iff u.total).2 (stale y hy)⟩
  start := by
    rintro _ ⟨⟩
    exact hx
  allowed := by
    rintro uri n (⟨-, y, hy, hn⟩ | ⟨rfl, _, ⟨⟩, hg, hsave⟩)
    · have hs := stale y hy
      obtain ⟨m, understood, -⟩ := Answer.incomplete_of_allowed hn
      rw [understood] at hs
      cases hs
    · obtain ⟨rfl, huri, hconfirmed⟩ := hgrant uri hg hsave
      exact ⟨rfl, huri, by rw [hconfirmed]⟩
  allows := by
    intro hnone
    cases result with
    | error e => cases hnone
    | ok _ =>
      obtain ⟨uri, hg⟩ := hok rfl
      exact ⟨uri, 0, .inr ⟨rfl, x, rfl, hg⟩⟩
  tagged := by
    have untagged (tag : String) : ∀ y ∈ q, ¬Answer.Tagged y.result tag := by
      intro y hy ht
      have hs := stale y hy
      rw [Answer.tagged_iff.1 ht] at hs
      cases hs
    intro tag
    cases result with
    | error e => simpa [Except.map] using untagged tag
    | ok _ => simpa [Except.map] using untagged tag

theorem Resumes.seen (hc : u.connection = c.observed) {target : Uri}
    (hk : objectTarget u.key = .ok target) (hh : Headers.has u.headers "content-length" = false)
    {s t : State (Observed σ)} {result : Except Error (Option String)} (h : u.Resumes s result t) :
    ∃ asked started : Option (Exchanged σ),
      t.world.peer.seen = s.world.peer.seen ++ (asked.toList ++ started.toList) ∧
      Opening u target s.session.uri asked started result t.session := by
  cases h with
  | began held begun =>
    obtain ⟨x, hx, hseen, hok, hgrant⟩ := Starts.seen hc hk hh begun
    refine ⟨none, some x, by simpa using hseen, ?_⟩
    rw [held]
    exact .of_start (by simp) (by simp) (by simp) hx hok hgrant
  | restarted held asked stale begun =>
    obtain ⟨q, hq, ha, hqs⟩ := query_seen hc asked
    obtain ⟨x, hx, hseen, hok, hgrant⟩ := Starts.seen hc hk hh begun
    refine ⟨some q, some x, by simp [hseen, hqs], ?_⟩
    rw [held]
    refine .of_start (by simp) ?_ ?_ hx hok hgrant
    · rintro _ ⟨⟩ _ ⟨⟩
      exact hq
    · rintro _ ⟨⟩
      exact ha ▸ stale
  | incomplete held asked =>
    obtain ⟨q, hq, ha, hqs⟩ := query_seen hc asked
    refine ⟨some q, none, by simp [State.confirm, hqs], ?_⟩
    rw [held]
    refine .of_query hq ha (by rintro ⟨⟩) ?_ (fun _ => ⟨_, rfl⟩) (by simp)
    rintro n ⟨⟩
    exact ⟨rfl, held, rfl⟩
  | complete held asked =>
    obtain ⟨q, hq, ha, hqs⟩ := query_seen hc asked
    refine ⟨some q, none, by simp [State.confirm, hqs], ?_⟩
    rw [held]
    exact .of_query hq ha (by rintro ⟨⟩) (by simp) (by simp) (by simp)
  | untagged held asked =>
    obtain ⟨q, hq, ha, hqs⟩ := query_seen hc asked
    refine ⟨some q, none, by simp [State.confirm, hqs], ?_⟩
    rw [held]
    exact .of_query hq ha (by rintro ⟨⟩) (by simp) (by simp) (by simp)
  | refused held asked auth =>
    obtain ⟨q, hq, ha, hqs⟩ := query_seen hc asked
    refine ⟨some q, none, by simp [hqs], ?_⟩
    rw [held]
    refine .of_query hq ha ?_ (by simp) (by simp) (by simp)
    rintro ⟨hauth⟩
    exact hauth auth
  | failed held asked disposition =>
    obtain ⟨q, hq, ha, hqs⟩ := query_seen hc asked
    refine ⟨some q, none, by simp [hqs], ?_⟩
    rw [held]
    refine .of_query hq ha (fun hs => ?_) (by simp) (by simp) (by simp)
    cases hs with
    | startOver hd => exact disposition hd

theorem dataRequest_eq (uri : SessionUri) (offset total : Nat) :
    dataRequest uri offset total = ⟨.put, uri.uri,
      ("content-length", .text (toString (total - offset))) :: rangeOf offset total⟩ := by
  rw [dataRequest, numberHeader, rangeOf]
  by_cases h0 : total = 0
  · simp only [h0, if_true]
  · by_cases ho : offset < total
    · simp only [h0, ho, if_false, if_true, ContentRange.remaining, Nat.not_le.2 ho,
        ContentRange.text]
    · simp only [h0, ho, if_false, ContentRange.remaining, Nat.not_lt.1 ho, if_true,
        ContentRange.text]

/-- The request with the rest of a source that is always `data`: the body never finds that the source
has changed. -/
theorem send_seen (hc : u.connection = c.observed) {data : ByteArray} {I : Files.Store → Prop}
    (steady : u.source.Steady data I) (apart : c.Keeps fun _ f => I f) (ht : u.total = data.size)
    (uri : SessionUri) (s : State (Observed σ)) (hi : I s.world.files) :
    ∃ reader, u.source.readerAt (u.connection.wait s.world).files (u.offset s) = .ok reader ∧
      ∃ (x : Exchanged σ) (body : SourceBody) (w : World (Observed σ)),
        u.connection.send (dataRequest uri (u.offset s) u.total) (u.rest s) reader
          (u.connection.wait s.world) = (x.result, body, w) ∧
        body.changed = false ∧ w.peer.seen = s.world.peer.seen ++ [x] ∧
        IsData c uri (u.offset s) data x := by
  have hoff : u.offset s ≤ data.size := by
    rw [offset, ht]
    omega
  have hwait : c.observed.Waits fun o f => I f ∧ o.seen = s.world.peer.seen := by
    rintro o f ⟨hf, hs⟩
    exact ⟨apart.elapse o.peer f hf, hs⟩
  have hw : I (u.connection.wait s.world).files ∧
      (u.connection.wait s.world).peer.seen = s.world.peer.seen := by
    rw [hc]
    exact hwait _ _ ⟨hi, rfl⟩
  generalize u.connection.wait s.world = w at hw
  obtain ⟨reader, hopen, hfollows⟩ := steady.opened w.files (u.offset s) hw.1 hoff
  refine ⟨reader, hopen, ?_⟩
  have hahead : (u.rest s).Ahead data := by
    rw [rest, ht]
    exact SourceBody.ofRange_ahead hoff _ _
  obtain ⟨n, received, body, v, hn, hgot, hsame, hv, hend, hsend⟩ :=
    Connection.send_steady hwait (fun _ _ h => h.1) (dataRequest uri (u.offset s) u.total) hahead
      (w := w) ⟨apart.arrive _ w.peer.peer w.files hw.1, hw.2⟩ hfollows
  have hrest : (u.rest s).remaining = data.size - u.offset s := by
    rw [rest, ht]
    rfl
  rw [hrest] at hn hend
  refine ⟨c.noted (dataRequest uri (u.offset s) u.total) received v.peer.peer v.files, body, _,
    by rw [hc]; exact hsend, hsame, congrArg (· ++ [_]) hv.2, ?_, n, hn, hgot, ?_⟩
  · rw [← dataRequest_eq, ← ht]
    rfl
  · exact hend.imp_right fun h => ⟨v.peer.peer, h⟩

/-- The answer decides what becomes of the data, and after any answer but that the object is stored
the session is asked for once more. -/
theorem Sends.seen (hc : u.connection = c.observed) {data : ByteArray} {I : Files.Store → Prop}
    (steady : u.source.Steady data I) (apart : c.Keeps fun _ f => I f) (ht : u.total = data.size)
    {uri : SessionUri} {s t : State (Observed σ)} {result : Except Error String}
    (h : u.Sends uri s result t) (hi : I s.world.files) :
    ∃ (x : Exchanged σ) (again : Option (Exchanged σ)),
      t.world.peer.seen = s.world.peer.seen ++ (x :: again.toList) ∧
      IsData c uri (u.offset s) data x ∧ (∀ tag, result = .ok tag ↔ Answer.Tagged x.result tag) ∧
      (again.isSome ↔ ¬∃ tag, Answer.Tagged x.result tag) ∧
      ∀ y ∈ again, IsQuery uri data.size y := by
  obtain ⟨reader, hopen, x, body, w, hsend, hsame, hseen, hdata⟩ :=
    send_seen hc steady apart ht uri s hi
  rcases h.of_put hopen hsend hsame with ⟨eTag, answered, rfl, rfl⟩ | ⟨e, answered, rfl, rfl⟩
  · have hx := Answer.stored_iff.2 answered
    refine ⟨x, none, by simp [hseen], hdata, fun tag => ?_, by simpa using ⟨_, hx⟩, by simp⟩
    rw [Answer.stored_iff, answered]
  · obtain ⟨y, hreq, hrec, -, -, hy⟩ := exchange_seen hc (queryRequest uri u.total) w
    refine ⟨x, some y, ?_, hdata, fun tag => ?_, ?_, ?_⟩
    · rw [afterFailure_world, hy, hseen]
      simp
    · rw [Answer.stored_iff, answered]
      simp
    · have hx : ¬∃ tag, Answer.Tagged x.result tag := by
        rintro ⟨tag, htag⟩
        rw [Answer.stored_iff, answered] at htag
        cases htag
      simp [hx]
    · rintro _ ⟨⟩
      rw [← ht]
      exact isQuery_of hreq hrec

theorem Finishes.seen (hc : u.connection = c.observed) {target : Uri}
    (hk : objectTarget u.key = .ok target) {eTag : String} {s t : State (Observed σ)}
    {result : Except Error Output} (h : u.Finishes eTag s result t) :
    ∃ deleted : Option (Exchanged σ),
      t.world.peer.seen = s.world.peer.seen ++ deleted.toList ∧
      (deleted.isSome ↔ digestOf eTag ≠ u.md5) ∧ ∀ x ∈ deleted, IsDelete target x := by
  have hcleared : (u.cleared s).world.peer = s.world.peer := by
    rw [cleared, peer_removeTracker]
    rfl
  cases h with
  | verified same => exact ⟨none, by simp [hcleared], by simp [same], by simp⟩
  | undeleted differs made =>
    rw [deleteRequest, hk] at made
    cases made
  | deleted differs made =>
    rw [deleteRequest, hk] at made
    cases made
    obtain ⟨x, hreq, hrec, -, -, hx⟩ := exchange_seen hc ⟨.delete, target, []⟩ (u.cleared s).world
    refine ⟨some x, by rw [hx, hcleared]; rfl, by simp [differs], ?_⟩
    rintro _ ⟨⟩
    exact ⟨hreq, hrec⟩

/-- The opening of an attempt, and what follows it: data when it gave no entity tag, and a deletion
when a tag does not fit. -/
theorem Opening.conforms {target : Uri} {data : ByteArray} {held : Option SessionUri}
    {result : Except Error (Option String)} {session : Session} {r : Round σ}
    (ho : Opening u target held r.asked r.started result session) (ht : u.total = data.size)
    (sent : r.sent.isSome ↔ result = .ok none)
    (rest : ∀ x ∈ r.sent, ∀ uri ∈ session.uri, IsData c uri (min session.confirmed data.size) data x)
    (askedAgain : r.askedAgain.isSome ↔ ∃ x ∈ r.sent, ¬∃ tag, Answer.Tagged x.result tag)
    (queryAgain : ∀ x ∈ r.askedAgain, ∀ uri ∈ session.uri, IsQuery uri data.size x)
    (deleted : r.deleted.isSome ↔ ∃ tag, (result = .ok (some tag) ∨
      ∃ x ∈ r.sent, Answer.Tagged x.result tag) ∧ digestOf tag ≠ Digest.md5Hex data)
    (delete : ∀ x ∈ r.deleted, IsDelete target x) :
    Conforms (Answer.Misread data.size) c u.stalePolicy u.tracker u.headers target data held r where
  asked := ho.asked
  query x hx uri hu := ht ▸ ho.query x hx uri hu
  started := ht ▸ ho.started
  start := ho.start
  sent := by
    rw [sent, ← ht]
    constructor
    · exact ho.allows
    · rintro ⟨uri, n, ha⟩
      exact (ho.allowed uri n ha).1
  rest := by
    intro x hx uri n ha
    obtain ⟨-, hu, hn⟩ := ho.allowed uri n (ht ▸ ha)
    rw [ht] at hn
    rw [← hn]
    exact rest x hx uri hu
  askedAgain := askedAgain
  queryAgain x hx uri n ha := queryAgain x hx uri (ho.allowed uri n (ht ▸ ha)).2.1
  deleted := by
    rw [deleted]
    constructor
    · rintro ⟨tag, hres | ⟨x, hx, htag⟩, hd⟩
      · obtain ⟨x, hx, htag⟩ := (ho.tagged tag).1 hres
        exact ⟨x, tag, .inl hx, htag, hd⟩
      · exact ⟨x, tag, .inr hx, htag, hd⟩
    · rintro ⟨x, tag, hx | hx, htag, hd⟩
      · exact ⟨tag, .inl ((ho.tagged tag).2 ⟨x, hx, htag⟩), hd⟩
      · exact ⟨tag, .inr ⟨x, hx, htag⟩, hd⟩
  delete := delete

theorem Opening.conforms_sent {target : Uri} {data : ByteArray} {held : Option SessionUri}
    {q p again d : Option (Exchanged σ)} {x : Exchanged σ} {uri : SessionUri} {session : Session}
    (ho : Opening u target held q p (.ok none) session) (ht : u.total = data.size)
    (huri : session.uri = some uri)
    (rest : IsData c uri (min session.confirmed data.size) data x)
    (askedAgain : again.isSome ↔ ¬∃ tag, Answer.Tagged x.result tag)
    (queryAgain : ∀ y ∈ again, IsQuery uri data.size y)
    (deleted : d.isSome ↔ ∃ tag, Answer.Tagged x.result tag ∧ digestOf tag ≠ Digest.md5Hex data)
    (delete : ∀ y ∈ d, IsDelete target y) :
    Conforms (Answer.Misread data.size) c u.stalePolicy u.tracker u.headers target data held
      ⟨q, p, some x, again, d⟩ := by
  refine Opening.conforms ho ht (by simp) ?_ (by simpa using askedAgain) ?_ ?_ delete
  · rintro _ ⟨⟩ _ hu
    cases huri.symm.trans hu
    exact rest
  · intro y hy _ hu
    cases huri.symm.trans hu
    exact queryAgain y hy
  · simpa using deleted

theorem Goes.conforms (hc : u.connection = c.observed) {target : Uri}
    (hk : objectTarget u.key = .ok target) (hh : Headers.has u.headers "content-length" = false)
    {data : ByteArray} {I : Files.Store → Prop} (steady : u.source.Steady data I)
    (kept : u.Keeps fun _ f => I f) (apart : c.Keeps fun _ f => I f) (ht : u.total = data.size)
    (hm : u.md5 = Digest.md5Hex data) {s t : State (Observed σ)} {result : Except Error Output}
    (h : u.Goes s result t) (hi : I s.world.files) :
    ∃ r : Round σ, t.world.peer.seen = s.world.peer.seen ++ r.exchanges ∧
      Conforms (Answer.Misread data.size) c u.stalePolicy u.tracker u.headers target data
        s.session.uri r := by
  have hb : I (u.begun s).world.files := kept.wait s.world hi
  have hseen : (u.begun s).world.peer.seen = s.world.peer.seen := by
    rw [begun, hc, c.seen_wait]
  cases h with
  | unreadable size =>
    rw [steady.size _ hb] at size
    cases size
  | resized size differs =>
    rw [steady.size _ hb, ← ht] at size
    cases size
    exact absurd rfl differs
  | unresumed size resumed =>
    obtain ⟨q, p, hqp, ho⟩ := Resumes.seen hc hk hh resumed
    refine ⟨⟨q, p, none, none, none⟩, by simp [Round.exchanges, hqp, hseen], ?_⟩
    exact Opening.conforms ho ht (by simp) (by simp) (by simp) (by simp) (by simp) (by simp)
  | complete size resumed finished =>
    obtain ⟨q, p, hqp, ho⟩ := Resumes.seen hc hk hh resumed
    obtain ⟨d, hds, hd, hdelete⟩ := Finishes.seen hc hk finished
    refine ⟨⟨q, p, none, none, d⟩, by simp [Round.exchanges, hds, State.startAt, hqp, hseen], ?_⟩
    refine Opening.conforms ho ht (by simp) (by simp) (by simp) (by simp) ?_ hdelete
    rw [hd, hm]
    simp
  | @unsent uri e t t' size resumed held sent =>
    obtain ⟨q, p, hqp, ho⟩ := Resumes.seen hc hk hh resumed
    have hr := kept.resumes resumed hb
    obtain ⟨x, again, hxs, hx, htag, hagain, hquery⟩ := Sends.seen hc steady apart ht sent hr
    rw [offset, ht] at hx
    refine ⟨⟨q, p, some x, again, none⟩,
      by simp [Round.exchanges, hxs, State.startAt, hqp, hseen], ?_⟩
    refine Opening.conforms_sent ho ht held hx hagain hquery ?_ (by simp)
    have hno : ∀ tag, ¬Answer.Tagged x.result tag := by
      intro tag htagged
      cases (htag tag).2 htagged
    simp [hno]
  | @sent uri eTag t t' t'' result size resumed held sent finished =>
    obtain ⟨q, p, hqp, ho⟩ := Resumes.seen hc hk hh resumed
    have hr := kept.resumes resumed hb
    obtain ⟨x, again, hxs, hx, htag, hagain, hquery⟩ := Sends.seen hc steady apart ht sent hr
    obtain ⟨d, hds, hd, hdelete⟩ := Finishes.seen hc hk finished
    rw [offset, ht] at hx
    refine ⟨⟨q, p, some x, again, d⟩,
      by simp [Round.exchanges, hds, hxs, State.startAt, hqp, hseen], ?_⟩
    refine Opening.conforms_sent ho ht held hx hagain hquery ?_ hdelete
    rw [hd, hm]
    constructor
    · intro hne
      exact ⟨eTag, (htag eTag).1 rfl, hne⟩
    · rintro ⟨tag, htagged, hne⟩
      cases (htag tag).2 htagged
      exact hne

end Job

/-- The source is `data` all the time: neither whoever is at work while requests are made nor the
work on the tracker file changes it. -/
structure Unchanging (c : Connection σ) (tracker : Option TrackerFile) (source : InputSource)
    (data : ByteArray) (I : Files.Store → Prop) : Prop where
  steady : source.Steady data I
  apart : c.Keeps fun _ f => I f
  save : ∀ t token f g, tracker = some t → t.save token f = .ok g → I f → I g
  remove : ∀ t f, tracker = some t → I f → I (t.remove f)

theorem Unchanging.keeps {c : Connection σ} {data : ByteArray} {I : Files.Store → Prop}
    {u : Job (Observed σ)} (hu : Unchanging c u.tracker u.source data I)
    (hc : u.connection = c.observed) : u.Keeps (fun _ f => I f) ∧ u.KeptByDelete fun _ f => I f := by
  have k : u.connection.Keeps fun _ f => I f := hc ▸ hu.apart.observed
  exact ⟨{ wait := fun _ h => k.wait h
           start := fun _ request _ h => k.exchange request h
           query := fun _ _ h => k.exchange _ h
           send := fun _ _ _ reader _ h => k.send _ _ reader h
           save := fun t token _ f g => hu.save t token f g
           remove := fun t _ f => hu.remove t f },
    fun _ request _ h => k.exchange request h⟩

/-- Whatever the store answers, whatever the tracker file held, and however stale sessions are treated:
the requests of every attempt of a call are those of the protocol, where a range that is no text, or one
that ends at the largest offset, counts as one that was not named; they are those to the letter exactly
when no query was answered so. -/
theorem requests_conform {c : Connection σ} {h : Handler} {buffer : Nat} {task : Handler.Task}
    {w : World (Observed σ)} {target : Uri} {data : ByteArray} {I : Files.Store → Prop}
    (key : objectTarget task.key = .ok target)
    (headers : Headers.has task.headers "content-length" = false)
    (unchanging : Unchanging c h.tracker task.source data I) (found : I w.files)
    {u : Job (Observed σ)} {s : State (Observed σ)} (begun : h.Begins c.observed buffer task w u s) :
    ∃ r : Round σ, (u.attempt s).2.world.peer.seen = s.world.peer.seen ++ r.exchanges ∧
      Conforms (Answer.Misread data.size) c h.stalePolicy h.tracker task.headers target data
        s.session.uri r ∧
      (Conforms (fun _ => False) c h.stalePolicy h.tracker task.headers target data s.session.uri r ↔
        ∀ x ∈ r.asked, ¬Answer.Misread data.size x.result) := by
  have k := Unchanging.keeps (u := h.job c.observed buffer task data.size (Digest.md5Hex data))
    unchanging rfl
  -- All attempts have the same job, and begin with files among which the source is as it was.
  have first : ∀ u s, h.Opens c.observed buffer task w u s →
      u = h.job c.observed buffer task data.size (Digest.md5Hex data) ∧ I s.world.files := by
    rintro _ _ ⟨inspected⟩
    obtain ⟨hr, hv⟩ := Handler.inspects_steady unchanging.steady
      (Job.in_wait unchanging.apart.observed) (fun _ _ h => h) inspected found
    cases hr
    exact ⟨rfl, hv⟩
  have next : ∀ u s t e,
      (u = h.job c.observed buffer task data.size (Digest.md5Hex data) ∧ I s.world.files) →
      u.attempt s = (.error e, t) → e.isRetryable →
      (u = h.job c.observed buffer task data.size (Digest.md5Hex data) ∧ I t.world.files) := by
    rintro u s t e ⟨hu, hi⟩ hattempt -
    refine ⟨hu, ?_⟩
    subst hu
    exact k.1.goes k.2 (Job.goes hattempt) hi
  obtain ⟨rfl, hi⟩ := begun.invariant first next
  rcases hattempt : (h.job c.observed buffer task data.size (Digest.md5Hex data)).attempt s with
    ⟨result, t⟩
  obtain ⟨r, hseen, hr⟩ := Job.Goes.conforms
    (u := h.job c.observed buffer task data.size (Digest.md5Hex data)) rfl key headers
    unchanging.steady k.1 unchanging.apart rfl rfl (Job.goes hattempt) hi
  exact ⟨r, hseen, hr, hr.to_the_letter⟩

/-- A store that answers every query with a range that is no text, and gives up on everything
else. -/
def mumbling : Connection Unit where
  arrive _ p f := (p, f)
  wants _ _ _ := true
  answer request _ p f :=
    if Headers.text? request.headers "content-length" = some "0" then
      (.ok ⟨⟨308⟩, [("range", .raw ⟨#[255]⟩)], .empty⟩, p, f)
    else (.error (.transport (.given "gone")), p, f)

def threeBytes : Handler.Task := ⟨⟨"http://h", "b", "k"⟩, .bytes ⟨#[1, 2, 3]⟩, [], none⟩

def tracking : Handler := ⟨some ⟨"t"⟩, 0, .restart, .none⟩

def trackedFiles : Files.Store :=
  ⟨[(["t"], .file 0)], [(0, .ofBytes "http://h/b/k?upload_id=1".toUTF8)], 1⟩

/-- The job of the call, and the state in which its first attempt begins. -/
def mumbledJob : Job (Observed Unit) :=
  tracking.job mumbling.observed 8 threeBytes 3 (Digest.md5Hex ⟨#[1, 2, 3]⟩)

def mumbledState : State (Observed Unit) :=
  ⟨tracking.loadTracker trackedFiles,
    { World.initial ⟨(), []⟩ trackedFiles with metrics := Metrics.zero.initiate }⟩

theorem mumbled_begins : tracking.Begins mumbling.observed 8 threeBytes
    (.initial ⟨(), []⟩ trackedFiles) mumbledJob mumbledState :=
  .intro (.intro (Handler.inspects_bytes _ _ _ _ _ _)) .start

theorem unchanging_bytes {c : Connection σ} {tracker : Option TrackerFile} (data : ByteArray) :
    Unchanging c tracker (.bytes data) data fun _ => True where
  steady := InputSource.steady_bytes data _
  apart := ⟨fun _ _ _ _ => trivial, fun _ _ _ _ _ => trivial, fun _ _ _ => trivial⟩
  save _ _ _ _ _ _ _ := trivial
  remove _ _ _ _ := trivial

theorem mumbled_requests_conform :
    ∃ r : Round Unit, (mumbledJob.attempt mumbledState).2.world.peer.seen =
        mumbledState.world.peer.seen ++ r.exchanges ∧
      Conforms (Answer.Misread 3) mumbling .restart (some ⟨"t"⟩) []
        ⟨some "http", some "h", "/b/k", none⟩ ⟨#[1, 2, 3]⟩ mumbledState.session.uri r ∧
      (Conforms (fun _ => False) mumbling .restart (some ⟨"t"⟩) []
        ⟨some "http", some "h", "/b/k", none⟩ ⟨#[1, 2, 3]⟩ mumbledState.session.uri r ↔
        ∀ x ∈ r.asked, ¬Answer.Misread 3 x.result) := by
  have unchanging : Unchanging mumbling tracking.tracker threeBytes.source ⟨#[1, 2, 3]⟩ fun _ => True :=
    unchanging_bytes _
  exact requests_conform (by decide) (by decide) unchanging trivial mumbled_begins

/-- The letter of the protocol asks for a new session here; the data goes to the old one. -/
theorem mumbled_requests_stray :
    tracking.Begins mumbling.observed 8 threeBytes (.initial ⟨(), []⟩ trackedFiles) mumbledJob
      mumbledState ∧
    ¬∃ r : Round Unit, (mumbledJob.attempt mumbledState).2.world.peer.seen =
        mumbledState.world.peer.seen ++ r.exchanges ∧
      Conforms (fun _ => False) mumbling .restart (some ⟨"t"⟩) []
        ⟨some "http", some "h", "/b/k", none⟩ ⟨#[1, 2, 3]⟩ mumbledState.session.uri r := by
  have hrun : (mumbledJob.attempt mumbledState).2.world.peer.seen.map
      (fun x => (x.request.method, decide (Answer.Hidden x.result))) =
      [(.put, true), (.put, false), (.put, true)] := by decide +kernel
  refine ⟨mumbled_begins, ?_⟩
  rintro ⟨r, hseen, hr⟩
  rw [hseen] at hrun
  obtain ⟨x, hx⟩ : ∃ x, r.asked = some x := Option.isSome_iff_exists.1 (hr.asked.2 (by decide))
  have hstart : Answer.Hidden x.result → ∃ y, r.started = some y := fun hidden =>
    Option.isSome_iff_exists.1 (hr.started.2 (.inr ⟨x, hx, restarts_of_hidden hidden, id⟩))
  have hall : (mumbledState.world.peer.seen ++ r.exchanges) = x :: (r.started.toList ++
      r.sent.toList ++ r.askedAgain.toList ++ r.deleted.toList) := by
    simp [mumbledState, World.initial, Round.exchanges, hx]
  rw [hall] at hrun
  simp only [List.map_cons, List.cons.injEq, Prod.mk.injEq, decide_eq_true_eq] at hrun
  obtain ⟨⟨-, hidden⟩, hrun⟩ := hrun
  obtain ⟨y, hy⟩ := hstart hidden
  have hpost : y.request.method = .post := (hr.start y hy).1
  simp [hy, hpost] at hrun

end ObjectTransfer.Upload
