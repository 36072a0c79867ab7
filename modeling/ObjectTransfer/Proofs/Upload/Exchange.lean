import Mathlib.Tactic.Common
import ObjectTransfer.Proofs.Http.Grammar
import ObjectTransfer.Proofs.Upload.Course
/-!
What answers to the requests of an upload mean, said of statuses and header fields. An answer is a
response, or the failure to get one.
-/
namespace ObjectTransfer.Upload
open Http

abbrev Answer := Except Error Response

namespace Answer

/-- The object is stored, and has this entity tag. -/
def Tagged (a : Answer) (eTag : String) : Prop :=
  ∃ r, a = .ok r ∧ (r.status.code = 200 ∨ r.status.code = 201) ∧
    Headers.text? r.headers "etag" = some eTag

/-- The range of a response reads `bytes=a-b`, and the store holds the bytes up to the last offset. -/
def Holding (r : Response) (n : Nat) : Prop :=
  ∃ text start stop, Headers.text? r.headers "range" = some text ∧
    ByteRange.parse text = .ok (.inclusive start stop) ∧ n = stop + 1

theorem Holding.le {r : Response} {n : Nat} (h : Holding r n) : n ≤ Text.Unsigned.limit := by
  obtain ⟨text, start, stop, -, read, rfl⟩ := h
  exact (ByteRange.sound_of_parse read).right stop rfl

theorem Holding.unique {r : Response} {n m : Nat} (h : Holding r n) (h' : Holding r m) : n = m := by
  obtain ⟨text, start, stop, found, read, rfl⟩ := h
  obtain ⟨text', start', stop', found', read', rfl⟩ := h'
  cases found.symm.trans found'
  cases read.symm.trans read'
  rfl

/-- A query was answered with what the store holds: nothing where no range is named. -/
def Confirms (a : Answer) (n : Nat) : Prop :=
  ∃ r, a = .ok r ∧ r.status.code = 308 ∧
    (Headers.has r.headers "range" = false ∧ n = 0 ∨ Holding r n)

def Hidden (a : Answer) : Prop :=
  ∃ r, a = .ok r ∧ r.status.code = 308 ∧ Headers.has r.headers "range" = true ∧
    Headers.text? r.headers "range" = none

instance : (a : Answer) → Decidable (Hidden a)
  | .error _ => isFalse fun ⟨_, got, _⟩ => nomatch got
  | .ok r =>
    if h : r.status.code = 308 ∧ Headers.has r.headers "range" = true ∧
        Headers.text? r.headers "range" = none then
      isTrue ⟨r, rfl, h⟩
    else
      isFalse fun ⟨_, got, hidden⟩ => by
        cases got
        exact h hidden

/-- A query was answered with more bytes than a word can count, which is one more than the largest
offset. -/
def Overruns (a : Answer) : Prop := Confirms a Text.Unsigned.limit

/-- A query about an object of `total` bytes was answered with something else than what is understood:
no text, which is taken for nothing named, or a count that starts again from nothing. The latter makes
no difference for an object without bytes. -/
def Misread (total : Nat) (a : Answer) : Prop := Hidden a ∨ Overruns a ∧ total ≠ 0

/-- A query was answered in a way after which a new session has to be started. -/
def Restarts (policy : StalePolicy) (a : Answer) : Prop :=
  (∃ r, a = .ok r ∧ ¬(r.status.code = 200 ∨ r.status.code = 201 ∨ r.status.code = 308) ∧
    ¬((r.status.code = 401 ∨ r.status.code = 403) ∧ policy = .abortOnAuthFailure)) ∨
  (∃ r, a = .ok r ∧ r.status.code = 308 ∧ Headers.has r.headers "range" = true ∧
    ¬∃ n, Holding r n) ∨
  ∃ e, a = .error e ∧ e.disposition = some .startOver

def Grants (a : Answer) (uri : SessionUri) : Prop :=
  ∃ r location, a = .ok r ∧ (r.status.code = 200 ∨ r.status.code = 201) ∧
    Headers.text? r.headers "location" = some location ∧ SessionUri.parse location = .ok uri

end Answer

theorem text?_eq_none_of_not_has {h : Headers} {name : String} (hn : Headers.has h name = false) :
    Headers.text? h name = none := by
  have hl : h.lookup name = none := by
    rw [List.lookup_eq_none_iff]
    intro field hf
    have := List.any_eq_false.1 hn field hf
    simpa [BEq.comm] using this
  rw [Headers.text?, hl]
  rfl

theorem has_of_text? {h : Headers} {name text : String} (ht : Headers.text? h name = some text) :
    Headers.has h name = true := by
  cases hn : Headers.has h name with
  | true => rfl
  | false =>
    rw [text?_eq_none_of_not_has hn] at ht
    cases ht

theorem stateOf_complete {r : Response} (h : r.status.code = 200 ∨ r.status.code = 201) :
    stateOf r = .ok (.complete (Headers.text? r.headers "etag")) := by
  unfold stateOf
  rcases h with h | h
  · simp only [h]
  · simp only [h]

theorem stateOf_rejected {r : Response}
    (h : ¬(r.status.code = 200 ∨ r.status.code = 201 ∨ r.status.code = 308)) :
    stateOf r = .ok (.rejected r.status) := by
  simp only [not_or] at h
  unfold stateOf
  split
  · rename_i hc
    exact absurd hc h.1
  · rename_i hc
    exact absurd hc h.2.1
  · rename_i hc
    exact absurd hc h.2.2
  · rfl

theorem stateOf_unnamed {r : Response} (h : r.status.code = 308)
    (hr : Headers.text? r.headers "range" = none) : stateOf r = .ok (.incomplete 0) := by
  unfold stateOf
  rw [h]
  simp only [hr]

theorem stateOf_holding {r : Response} {n : Nat} (h : r.status.code = 308)
    (hr : Answer.Holding r n) : stateOf r = .ok (.incomplete (n % Text.Unsigned.limit)) := by
  obtain ⟨text, start, stop, ht, hp, rfl⟩ := hr
  unfold stateOf
  rw [h]
  simp only [ht, hp]

theorem stateOf_unreadable {r : Response} {text : String} (h : r.status.code = 308)
    (ht : Headers.text? r.headers "range" = some text) (hn : ¬∃ n, Answer.Holding r n) :
    stateOf r = .error (.resumable .startOver (.unreadableState text)) := by
  unfold stateOf
  rw [h]
  simp only [ht]
  split
  · rename_i start stop hp
    exact absurd ⟨_, text, start, stop, ht, hp, rfl⟩ hn
  · rfl

theorem startedSession_unnamed {r : Response} (h : r.status.code = 200 ∨ r.status.code = 201)
    (hl : Headers.text? r.headers "location" = none) :
    startedSession r = .error (.resumable .waitBeforeRetry .noSessionUri) := by
  unfold startedSession
  rcases h with h | h
  · simp only [h, hl]
  · simp only [h, hl]

theorem startedSession_named {r : Response} {location : String}
    (h : r.status.code = 200 ∨ r.status.code = 201)
    (hl : Headers.text? r.headers "location" = some location) :
    startedSession r = (SessionUri.parse location).mapError fun e =>
      .resumable .abort (.unusableSessionUri e.message) := by
  unfold startedSession
  cases hp : SessionUri.parse location with
  | ok uri =>
    rcases h with h | h
    · simp only [h, hl, hp, Except.mapError]
    · simp only [h, hl, hp, Except.mapError]
  | error e =>
    rcases h with h | h
    · simp only [h, hl, hp, Except.mapError]
    · simp only [h, hl, hp, Except.mapError]

theorem startedSession_refused {r : Response} (h : ¬(r.status.code = 200 ∨ r.status.code = 201))
    (uri : SessionUri) : startedSession r ≠ .ok uri := by
  unfold startedSession
  split
  · nofun
  · nofun
  · rename_i hc
    exact absurd (.inl hc) h
  · rename_i hc
    exact absurd (.inr hc) h
  · nofun

theorem storedTag_untagged {r : Response} (h : r.status.code = 200 ∨ r.status.code = 201)
    (ht : Headers.text? r.headers "etag" = none) :
    storedTag r = .error (.resumable .abort .finishedWithoutETag) := by
  unfold storedTag
  rcases h with h | h
  · simp only [h, ht]
  · simp only [h, ht]

theorem storedTag_tagged {r : Response} {eTag : String}
    (h : r.status.code = 200 ∨ r.status.code = 201)
    (ht : Headers.text? r.headers "etag" = some eTag) : storedTag r = .ok eTag := by
  unfold storedTag
  rcases h with h | h
  · simp only [h, ht]
  · simp only [h, ht]

theorem storedTag_refused {r : Response} (h : ¬(r.status.code = 200 ∨ r.status.code = 201))
    (eTag : String) : storedTag r ≠ .ok eTag := by
  unfold storedTag
  split
  · rename_i hc
    exact absurd (.inl hc) h
  · rename_i hc
    exact absurd (.inr hc) h
  · nofun
  · nofun
  · nofun
  · nofun

inductive Reads (a : Answer) : Except Error SessionState → Prop
  | complete {r : Response} {eTag : Option String} (got : a = .ok r)
      (code : r.status.code = 200 ∨ r.status.code = 201)
      (tag : Headers.text? r.headers "etag" = eTag) : Reads a (.ok (.complete eTag))
  | unnamed {r : Response} (got : a = .ok r) (code : r.status.code = 308)
      (range : Headers.has r.headers "range" = false) : Reads a (.ok (.incomplete 0))
  | hidden {r : Response} (got : a = .ok r) (code : r.status.code = 308)
      (range : Headers.has r.headers "range" = true)
      (raw : Headers.text? r.headers "range" = none) : Reads a (.ok (.incomplete 0))
  | holding {r : Response} {n : Nat} (got : a = .ok r) (code : r.status.code = 308)
      (range : Answer.Holding r n) : Reads a (.ok (.incomplete (n % Text.Unsigned.limit)))
  | unreadable {r : Response} {text : String} (got : a = .ok r) (code : r.status.code = 308)
      (range : Headers.text? r.headers "range" = some text) (none : ¬∃ n, Answer.Holding r n) :
      Reads a (.error (.resumable .startOver (.unreadableState text)))
  | rejected {r : Response} {status : Status} (got : a = .ok r) (refused : r.status = status)
      (code : ¬(r.status.code = 200 ∨ r.status.code = 201 ∨ r.status.code = 308)) :
      Reads a (.ok (.rejected status))
  | failed {e : Error} (got : a = .error e) : Reads a (.error e)

theorem reads (a : Answer) : Reads a (a.bind stateOf) := by
  cases a with
  | error e => exact .failed rfl
  | ok r =>
    change Reads (.ok r) (stateOf r)
    by_cases hc : r.status.code = 200 ∨ r.status.code = 201
    · rw [stateOf_complete hc]
      exact .complete rfl hc rfl
    by_cases h308 : r.status.code = 308
    · cases ht : Headers.text? r.headers "range" with
      | none =>
        rw [stateOf_unnamed h308 ht]
        cases hh : Headers.has r.headers "range" with
        | false => exact .unnamed rfl h308 hh
        | true => exact .hidden rfl h308 hh ht
      | some text =>
        by_cases hn : ∃ n, Answer.Holding r n
        · obtain ⟨n, hn⟩ := hn
          rw [stateOf_holding h308 hn]
          exact .holding rfl h308 hn
        · rw [stateOf_unreadable h308 ht hn]
          exact .unreadable rfl h308 ht hn
    · have hrej : ¬(r.status.code = 200 ∨ r.status.code = 201 ∨ r.status.code = 308) := by
        rintro (h | h | h)
        · exact hc (.inl h)
        · exact hc (.inr h)
        · exact h308 h
      rw [stateOf_rejected hrej]
      exact .rejected rfl rfl hrej

namespace Answer
variable {a : Answer}

theorem tagged_iff {eTag : String} :
    a.Tagged eTag ↔ a.bind stateOf = .ok (.complete (some eTag)) := by
  constructor
  · rintro ⟨r, rfl, hc, ht⟩
    change stateOf r = _
    rw [stateOf_complete hc, ht]
  · intro h
    have hr := reads a
    rw [h] at hr
    cases hr with
    | complete got code tag => exact ⟨_, got, code, tag⟩

theorem incomplete_iff {n : Nat} :
    (∃ m, a.Confirms m ∧ n = m % Text.Unsigned.limit) ∨ a.Hidden ∧ n = 0 ↔
      a.bind stateOf = .ok (.incomplete n) := by
  constructor
  · rintro (⟨m, ⟨r, rfl, hc, ⟨hno, rfl⟩ | hm⟩, rfl⟩ | ⟨⟨r, rfl, hc, -, ht⟩, rfl⟩)
    · exact stateOf_unnamed hc (text?_eq_none_of_not_has hno)
    · exact stateOf_holding hc hm
    · exact stateOf_unnamed hc ht
  · intro h
    have hr := reads a
    rw [h] at hr
    cases hr with
    | unnamed got code range => exact .inl ⟨0, ⟨_, got, code, .inl ⟨range, rfl⟩⟩, rfl⟩
    | hidden got code range raw => exact .inr ⟨⟨_, got, code, range, raw⟩, rfl⟩
    | holding got code range => exact .inl ⟨_, ⟨_, got, code, .inr range⟩, rfl⟩

theorem Confirms.le {n : Nat} (h : a.Confirms n) : n ≤ Text.Unsigned.limit := by
  obtain ⟨r, -, -, ⟨-, rfl⟩ | holding⟩ := h
  · exact Nat.zero_le _
  · exact holding.le

theorem Confirms.unique {n m : Nat} (h : a.Confirms n) (h' : a.Confirms m) : n = m := by
  obtain ⟨r, rfl, -, unnamed | holding⟩ := h
  all_goals obtain ⟨r', ⟨⟩, -, unnamed' | holding'⟩ := h'
  · rw [unnamed.2, unnamed'.2]
  · obtain ⟨text, start, stop, found, -⟩ := holding'
    cases unnamed.1.symm.trans (has_of_text? found)
  · obtain ⟨text, start, stop, found, -⟩ := holding
    cases unnamed'.1.symm.trans (has_of_text? found)
  · exact holding.unique holding'

/-- A count that a word can hold is understood as it was named. -/
theorem Confirms.incomplete {n : Nat} (h : a.Confirms n) (counted : ¬a.Overruns) :
    a.bind stateOf = .ok (.incomplete n) := by
  have small : n < Text.Unsigned.limit := by
    rcases Nat.lt_or_eq_of_le h.le with small | rfl
    · exact small
    · exact absurd h counted
  exact incomplete_iff.1 (.inl ⟨n, h, (Nat.mod_eq_of_lt small).symm⟩)

theorem Overruns.incomplete (h : a.Overruns) : a.bind stateOf = .ok (.incomplete 0) :=
  incomplete_iff.1 (.inl ⟨_, h, (Nat.mod_self _).symm⟩)

theorem Hidden.incomplete (h : a.Hidden) : a.bind stateOf = .ok (.incomplete 0) :=
  incomplete_iff.1 (.inr ⟨h, rfl⟩)

theorem Misread.incomplete {total : Nat} (h : a.Misread total) :
    a.bind stateOf = .ok (.incomplete 0) := by
  rcases h with hidden | ⟨overruns, -⟩
  · exact hidden.incomplete
  · exact overruns.incomplete

/-- Where an answer is not misread, an object is gone on with at the offset that it names. -/
theorem Confirms.understood {n total : Nat} (h : a.Confirms n) (clear : ¬a.Misread total) :
    ∃ m, a.bind stateOf = .ok (.incomplete m) ∧ min m total = min n total := by
  by_cases overruns : a.Overruns
  · have empty : total = 0 := by
      by_contra filled
      exact clear (.inr ⟨overruns, filled⟩)
    exact ⟨0, overruns.incomplete, by simp [empty]⟩
  · exact ⟨n, h.incomplete overruns, rfl⟩

/-- What an answer allows to go on with: what it names, or nothing where it is misread. -/
theorem incomplete_of_allowed {n total : Nat}
    (h : a.Confirms n ∧ ¬a.Misread total ∨ a.Misread total ∧ n = 0) :
    ∃ m, a.bind stateOf = .ok (.incomplete m) ∧ min m total = min n total := by
  rcases h with ⟨confirms, clear⟩ | ⟨misread, rfl⟩
  · exact confirms.understood clear
  · exact ⟨0, misread.incomplete, rfl⟩

theorem allowed_of_incomplete {n : Nat} (total : Nat) (h : a.bind stateOf = .ok (.incomplete n)) :
    ∃ m, a.Confirms m ∧ ¬a.Misread total ∨ a.Misread total ∧ m = 0 := by
  by_cases misread : a.Misread total
  · exact ⟨0, .inr ⟨misread, rfl⟩⟩
  · rcases incomplete_iff.2 h with ⟨m, confirms, -⟩ | ⟨hidden, -⟩
    · exact ⟨m, .inl ⟨confirms, misread⟩⟩
    · exact absurd (.inl hidden) misread

theorem stale_iff {policy : StalePolicy} (total : Nat) :
    a.Restarts policy ∧ ¬a.Misread total ↔ Job.Stale policy (a.bind stateOf) := by
  constructor
  · rintro ⟨⟨r, rfl, hc, hauth⟩ | ⟨r, rfl, hc, hhas, hn⟩ | ⟨e, rfl, he⟩, clear⟩
    · change Job.Stale policy (stateOf r)
      rw [stateOf_rejected hc]
      exact .rejected hauth
    · change Job.Stale policy (stateOf r)
      cases ht : Headers.text? r.headers "range" with
      | none => exact absurd (.inl ⟨r, rfl, hc, hhas, ht⟩) clear
      | some text =>
        rw [stateOf_unreadable hc ht hn]
        exact .startOver rfl
    · exact .startOver he
  · intro h
    have clear : ¬a.Misread total := by
      intro misread
      rw [misread.incomplete] at h
      cases h
    refine ⟨?_, clear⟩
    have hr := reads a
    generalize a.bind stateOf = state at h hr
    cases hr with
    | complete got code tag => cases h
    | unnamed got code range => cases h
    | hidden got code range raw => cases h
    | holding got code range => cases h
    | unreadable got code range none =>
      exact .inr (.inl ⟨_, got, code, has_of_text? range, none⟩)
    | rejected got refused code =>
      cases h with
      | rejected auth =>
        subst refused
        exact .inl ⟨_, got, code, auth⟩
    | failed got =>
      cases h with
      | startOver disposition => exact .inr (.inr ⟨_, got, disposition⟩)

theorem grants_iff {uri : SessionUri} : a.Grants uri ↔ a.bind startedSession = .ok uri := by
  constructor
  · rintro ⟨r, location, rfl, hc, hl, hp⟩
    change startedSession r = _
    rw [startedSession_named hc hl, hp]
    rfl
  · intro h
    cases a with
    | error e => cases h
    | ok r =>
      change startedSession r = _ at h
      by_cases hc : r.status.code = 200 ∨ r.status.code = 201
      · cases hl : Headers.text? r.headers "location" with
        | none =>
          rw [startedSession_unnamed hc hl] at h
          cases h
        | some location =>
          rw [startedSession_named hc hl] at h
          cases hp : SessionUri.parse location with
          | error e =>
            rw [hp] at h
            cases h
          | ok found =>
            rw [hp] at h
            cases h
            exact ⟨r, location, rfl, hc, hl, hp⟩
      · exact absurd h (startedSession_refused hc uri)

theorem stored_iff {eTag : String} : a.Tagged eTag ↔ a.bind storedTag = .ok eTag := by
  constructor
  · rintro ⟨r, rfl, hc, ht⟩
    exact storedTag_tagged hc ht
  · intro h
    cases a with
    | error e => cases h
    | ok r =>
      change storedTag r = _ at h
      by_cases hc : r.status.code = 200 ∨ r.status.code = 201
      · cases ht : Headers.text? r.headers "etag" with
        | none =>
          rw [storedTag_untagged hc ht] at h
          cases h
        | some found =>
          rw [storedTag_tagged hc ht] at h
          cases h
          exact ⟨r, rfl, hc, ht⟩
      · exact absurd h (storedTag_refused hc eTag)

end Answer

end ObjectTransfer.Upload
