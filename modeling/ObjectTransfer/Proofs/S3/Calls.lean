import Mathlib.Tactic.Common
import ObjectTransfer.S3.Concurrent
/-!
S3 services under observation. The observer notes every call that is made with what was given for it,
and changes nothing else: with the notes forgotten, every step of a multipart upload does what it does
unobserved.
-/
namespace ObjectTransfer.S3

/-- A call that was made, and what was given for it. -/
structure Called where
  call : Call
  result : Except Failure call.Reply

/-- The part that was stored by a call: its number, its bytes, and its tag if one was given. -/
def Called.stored? : Called → Option (Int × ByteArray × Option String)
  | ⟨.uploadPart _ number data, .ok eTag⟩ => some (number, data, eTag)
  | _ => none

/-- A service, and all calls that were made, oldest first. -/
structure Calls (σ : Type) where
  peer : σ
  log : List Called

variable {σ : Type}

def observed (s : S3 σ) : S3 (Calls σ) where
  call c t :=
    let (result, peer) := s.call c t.peer
    (result, ⟨peer, t.log ++ [⟨c, result⟩]⟩)

def noted (w : World (Calls σ)) (peer : σ) (c : Called) : World (Calls σ) :=
  { w with peer := ⟨peer, w.peer.log ++ [c]⟩ }

@[simp] theorem noted_log (w : World (Calls σ)) (peer : σ) (c : Called) :
    (noted w peer c).peer.log = w.peer.log ++ [c] := rfl

/-- The field of an answer that an operation cannot do without, if it came. -/
def given (field : String) (result : Except Failure (Option String)) : Except Error String :=
  (result.mapError Failure.error).bind (required field)

variable {field eTag : String} {result : Except Failure (Option String)} {e : Error}

theorem given_eq_ok (h : given field result = .ok eTag) : result = .ok (some eTag) := by
  cases result with
  | error failure => cases h
  | ok answer =>
    cases answer with
    | none => cases h
    | some tag =>
      cases h
      rfl

theorem given_eq_error (h : given field result = .error e) :
    (∃ failure, result = .error failure) ∨ result = .ok none ∧ e = .incomplete field := by
  cases result with
  | error failure => exact .inl ⟨failure, rfl⟩
  | ok answer =>
    cases answer with
    | none =>
      cases h
      exact .inr ⟨rfl, rfl⟩
    | some tag => cases h

theorem request_observed (s : S3 σ) (c : Call) (w : World (Calls σ)) :
    ∃ result peer, s.observed.request c w =
      (result.mapError Failure.error, noted w peer ⟨c, result⟩) := ⟨_, _, rfl⟩

theorem initiate_observed (s : S3 σ) {d : Description} (valid : d.validate = .ok ())
    (w : World (Calls σ)) : ∃ result peer, s.observed.initiate d w =
      ((given "the upload ID" result).map fun id => ⟨d.location, id⟩,
        noted w peer ⟨.create d, result⟩) := by
  obtain ⟨result, peer, made⟩ := request_observed s (.create d) w
  refine ⟨result, peer, ?_⟩
  rw [initiate, valid]
  dsimp only
  rw [made]
  cases result with
  | error failure => rfl
  | ok id => cases id <;> rfl

theorem uploadPart_observed (s : S3 σ) {u : Upload} {number : Int} (valid : isPartNumber number = true)
    (data : ByteArray) (w : World (Calls σ)) : ∃ result peer,
      s.observed.uploadPart u number data w =
        ((given "the part ETag" result).map fun eTag => ⟨number, eTag⟩,
          noted w peer ⟨.uploadPart u number data, result⟩) := by
  obtain ⟨result, peer, made⟩ := request_observed s (.uploadPart u number data) w
  refine ⟨result, peer, ?_⟩
  rw [uploadPart, if_neg (by simp [valid])]
  dsimp only
  rw [made]
  cases result with
  | error failure => rfl
  | ok id => cases id <;> rfl

theorem complete_observed (s : S3 σ) {u : Upload} {parts sorted : List UploadedPart}
    (ordered : orderedParts parts = .ok sorted) (w : World (Calls σ)) : ∃ result peer,
      s.observed.complete u parts w =
        ((given "the completed object ETag" result).map fun eTag => ⟨eTag, sorted.length⟩,
          noted w peer ⟨.complete u sorted, result⟩) := by
  obtain ⟨result, peer, made⟩ := request_observed s (.complete u sorted) w
  refine ⟨result, peer, ?_⟩
  rw [complete, ordered]
  dsimp only
  rw [made]
  cases result with
  | error failure => rfl
  | ok id => cases id <;> rfl

theorem abort_observed (s : S3 σ) (u : Upload) (w : World (Calls σ)) : ∃ result peer,
    (s.observed.abort u w).2 = noted w peer ⟨.abort u, result⟩ := by
  obtain ⟨result, peer, made⟩ := request_observed s (.abort u) w
  exact ⟨result, peer, by rw [abort, made]⟩

/-- What one step of the work on a part comes to. -/
inductive Sending.Goes (u : Upload) (t : Sending) (w : World (Calls σ)) :
    (Except Error (UploadedPart × Nat) ⊕ Sending) × World (Calls σ) → Prop
  | unread {e : Error} (fresh : t.data = none) (read : read t.part t.file w.files = .error e) :
      Goes u t w (.inl (.error e), w)
  | reads {data : ByteArray} (fresh : t.data = none)
      (read : read t.part t.file w.files = .ok data) :
      Goes u t w (.inr { t with data := some data }, w)
  | stores {data : ByteArray} {eTag : String} {peer : σ} (ready : t.data = some data) :
      Goes u t w (.inl (.ok (⟨t.part.number, eTag⟩, t.part.length)),
        noted w peer ⟨.uploadPart u t.part.number data, .ok (some eTag)⟩)
  | again {data : ByteArray} {result : Except Failure (Option String)} {e : Error}
      {policy : RetryPolicy} {peer : σ} (ready : t.data = some data)
      (failed : given "the part ETag" result = .error e) (again : t.policy.again? e = some policy) :
      Goes u t w (.inr { t with policy },
        (noted w peer ⟨.uploadPart u t.part.number data, result⟩).pauseAll [.fixed policy.delay])
  | fails {data : ByteArray} {result : Except Failure (Option String)} {e : Error} {peer : σ}
      (ready : t.data = some data) (failed : given "the part ETag" result = .error e)
      (last : t.policy.again? e = none) :
      Goes u t w (.inl (.error e), noted w peer ⟨.uploadPart u t.part.number data, result⟩)

theorem Sending.goes (s : S3 σ) (u : Upload) (t : Sending) (w : World (Calls σ))
    (valid : isPartNumber t.part.number = true) : Goes u t w (t.proceed s.observed u w) := by
  unfold proceed
  split
  · rename_i fresh
    cases outcome : read t.part t.file w.files with
    | error e => exact .unread fresh outcome
    | ok data => exact .reads fresh outcome
  · rename_i data ready
    obtain ⟨result, peer, made⟩ := uploadPart_observed s (u := u) valid data w
    rw [made]
    cases answer : given "the part ETag" result with
    | ok eTag =>
      obtain rfl := given_eq_ok answer
      exact .stores ready
    | error e =>
      dsimp only [Except.map]
      cases more : t.policy.again? e with
      | none => exact .fails ready answer more
      | some policy => exact .again ready answer more

def watched (w : World σ) : World (Calls σ) := ⟨⟨w.peer, []⟩, w.files, w.reports, w.pauses, w.metrics⟩

def unwatched (w : World (Calls σ)) : World σ :=
  ⟨w.peer.peer, w.files, w.reports, w.pauses, w.metrics⟩

@[simp] theorem unwatched_files (w : World (Calls σ)) : (unwatched w).files = w.files := rfl

@[simp] theorem unwatched_watched (w : World σ) : unwatched (watched w) = w := rfl

theorem initiate_unwatched (s : S3 σ) (d : Description) (w : World (Calls σ)) :
    s.initiate d (unwatched w) = (s.observed.initiate d w).map id unwatched := by
  unfold initiate
  cases d.validate with
  | error e => rfl
  | ok valid => rfl

theorem uploadPart_unwatched (s : S3 σ) (u : Upload) (number : Int) (data : ByteArray)
    (w : World (Calls σ)) : s.uploadPart u number data (unwatched w) =
      (s.observed.uploadPart u number data w).map id unwatched := by
  unfold uploadPart
  cases isPartNumber number with
  | false => rfl
  | true => rfl

theorem complete_unwatched (s : S3 σ) (u : Upload) (parts : List UploadedPart)
    (w : World (Calls σ)) :
    s.complete u parts (unwatched w) = (s.observed.complete u parts w).map id unwatched := by
  unfold complete
  cases orderedParts parts with
  | error e => rfl
  | ok sorted => rfl

theorem Sending.proceed_unwatched (s : S3 σ) (u : Upload) (t : Sending) (w : World (Calls σ)) :
    t.proceed s u (unwatched w) = (t.proceed s.observed u w).map id unwatched := by
  obtain ⟨file, part, policy, data⟩ := t
  cases data with
  | none =>
    unfold proceed
    rw [unwatched_files]
    dsimp only
    cases read part file w.files with
    | error e => rfl
    | ok data => rfl
  | some data =>
    have same := uploadPart_unwatched s u part.number data w
    unfold proceed
    dsimp only
    rw [same]
    rcases s.observed.uploadPart u part.number data w with ⟨result, v⟩
    cases result with
    | ok stored => rfl
    | error e =>
      dsimp only [Prod.map, id_eq]
      cases policy.again? e with
      | none => rfl
      | some policy => rfl

end ObjectTransfer.S3
