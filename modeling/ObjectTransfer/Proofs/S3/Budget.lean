import ObjectTransfer.Proofs.Crew.Strokes
import ObjectTransfer.Proofs.Retry.Budget
import ObjectTransfer.Proofs.S3.Calls
/-!
The budget of a part that is uploaded. A part is read once; then every try is one call with the same
bytes, and what is given for it decides whether another try follows. A part that cannot be read is not
tried at all.
-/
namespace ObjectTransfer.S3
open Crew Files
variable {σ : Type}

def called (w : World (Calls σ)) : List Called := w.peer.log

def Called.outcome? : Called → Option (Except Error String)
  | ⟨.uploadPart _ _ _, result⟩ => some (given "the part ETag" result)
  | _ => none

def tries (strokes : List (Stroke (World (Calls σ)) FilePart)) : List (Except Error String) :=
  (added called strokes).filterMap Called.outcome?

def FilePart.Sends (part : FilePart) (u : Upload) (data : ByteArray)
    (strokes : List (Stroke (World (Calls σ)) FilePart)) : Prop :=
  ∀ c ∈ added called strokes, c.call = .uploadPart u part.number data

def FilePart.Unread (part : FilePart) (result : Except Error (UploadedPart × Nat)) : Prop :=
  ∃ file files e, Sending.read part file files = .error e ∧ result = .error e

structure FilePart.Keeps (part : FilePart) (u : Upload) (r : ChunkRetry) (accepts : Error → Bool)
    (strokes : List (Stroke (World (Calls σ)) FilePart))
    (x : Except Error (UploadedPart × Nat) ⊕ Sending) : Prop where
  calls : ∃ data, part.Sends u data strokes
  /-- What came of the last try came of the part. -/
  finished : ∀ result, x = .inl result →
    part.Unread result ∧ added called strokes = [] ∧ added World.paused strokes = [] ∨
    r.Spent accepts (tries strokes) (added World.paused strokes) ∧
      ∃ o, (tries strokes).getLast? = some o ∧
        result = o.map fun eTag => (⟨part.number, eTag⟩, part.length)
  unfinished : ∀ t, x = .inr t → strokes.length ≤ r.tries ∧
    r.Spending accepts (tries strokes) (added World.paused strokes)

variable {s : S3 σ} {u : Upload} {p : Plan} {part : FilePart} {t : Sending} {r : ChunkRetry}
  {accepts : Error → Bool} {w w' : World (Calls σ)} {data : ByteArray} {file : Entry}
  {strokes : List (Stroke (World (Calls σ)) FilePart)}
  {x : Except Error (UploadedPart × Nat) ⊕ Sending}

theorem tries_snoc {number : Int} {result : Except Failure (Option String)}
    (strokes : List (Stroke (World (Calls σ)) FilePart)) (part : FilePart)
    (log : called w' = called w ++ [⟨.uploadPart u number data, result⟩]) :
    tries (strokes ++ [⟨part, w, w'⟩]) = tries strokes ++ [given "the part ETag" result] := by
  rw [tries, tries, added_snoc strokes part log, List.filterMap_append]
  rfl

namespace FilePart

theorem Sends.snoc {result : Except Failure (Option String)} (sends : part.Sends u data strokes)
    (log : called w' = called w ++ [⟨.uploadPart u part.number data, result⟩]) :
    part.Sends u data (strokes ++ [⟨part, w, w'⟩]) := by
  intro c hc
  rw [added_snoc strokes part log] at hc
  rcases List.mem_append.1 hc with hc | hc
  · exact sends c hc
  · rw [List.mem_singleton.1 hc]

inductive Stands (part : FilePart) (u : Upload) (r : ChunkRetry) (accepts : Error → Bool)
    (file : Entry) (strokes : List (Stroke (World (Calls σ)) FilePart)) :
    Except Error (UploadedPart × Nat) ⊕ Sending → Prop
  | begun (none : strokes = []) : Stands part u r accepts file strokes
      (.inr ⟨file, part, r.policy accepts, Option.none⟩)
  | ready {policy : RetryPolicy} {data : ByteArray} (sends : part.Sends u data strokes)
      (remains : policy.Remains r accepts (tries strokes) (added World.paused strokes))
      (brief : strokes.length ≤ (tries strokes).length + 1) :
      Stands part u r accepts file strokes (.inr ⟨file, part, policy, some data⟩)
  | unread {result : Except Error (UploadedPart × Nat)} (unread : part.Unread result)
      (uncalled : added called strokes = []) (unpaused : added World.paused strokes = []) :
      Stands part u r accepts file strokes (.inl result)
  | ended {data : ByteArray} {earlier : List (Except Error String)} {o : Except Error String}
      {result : Except Error (UploadedPart × Nat)} (sends : part.Sends u data strokes)
      (tries : tries strokes = earlier ++ [o])
      (spent : r.Spent accepts (S3.tries strokes) (added World.paused strokes))
      (same : result = o.map fun eTag => (⟨part.number, eTag⟩, part.length)) :
      Stands part u r accepts file strokes (.inl result)

theorem Stands.keeps (stands : part.Stands u r accepts file strokes x) :
    part.Keeps u r accepts strokes x := by
  cases stands with
  | begun none =>
    subst none
    have remains := RetryPolicy.remains_policy (α := String) r accepts
    exact ⟨⟨.empty, fun _ h => (by cases h)⟩, fun _ h => (by cases h),
      fun _ _ => ⟨Nat.zero_le _, remains.spending⟩⟩
  | ready sends remains brief =>
    have within := remains.spending.length_lt
    exact ⟨⟨_, sends⟩, fun _ h => (by cases h), fun _ _ => ⟨by omega, remains.spending⟩⟩
  | unread unread uncalled unpaused =>
    refine ⟨⟨.empty, fun c hc => ?_⟩, fun result ends => ?_, fun _ h => (by cases h)⟩
    · rw [uncalled] at hc
      cases hc
    · cases ends
      exact .inl ⟨unread, uncalled, unpaused⟩
  | ended sends tries spent same =>
    refine ⟨⟨_, sends⟩, fun result ends => ?_, fun _ h => (by cases h)⟩
    cases ends
    exact .inr ⟨spent, _, by rw [tries, List.getLast?_concat], same⟩

theorem Stands.goes (stands : part.Stands u r accepts file strokes (.inr t))
    {step : (Except Error (UploadedPart × Nat) ⊕ Sending) × World (Calls σ)} (goes : t.Goes u w step) :
    part.Stands u r accepts file (strokes ++ [⟨part, w, step.2⟩]) step.1 := by
  have quiet (v : World (Calls σ)) : called v = called v ++ [] ∧ v.paused = v.paused ++ [] :=
    ⟨(List.append_nil _).symm, (List.append_nil _).symm⟩
  cases stands with
  | begun none =>
    subst none
    cases goes with
    | unread fresh read =>
      exact .unread ⟨_, _, _, read, rfl⟩ (added_snoc [] part (quiet w).1)
        (added_snoc [] part (quiet w).2)
    | reads fresh read =>
      have uncalled : added called [(⟨part, w, w⟩ : Stroke (World (Calls σ)) FilePart)] = [] :=
        added_snoc [] part (quiet w).1
      have unpaused : added World.paused [(⟨part, w, w⟩ : Stroke (World (Calls σ)) FilePart)] = [] :=
        added_snoc [] part (quiet w).2
      have untried : tries [(⟨part, w, w⟩ : Stroke (World (Calls σ)) FilePart)] = [] := by
        rw [tries, uncalled]
        rfl
      refine .ready (fun c hc => ?_) ?_ ?_
      · rw [List.nil_append, uncalled] at hc
        cases hc
      · rw [List.nil_append, untried, unpaused]
        exact RetryPolicy.remains_policy r accepts
      · exact Nat.le_add_left _ _
    | stores ready => cases ready
    | again ready failed again => cases ready
    | fails ready failed last => cases ready
  | ready sends remains brief =>
    have calls {result : Except Failure (Option String)} {data : ByteArray} {peer : σ} :
        called (noted w peer ⟨.uploadPart u part.number data, result⟩) =
          called w ++ [⟨.uploadPart u part.number data, result⟩] := rfl
    have unpaused {peer : σ} {c : Called} : (noted w peer c).paused = w.paused ++ [] := (quiet w).2
    cases goes with
    | unread fresh read => cases fresh
    | reads fresh read => cases fresh
    | stores ready =>
      cases ready
      refine .ended (sends.snoc calls) (tries_snoc strokes part calls) ?_ rfl
      rw [tries_snoc strokes part calls, added_snoc strokes part unpaused, List.append_nil]
      exact remains.succeeds _
    | again ready failed again =>
      cases ready
      have calls {result : Except Failure (Option String)} {data : ByteArray} {peer : σ}
          {pauses : List Pause} :
          called ((noted w peer ⟨.uploadPart u part.number data, result⟩).pauseAll pauses) =
            called w ++ [⟨.uploadPart u part.number data, result⟩] := rfl
      have paused {peer : σ} {c : Called} {pauses : List Pause} :
          ((noted w peer c).pauseAll pauses).paused = w.paused ++ pauses := World.paused_pauseAll _ _
      refine .ready (sends.snoc calls) ?_ ?_
      · rw [tries_snoc strokes part calls, failed, added_snoc strokes part paused]
        exact remains.again again
      · rw [tries_snoc strokes part calls, List.length_append, List.length_append,
          List.length_singleton, List.length_singleton]
        omega
    | fails ready failed last =>
      cases ready
      refine .ended (sends.snoc calls) (tries_snoc strokes part calls) ?_ ?_
      · rw [tries_snoc strokes part calls, added_snoc strokes part unpaused, List.append_nil, failed]
        exact remains.fails last
      · rw [failed]
        rfl

theorem keeps_of_stint (valid : isPartNumber part.number = true)
    (h : Stint (Sending.proceed s.observed u) part ⟨file, part, r.policy accepts, none⟩ strokes x) :
    part.Keeps u r accepts strokes x := by
  have along : part.Stands u r accepts file strokes x := by
    induction h with
    | begun => exact .begun rfl
    | goes before w ih =>
      rename_i strokes t
      have taken : t.part = part := by
        cases ih with
        | begun none => rfl
        | ready sends remains brief => rfl
      exact ih.goes (Sending.goes s u t w (taken ▸ valid))
  exact along.keeps

theorem along_keeps (s : S3 σ) (u : Upload) (file : Entry) (r : ChunkRetry) (accepts : Error → Bool)
    (valid : isPartNumber part.number = true) (worlds : Nat → World (Calls σ)) :
    ∃ strokes result, along (Sending.proceed s.observed u) part worlds
        ⟨file, part, r.policy accepts, none⟩ (r.tries + 1) = (strokes, .inl result) ∧
      part.Keeps u r accepts strokes (.inl result) :=
  along_ends (fun _ _ stint => keeps_of_stint valid stint)
    (fun _ t keeps => Nat.lt_succ_of_le (keeps.unfinished t rfl).1) worlds

end FilePart

end ObjectTransfer.S3
