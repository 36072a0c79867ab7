import ObjectTransfer.Proofs.Config
import ObjectTransfer.Proofs.Download.Moments
import ObjectTransfer.Proofs.S3.Delivery
import ObjectTransfer.Proofs.Word
/-!
What settings cannot do to a transfer. However a configuration was made and whatever is changed for one
transfer, there are bytes in every buffer and in every part, so nothing is divided by zero, and a crew has
a worker for each place in its channel, at least one and no more than there are parts.
-/
namespace ObjectTransfer
open Crew Relation

def Progress.Reporter.interval? (r : Progress.Reporter) (total buffer : Nat) :
    Option Progress.Interval :=
  if 2 < r.count then do
    let buffers ← Word.div? total (max buffer 1)
    let between ← Word.sub? r.count.toNat 2
    let n ← Word.div? buffers between
    pure (.every n)
  else if r.count < 0 then some .everyBuffer
  else some .never

theorem Progress.Reporter.interval?_eq (r : Progress.Reporter) (total buffer : Nat) :
    r.interval? total buffer = some (r.interval total buffer) := by
  rw [interval?, interval]
  by_cases many : 2 < r.count
  · have same : (r.count - 2).toNat = r.count.toNat - 2 := by omega
    rw [if_pos many, if_pos many, same]
    simp (disch := omega) only [Word.div?_eq, Word.sub?_eq, Option.bind_eq_bind, Option.bind_some]
    rfl
  · rw [if_neg many, if_neg many]
    split <;> rfl

/-- A crew with a worker for each place in its channel, for this many parts. -/
structure Crew.State.Manned {τ κ α ω β δ : Type} (parts : Nat) (crew : Crew.State τ κ α ω β δ) :
    Prop where
  room_pos : 1 ≤ crew.room
  room_le : crew.room ≤ parts
  workers : crew.workers.length = crew.room

theorem Crew.State.Staffed.manned {τ κ α ω β δ : Type} {crew : Crew.State τ κ α ω β δ} {workers : Nat}
    {parts : List α} (staffed : crew.Staffed (min workers parts.length) parts)
    (pos : 0 < min workers parts.length) : crew.Manned parts.length where
  room_pos := staffed.room ▸ pos
  room_le := staffed.room ▸ Nat.min_le_right _ _
  workers := staffed.workers.trans staffed.room.symm

theorem SourceBody.want_pos {b : SourceBody} (left : 0 < b.remaining) : 0 < b.want :=
  Nat.lt_min.2 ⟨left, Nat.lt_of_lt_of_le Nat.one_pos (Nat.le_max_right _ _)⟩

namespace Download
variable {σ : Type} {p : Plan} {source : RangeSource σ} {destination : String} {w : World σ}
  {object : ObjectMeta} {directory : Files.Path} {crew : Team σ}

theorem Plan.Able.manned (able : p.Able) (path : ReflTransGen (Moment.Next p source destination) (.begun w)
      (.fetching object directory crew)) :
    crew.Manned (Part.split object.size p.partSize).length := by
  obtain ⟨filled, id, progress, v, past, reached⟩ := Moment.staffed_of_path path
  exact reached.staffed.manned
    (Plan.staff_pos able.partSize_pos able.workers_pos (Nat.pos_of_ne_zero filled))

end Download

namespace S3
variable {σ : Type} {p : Plan} {s : S3 σ} {path : String} {d : Description} {Q : Files.Store → Prop}
  {files : Files.Store} {w : World σ} {heard : List (Parcel FilePart (UploadedPart × Nat))} {u : Upload}
  {size n : Nat} {crew : Team σ} {e : Error} {log : List Called}

theorem Moment.Comes.manned (workers : 0 < p.workers)
    (comes : Moment.Comes p s path d Q w heard (.uploading u size crew)) :
    minUploadPart ≤ p.partSize ∧ ∃ parts, FilePart.split size p.partSize = .ok parts ∧
      crew.Manned parts.length := by
  obtain ⟨large, parts, v, heard', split, works⟩ := comes.staffed
  refine ⟨large, parts, split, works.staffed.manned ?_⟩
  have some := FilePart.count_pos size p.partSize
  rw [(FilePart.split_eq split).1, List.length_map, List.length_range]
  omega

theorem given_ne_tooSmall {field : String} {result : Except Failure (Option String)} :
    given field result ≠ .error (.invalid (.partSizeTooSmall n)) := by
  intro h
  cases result with
  | ok answer => cases answer <;> cases h
  | error failure =>
    cases failure with
    | notConstructed => cases h
    | notDispatched => cases h
    | refused code =>
      cases code with
      | none => cases h
      | some code =>
        simp only [given, Except.mapError, Failure.error] at h
        split at h <;> cases h

theorem Plan.Fails.ne_tooSmall (large : minUploadPart ≤ p.partSize)
    (fails : p.Fails path d Q files heard e log) : e ≠ .invalid (.partSizeTooSmall n) := by
  cases fails with
  | refused reason uncalled =>
    cases reason with
    | smallParts small => exact absurd large (Nat.not_le.2 small)
    | _ => exact fun h => by cases h
  | uninitiated described failed called => exact fun h => given_ne_tooSmall (h ▸ failed)
  | partFailed ready first done known named asked aborts called =>
    cases named <;> exact fun h => by cases h
  | incomplete ready done stored failed asked aborts called =>
    exact fun h => given_ne_tooSmall (h ▸ failed)

theorem Plan.upload_ne_tooSmall (workers : 0 < p.workers) (large : minUploadPart ≤ p.partSize)
    (s : S3 σ) (path : String) (d : Description) (w : World σ) :
    ∃ result w', p.upload s path d w = some (result, w') ∧
      ∀ n, result ≠ .error (.invalid (.partSizeTooSmall n)) := by
  obtain ⟨heard, result, v, w', comes, -, -, run⟩ :=
    @Plan.upload_comes σ p s path d (fun _ => True) w workers trivial
  refine ⟨_, _, run, fun n tooSmall => ?_⟩
  cases result with
  | ok made => cases tooSmall
  | error e =>
    cases comes.underway (w := { w with metrics := w.metrics.initiate }) workers trivial with
    | ended fails => exact fails.ne_tooSmall large (Except.error.inj tooSmall)

/-- A size below the minimum is refused before the file is looked at. -/
theorem Plan.transfer_of_small (small : p.partSize < minUploadPart) (s : S3 σ) (path : String)
    (d : Description) (w : World σ) :
    p.transfer s path d w = some (.error (.invalid (.partSizeTooSmall p.partSize)), w) := if_pos small

end S3

/-- Nothing is divided by zero and no channel is without room, whatever is set: every buffer has bytes, and
so has every part that an object or a file is split into; the workers of a transfer are at least one
and at most as many as there are parts. Parts of an upload that are too small are refused unless
the configuration gives their size, which it never gives too small. -/
theorem settings_keep_limits {c : Config} (obtained : c.Obtained) :
    (0 < c.bufferSize ∧ ∀ b : SourceBody, 0 < b.remaining → 0 < b.want) ∧
    (∀ (r : Progress.Reporter) (total buffer : Nat),
      r.interval? total buffer = some (r.interval total buffer)) ∧
    (∀ {σ : Type} (changes : List Download.Plan.Change) (source : RangeSource σ) (destination : String)
      (w : World σ), 0 < (Download.Plan.adjusted c changes).partSize ∧
      ∀ {object : ObjectMeta} {directory : Files.Path} {crew : Download.Team σ},
        ReflTransGen (Download.Moment.Next (Download.Plan.adjusted c changes) source destination) (.begun w)
          (.fetching object directory crew) →
        crew.Manned (Download.Part.split object.size (Download.Plan.adjusted c changes).partSize).length) ∧
    minUploadPart ≤ c.uploadPart ∧
    ∀ {σ : Type} (changes : List S3.Plan.Change) (s : S3 σ) (path : String) (d : S3.Description)
      (w : World σ),
      ((S3.Plan.adjusted c changes).partSize < minUploadPart →
        (S3.Plan.adjusted c changes).transfer s path d w =
          some (.error (.invalid (.partSizeTooSmall (S3.Plan.adjusted c changes).partSize)), w)) ∧
      (∀ {Q : Files.Store → Prop} {heard : List (Parcel S3.FilePart (S3.UploadedPart × Nat))}
        {u : S3.Upload} {size : Nat} {crew : S3.Team σ},
        S3.Moment.Comes (S3.Plan.adjusted c changes) s path d Q w heard (.uploading u size crew) →
        minUploadPart ≤ (S3.Plan.adjusted c changes).partSize ∧
        ∃ parts, S3.FilePart.split size (S3.Plan.adjusted c changes).partSize = .ok parts ∧
          crew.Manned parts.length) ∧
      ((∀ n, .partSize n ∉ changes) → ∃ result w',
        (S3.Plan.adjusted c changes).upload s path d w = some (result, w') ∧
        ∀ n, result ≠ .error (.invalid (.partSizeTooSmall n))) := by
  have limited := obtained.limited
  refine ⟨⟨limited.bufferSize_pos, fun b => b.want_pos⟩, Progress.Reporter.interval?_eq,
    fun changes source destination w => ?_, limited.uploadPart_le, fun changes s path d w => ?_⟩
  · have able := Download.Plan.able_adjusted c changes
    exact ⟨able.partSize_pos, able.manned⟩
  · have workers := S3.Plan.adjusted_workers_pos c changes
    refine ⟨fun small => S3.Plan.transfer_of_small small s path d w, fun comes => comes.manned workers,
      fun unchanged => ?_⟩
    have large : minUploadPart ≤ (S3.Plan.adjusted c changes).partSize := by
      rw [S3.Plan.adjusted_partSize c unchanged]
      exact limited.uploadPart_le
    exact S3.Plan.upload_ne_tooSmall workers large s path d w

def zeros : List Config.Change :=
  [.bufferSize 0, .partSize (.explicit 0), .uploadPartSize (.explicit 0), .concurrency (.explicit 0),
    .retries 0, .chunkRetry ⟨0, 0⟩]

/-- With nothing but zeros set, a file of three bytes is uploaded. -/
theorem zeros_keep_limits : 0 < (Config.build true zeros).bufferSize ∧
    minUploadPart ≤ (Config.build true zeros).uploadPart ∧
    ∃ result w', (S3.Plan.adjusted (Config.build true zeros) [.workers 0]).upload
        Rehearsal.S3Script.service "f" S3.plain (.initial .empty S3.threeBytes) = some (result, w') ∧
      ∀ n, result ≠ .error (.invalid (.partSizeTooSmall n)) := by
  obtain ⟨⟨buffer, -⟩, -, -, part, uploads⟩ := settings_keep_limits (.built true zeros)
  refine ⟨buffer, part, (uploads [.workers 0] Rehearsal.S3Script.service "f" S3.plain
    (.initial .empty S3.threeBytes)).2.2 fun n h => ?_⟩
  cases List.mem_singleton.1 h

end ObjectTransfer
