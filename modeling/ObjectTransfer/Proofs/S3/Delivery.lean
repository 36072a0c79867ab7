import ObjectTransfer.Proofs.Crew.Ending
import ObjectTransfer.Proofs.S3.Moments
import ObjectTransfer.Rehearsal.S3Script
/-!
What uploads in parts come to. Whoever moves next, an upload that ends well has put the object together
from all parts of the file, each stored once; and one that fails has made no call, or could not be
initiated, or is aborted or retained as the policy says, after everyone has stopped, with the failure
that came first.
-/
namespace ObjectTransfer

def Files.Store.Shows (path : String) (id : Nat) (content : ByteArray) (s : Files.Store) : Prop :=
  s.openRead path = .ok (.file id) ∧ (s.content id).bytes = content

theorem Files.Store.Shows.size {path : String} {id : Nat} {content : ByteArray} {s : Files.Store}
    (shows : s.Shows path id content) : s.size path = .ok content.size := by
  obtain ⟨opened, bytes⟩ := shows
  rw [openRead] at opened
  cases found : s.find path with
  | error fault =>
    rw [found] at opened
    cases opened
  | ok at_ =>
    obtain ⟨place, entry⟩ := at_
    rw [found] at opened
    cases opened
    rw [Files.Store.size, found, ← bytes, Files.Content.size_bytes]
    rfl

namespace S3
open Crew Files Rehearsal

/-- Why an upload is refused before any call is made. -/
inductive Refused (p : Plan) (path : String) (d : Description) (files : Store) : Error → Prop
  | smallParts (small : p.partSize < minUploadPart) :
      Refused p path d files (.invalid (.partSizeTooSmall p.partSize))
  | unmeasured {fault : Fault} (size : files.size path = .error fault) :
      Refused p path d files (.io fault)
  | manyParts {size : Nat} (measured : files.size path = .ok size)
      (many : maxPartNumber < FilePart.count size p.partSize) : Refused p path d files
        (.invalid (.tooManyParts size (FilePart.count size p.partSize) p.partSize))
  | storageClass {name : String} (given : d.storageClass = some name)
      (unknown : name ∉ storageClasses) : Refused p path d files (.invalid (.invalidStorageClass name))
  | metadata {key value : String} (given : (key, value) ∈ d.metadata)
      (malformed : isMetadataKey key = false) :
      Refused p path d files (.invalid (.invalidMetadataKey key))

structure Ready (p : Plan) (path : String) (d : Description) (files : Store) (size : Nat)
    (parts : List FilePart) : Prop where
  large : minUploadPart ≤ p.partSize
  measured : files.size path = .ok size
  split : FilePart.split size p.partSize = .ok parts
  described : d.validate = .ok ()

/-- The calls that follow a failure: one that aborts the upload, or none when it is retained. -/
def Plan.Aborts (p : Plan) (u : Upload) (calls : List Called) : Prop :=
  match p.onFailure with
  | .abortUpload => ∃ result, calls = [⟨.abort u, result⟩]
  | .retain => calls = []

/-- `n` parts were stored by these calls, and these are their numbers and tags, in order. -/
structure Stored (calls : List Called) (n : Nat) (listed : List UploadedPart) : Prop where
  inOrder : listed.map (·.number) = numbers n
  tally : (calls.filterMap Called.tagged?).Perm (listed.map UploadedPart.tagged)

/-- How an upload fails, and with which calls. What the coordinator has heard of ends with the failure
of a part, unless every part was stored. -/
inductive Plan.Fails (p : Plan) (path : String) (d : Description) (Q : Store → Prop) (files : Store)
    (heard : List (Parcel FilePart (UploadedPart × Nat))) (e : Error) (log : List Called) : Prop
  | refused (reason : Refused p path d files e) (uncalled : log = [])
  | uninitiated {result : Except Failure (Option String)} (described : d.validate = .ok ())
      (failed : given "the upload ID" result = .error e) (called : log = [⟨.create d, result⟩])
  | partFailed {id : String} {size : Nat} {parts : List FilePart} {calls after : List Called}
      {earlier : List (Parcel FilePart (UploadedPart × Nat))} {part : Option FilePart}
      (ready : Ready p path d files size parts) (first : heard = earlier ++ [⟨part, .error e⟩])
      (done : ∀ parcel ∈ earlier, ∃ made, parcel.result = .ok made)
      (known : ∀ failed, part = some failed → failed ∈ parts) (named : Fits Q path ⟨part, .error e⟩)
      (asked : ∀ c ∈ calls, Asked ⟨d.location, id⟩ path Q parts c)
      (aborts : p.Aborts ⟨d.location, id⟩ after)
      (called : log = ⟨.create d, .ok (some id)⟩ :: calls ++ after)
  | incomplete {id : String} {size : Nat} {parts : List FilePart} {calls after : List Called}
      {listed : List UploadedPart} {result : Except Failure (Option String)}
      (ready : Ready p path d files size parts)
      (done : ∀ parcel ∈ heard, ∃ made, parcel.result = .ok made)
      (stored : Stored calls (FilePart.count size p.partSize) listed)
      (failed : given "the completed object ETag" result = .error e)
      (asked : ∀ c ∈ calls, Asked ⟨d.location, id⟩ path Q parts c)
      (aborts : p.Aborts ⟨d.location, id⟩ after)
      (called : log = ⟨.create d, .ok (some id)⟩ ::
        calls ++ ⟨.complete ⟨d.location, id⟩ listed, result⟩ :: after)

inductive Plan.Succeeds (p : Plan) (path : String) (d : Description) (Q : Store → Prop)
    (files : Store) (completed : Completed) (size : Nat) (log : List Called) : Prop
  | intro {id : String} {parts : List FilePart} {calls : List Called} {listed : List UploadedPart}
      (ready : Ready p path d files size parts)
      (number : completed.parts = FilePart.count size p.partSize)
      (stored : Stored calls completed.parts listed)
      (asked : ∀ c ∈ calls, Asked ⟨d.location, id⟩ path Q parts c)
      (called : log = ⟨.create d, .ok (some id)⟩ ::
        calls ++ [⟨.complete ⟨d.location, id⟩ listed, .ok (some completed.eTag)⟩])

def Plan.Settles (p : Plan) (path : String) (d : Description) (Q : Store → Prop) (files : Store)
    (heard : List (Parcel FilePart (UploadedPart × Nat))) (log : List Called) :
    Except Error (Completed × Nat) → Prop
  | .error e => p.Fails path d Q files heard e log
  | .ok (completed, size) => p.Succeeds path d Q files completed size log

inductive Begins {σ : Type} (p : Plan) (path : String) (d : Description) (Q : Store → Prop)
    (w : World σ) : Moment (Calls σ) → Prop
  | failed {e : Error} {w' : World (Calls σ)} (fails : p.Fails path d Q w.files [] e w'.peer.log) :
      Begins p path d Q w (.ended (.error e) w')
  | ready {id : String} {size : Nat} {parts : List FilePart} {w' : World (Calls σ)}
      (ready : Ready p path d w.files size parts) (log : w'.peer.log = [⟨.create d, .ok (some id)⟩])
      (files : Q w'.files) :
      Begins p path d Q w (.uploading ⟨d.location, id⟩ size (p.staff parts size w'))

/-- A moment that can come, with what is known of it. -/
inductive Underway {σ : Type} (p : Plan) (s : S3 σ) (path : String) (d : Description)
    (Q : Store → Prop) (w : World σ) :
    List (Parcel FilePart (UploadedPart × Nat)) → Moment (Calls σ) → Prop
  | begun : Underway p s path d Q w [] (.begun (watched w))
  | uploading {id : String} {size : Nat} {parts : List FilePart} {w' : World (Calls σ)}
      {heard : List (Parcel FilePart (UploadedPart × Nat))} {crew : Team (Calls σ)}
      (ready : Ready p path d w.files size parts) (log : w'.peer.log = [⟨.create d, .ok (some id)⟩])
      (files : Q w'.files)
      (works : State.Works (craft p s.observed ⟨d.location, id⟩ path) Collection.desk
        (fun w w' => ∃ files, Q files ∧ w' = w.withFiles files) (p.staff parts size w') heard crew) :
      Underway p s path d Q w heard (.uploading ⟨d.location, id⟩ size crew)
  | ended {result : Except Error (Completed × Nat)} {w' : World (Calls σ)}
      {heard : List (Parcel FilePart (UploadedPart × Nat))}
      (settled : p.Settles path d Q w.files heard w'.peer.log result) :
      Underway p s path d Q w heard (.ended result w')

theorem Description.refuses {d : Description} {e : Error} (h : d.validate = .error e) (p : Plan)
    (path : String) (files : Store) : Refused p path d files e := by
  unfold validate at h
  cases storage : d.storageClass.filter (!storageClasses.contains ·) with
  | some name =>
    simp only [storage] at h
    cases h
    obtain ⟨given, unknown⟩ := Option.filter_eq_some_iff.1 storage
    exact .storageClass given (by simpa using unknown)
  | none =>
    simp only [storage] at h
    cases malformed : d.metadata.find? fun m => !isMetadataKey m.1 with
    | none =>
      simp only [malformed] at h
      cases h
    | some entry =>
      obtain ⟨key, value⟩ := entry
      simp only [malformed] at h
      cases h
      exact .metadata (List.mem_of_find?_eq_some malformed)
        (by simpa using List.find?_some malformed)

variable {σ : Type} {p : Plan} {s : S3 σ} {path : String} {d : Description} {Q : Store → Prop}
  {w : World σ} {w' : World (Calls σ)} {size : Nat} {parts : List FilePart}
  {heard : List (Parcel FilePart (UploadedPart × Nat))} {m n : Moment (Calls σ)}

namespace Ready
variable {files : Store} (ready : Ready p path d files size parts)

include ready

theorem parts_eq : parts = (List.range (FilePart.count size p.partSize)).map
    (FilePart.ofIndex size p.partSize) := (FilePart.split_eq ready.split).1

theorem numbers_eq : (parts.map fun part => (part.number : Int)) =
    numbers (FilePart.count size p.partSize) := by
  rw [ready.parts_eq, List.map_map]
  rfl

theorem length_eq : parts.length = FilePart.count size p.partSize := by
  rw [ready.parts_eq, List.length_map, List.length_range]

theorem valid : ∀ part ∈ parts, isPartNumber part.number = true := by
  intro part hpart
  rw [ready.parts_eq] at hpart
  obtain ⟨i, hi, rfl⟩ := List.mem_map.1 hpart
  have few := (FilePart.split_eq ready.split).2
  have here := List.mem_range.1 hi
  simp only [isPartNumber, FilePart.ofIndex, Bool.and_eq_true]
  exact ⟨decide_eq_true (by omega), decide_eq_true (by omega)⟩

theorem staff_pos (workers : 0 < p.workers) : 0 < min p.workers parts.length := by
  have := FilePart.count_pos size p.partSize
  rw [ready.length_eq]
  omega

end Ready

theorem Plan.opened_begins (p : Plan) (s : S3 σ) (path : String) (d : Description) (q : Q w.files) :
    Begins p path d Q w (p.opened s.observed path d (watched w)) := by
  unfold opened
  split
  · rename_i small
    exact .failed (.refused (.smallParts small) rfl)
  · rename_i large
    cases measured : w.files.size path with
    | error fault =>
      have measured' : (watched w).files.size path = .error fault := measured
      rw [measured']
      exact .failed (.refused (.unmeasured measured) rfl)
    | ok size =>
      have measured' : (watched w).files.size path = .ok size := measured
      rw [measured']
      dsimp only
      cases split : FilePart.split size p.partSize with
      | error e =>
        obtain ⟨many, rfl⟩ := FilePart.split_error split
        exact .failed (.refused (.manyParts measured many) rfl)
      | ok parts =>
        dsimp only
        cases described : d.validate with
        | error e =>
          rw [initiate, described]
          exact .failed (.refused (d.refuses described p path w.files) rfl)
        | ok valid =>
          obtain ⟨result, peer, made⟩ := initiate_observed s described (watched w)
          rw [made]
          cases answer : given "the upload ID" result with
          | error e => exact .failed (.uninitiated described answer rfl)
          | ok id =>
            obtain rfl := given_eq_ok answer
            exact .ready ⟨Nat.le_of_not_lt large, measured, split, described⟩ rfl q

theorem Plan.giveUp_log (p : Plan) (s : S3 σ) (u : Upload) (w : World (Calls σ)) :
    ∃ aborts, (p.giveUp s.observed u w).peer.log = w.peer.log ++ aborts ∧ p.Aborts u aborts := by
  unfold giveUp Aborts
  cases p.onFailure with
  | abortUpload =>
    obtain ⟨result, peer, made⟩ := abort_observed s u w
    exact ⟨[⟨.abort u, result⟩], by rw [made, noted_log], result, rfl⟩
  | retain => exact ⟨[], (List.append_nil _).symm, rfl⟩

theorem Plan.staff_holds {id : String} {crew : Team (Calls σ)} {files : Store}
    (ready : Ready p path d files size parts) (workers : 0 < p.workers) (q : Q w'.files)
    (works : State.Works (craft p s.observed ⟨d.location, id⟩ path) Collection.desk
      (fun w w' => ∃ files, Q files ∧ w' = w.withFiles files) (p.staff parts size w') heard crew) :
    Course ⟨d.location, id⟩ path Q parts w'.peer.log crew.view := by
  refine (works.holds (upkeep p s ⟨d.location, id⟩ path Q parts w'.peer.log ready.valid)
    (ready.staff_pos workers) ?_).1
  exact Course.start (w := w'.report _) q _

section
variable {id : String} {crew : Team (Calls σ)} {files : Store} {e : Error} {collection : Collection}
  (ready : Ready p path d files size parts) (workers : 0 < p.workers) (q : Q w'.files)
  (log : w'.peer.log = [⟨.create d, .ok (some id)⟩])
  (works : State.Works (craft p s.observed ⟨d.location, id⟩ path) Collection.desk
    (fun w w' => ∃ files, Q files ∧ w' = w.withFiles files) (p.staff parts size w') heard crew)

include ready workers q log works

theorem Plan.closed_fails (returned : crew.phase = .returned (.error e)) :
    p.Fails path d Q files heard e (p.giveUp s.observed ⟨d.location, id⟩ crew.world).peer.log := by
  have course := Plan.staff_holds ready workers q works
  have tells := works.tells (ready.staff_pos workers) fun _ _ => rfl
  rw [log] at course
  rw [returned] at tells
  obtain ⟨calls, called, asked, -⟩ := course.called
  obtain ⟨earlier, part, first, done⟩ := tells
  have packed : ∀ parcel ∈ heard, Fits Q path parcel ∧
      ∀ failed, parcel.part = some failed → failed ∈ parts := by
    refine works.packed fun works' parcel here => ?_
    have course := Plan.staff_holds ready workers q works'
    exact ⟨course.fits parcel here,
      fun failed same => course.known failed (List.mem_filterMap.2 ⟨_, here, same⟩)⟩
  obtain ⟨named, known⟩ := packed ⟨part, .error e⟩ (by rw [first]; simp)
  obtain ⟨after, abandoned, aborts⟩ := p.giveUp_log s ⟨d.location, id⟩ crew.world
  exact .partFailed ready first done known named asked aborts
    (by rw [abandoned, ← List.singleton_append, ← called]; rfl)

theorem Plan.closed_stored (returned : crew.phase = .returned (.ok collection)) :
    (∀ parcel ∈ heard, ∃ made, parcel.result = .ok made) ∧ ∃ calls listed,
      crew.world.peer.log = ⟨.create d, .ok (some id)⟩ :: calls ∧
      (∀ c ∈ calls, Asked ⟨d.location, id⟩ path Q parts c) ∧
      orderedParts collection.parts = .ok listed ∧
      Stored calls (FilePart.count size p.partSize) listed := by
  have course := Plan.staff_holds ready workers q works
  have tells := works.tells (ready.staff_pos workers) fun _ _ => rfl
  rw [log] at course
  rw [returned] at tells
  obtain ⟨calls, called, asked, expects⟩ := course.called
  have outlook : crew.view.outlook = (Phase.returned (.ok collection)).outlook := by
    rw [← returned]
    rfl
  rw [outlook] at expects
  cases expects with
  | complete tally received rest =>
    obtain ⟨sorted, ordered, perm, inOrder⟩ := orderedParts_ok
      (FilePart.count_pos size p.partSize) (ready.numbers_eq ▸ received)
    exact ⟨tells, calls, sorted, called, asked, ordered, inOrder, tally.trans (perm.map _).symm⟩

theorem Plan.closed_settles {result : Except Error Collection}
    (returned : crew.phase = .returned result) :
    p.Settles path d Q files heard
      (p.closed s.observed ⟨d.location, id⟩ size crew.world result).2.peer.log
      (p.closed s.observed ⟨d.location, id⟩ size crew.world result).1 := by
  cases result with
  | error e => exact Plan.closed_fails ready workers q log works returned
  | ok collection =>
    obtain ⟨done, calls, sorted, called, asked, ordered, stored⟩ :=
      Plan.closed_stored ready workers q log works returned
    have length : sorted.length = FilePart.count size p.partSize := by
      have same := congrArg List.length stored.inOrder
      rwa [List.length_map, numbers, List.length_map, List.length_range] at same
    obtain ⟨answer, peer, made⟩ := complete_observed s (u := ⟨d.location, id⟩) ordered
      (crew.world.report (collection.progress.map fun t => t.finish collection.sent).toList)
    have log' : (crew.world.report (collection.progress.map fun t =>
        t.finish collection.sent).toList).peer.log = ⟨.create d, .ok (some id)⟩ :: calls := called
    rw [closed, made]
    cases outcome : given "the completed object ETag" answer with
    | error e =>
      obtain ⟨after, abandoned, aborts⟩ := p.giveUp_log s ⟨d.location, id⟩
        (noted (crew.world.report (collection.progress.map fun t =>
          t.finish collection.sent).toList) peer ⟨.complete ⟨d.location, id⟩ sorted, answer⟩)
      refine Plan.Fails.incomplete ready done stored outcome asked aborts ?_
      dsimp only [finished, Except.map]
      rw [abandoned, noted_log, log']
      simp
    | ok eTag =>
      obtain rfl := given_eq_ok outcome
      refine Plan.Succeeds.intro ready length (length ▸ stored) asked ?_
      dsimp only [finished, Except.map]
      rw [noted_log, log']

end

theorem Begins.underway (begins : Begins p path d Q w m) : Underway p s path d Q w [] m := by
  cases begins with
  | failed fails => exact .ended fails
  | ready ready log files => exact .uploading ready log files .start

theorem Underway.next {more : List (Parcel FilePart (UploadedPart × Nat))} (workers : 0 < p.workers)
    (underway : Underway p s path d Q w heard m) (q : Q w.files)
    (next : Moment.Next p s.observed path d Q m more n) :
    Underway p s path d Q w (heard ++ more) n := by
  cases underway with
  | begun =>
    cases next with
    | opens => exact (p.opened_begins s path d q).underway
  | uploading ready log files works =>
    cases next with
    | moves step => exact .uploading ready log files (works.moves step)
    | disturbed q' =>
      rw [List.append_nil]
      exact .uploading ready log files (works.disturbed ⟨_, q', rfl⟩)
    | closes returned =>
      rw [List.append_nil]
      exact .ended (Plan.closed_settles ready workers files log works returned)
  | ended settled => cases next

theorem Moment.Comes.underway (comes : Moment.Comes p s.observed path d Q (watched w) heard m)
    (workers : 0 < p.workers) (q : Q w.files) : Underway p s path d Q w heard m := by
  induction comes with
  | start => exact .begun
  | next before next ih => exact ih.next workers q next

/-- The steps that the work on a part can still take. -/
def Sending.cost (t : Sending) : Nat := t.policy.left + 1 + if t.data.isNone then 1 else 0

/-- A step of the work reads the part or leaves one try less. -/
theorem Sending.proceed_cost {τ : Type} {s : S3 τ} {u : Upload} {t t' : Sending} {w w' : World τ}
    (h : t.proceed s u w = (.inr t', w')) : t'.cost < t.cost := by
  obtain ⟨file, part, policy, data⟩ := t
  unfold proceed at h
  dsimp only at h
  split at h
  · split at h
    · cases h
    · cases h
      simp [cost]
  · split at h
    · cases h
    · split at h
      · rename_i again
        cases h
        have left := (RetryPolicy.again?_eq_some again).2.2
        simp only [cost, Option.isNone_some, Bool.false_eq_true, if_false]
        omega
      · cases h

def Plan.costs (p : Plan) (s : S3 σ) (u : Upload) (path : String) (crew : Team σ) :
    Costs (craft p s u path) Collection.desk crew where
  part _ := p.policy.left + 2
  work := Sending.cost
  made _ := 0
  desk _ := 0
  begins _ _ := Nat.le_refl _
  proceeds := Sending.proceed_cost
  finishes _ := Nat.zero_le _
  accepts _ _ _ := Nat.le_refl _
  files _ _ file := by cases file

theorem Plan.costs_le (p : Plan) (s : S3 σ) (u : Upload) (path : String) (parts : List FilePart)
    (size : Nat) (w : World σ) :
    (p.costs s u path (p.staff parts size w)).ahead (p.staff parts size w) ≤ p.rounds parts.length := by
  have tries : p.policy.left + 1 = p.retry.tries := by
    simp only [policy, ChunkRetry.tries]
    omega
  have few : min p.workers parts.length ≤ parts.length := Nat.min_le_right _ _
  simp only [Costs.ahead, costs, staff, Crew.State.initial, Costs.worker, Costs.phase, List.map_const',
    List.map_replicate, List.sum_replicate_nat, rounds, List.map_nil, List.sum_nil]
  have arrivals : parts.length * (p.policy.left + 2 + 4) + parts.length * 3 =
      parts.length * (p.policy.left + 1 + 8) := (Nat.mul_add _ _ _).symm
  rw [← tries]
  omega

theorem Begins.outcome (begins : Begins p path d Q w m) (workers : 0 < p.workers)
    (comes : Moment.Comes p s.observed path d Q (watched w) [] m) :
    ∃ heard result w', p.outcome s.observed path m = some (result, w') ∧
      Moment.Comes p s.observed path d Q (watched w) heard (.ended result w') := by
  cases begins with
  | failed fails => exact ⟨[], _, _, rfl, comes⟩
  | ready ready log files =>
    rename_i id size parts w'
    have begun : State.Reaches (craft p s.observed ⟨d.location, id⟩ path) Collection.desk
      (p.staff parts size w') [] (p.staff parts size w') := .start
    obtain ⟨past, reached⟩ := begun.run (p.rounds parts.length)
    obtain ⟨heard, works⟩ := reached.works
    obtain ⟨result, returned⟩ := begun.run_returns (ready.staff_pos workers)
      (p.costs s.observed ⟨d.location, id⟩ path _) (p.costs_le _ _ _ parts size w')
    refine ⟨[] ++ heard ++ [], _, _, ?_, (comes.works works).next (.closes returned)⟩
    have rounds : (p.staff parts size w').total = parts.length := rfl
    rw [Plan.outcome, Plan.worked, rounds, Crew.State.result?, returned]
    rfl

theorem Plan.upload_comes (workers : 0 < p.workers) (q : Q w.files) : ∃ heard result v w',
    Moment.Comes p s.observed path d Q (watched { w with metrics := w.metrics.initiate }) heard
      (.ended result v) ∧ w'.peer = v.peer ∧
    p.upload s.observed path d (watched w) = some (result.map (·.1), w') ∧
    p.upload s path d w = some (result.map (·.1), unwatched w') := by
  obtain ⟨heard, result, v, outcome, comes⟩ :=
    (p.opened_begins (w := { w with metrics := w.metrics.initiate }) s path d q).outcome workers
      (.next .start (.opens _))
  rw [← Plan.transfer_eq] at outcome
  have upload : ∃ metrics, p.upload s.observed path d (watched w) =
      some (result.map (·.1), { v with metrics }) := by
    have outcome' : p.transfer s.observed path d
      { watched w with metrics := (watched w).metrics.initiate } = some (result, v) := outcome
    simp only [Plan.upload]
    rw [outcome']
    exact ⟨_, rfl⟩
  obtain ⟨metrics, upload⟩ := upload
  have same := p.upload_unwatched s path d w
  rw [upload] at same
  exact ⟨heard, result, v, { v with metrics }, comes, rfl, upload, same⟩

/-- The object was put together from the whole content: every part was stored by one call, and the
upload was completed with the last call, from all parts in order and with the tags that were given for
them. -/
def Plan.Assembles (p : Plan) (d : Description) (content : ByteArray) (completed : Completed)
    (log : List Called) : Prop :=
  ∃ (u : Upload) (calls : List Called) (listed : List UploadedPart) (body : Int → ByteArray),
    u.location = d.location ∧
    log = ⟨.create d, .ok (some u.id)⟩ ::
      calls ++ [⟨.complete u listed, .ok (some completed.eTag)⟩] ∧
    (∀ c ∈ calls, ∃ number data, c.call = .uploadPart u number data) ∧
    completed.parts = max ((content.size + p.partSize - 1) / p.partSize) 1 ∧
    listed.map (·.number) = numbers completed.parts ∧
    (calls.filterMap Called.stored?).Perm
      (listed.map fun part => (part.number, body part.number, some part.eTag)) ∧
    ((numbers completed.parts).map body).foldl (· ++ ·) .empty = content

def Plan.body (p : Plan) (content : ByteArray) (number : Int) : ByteArray :=
  (FilePart.ofIndex content.size p.partSize (number.toNat - 1)).bytes content

theorem Plan.join_body (p : Plan) (hp : 0 < p.partSize) (content : ByteArray) :
    ((numbers (FilePart.count content.size p.partSize)).map (p.body content)).foldl (· ++ ·) .empty =
      content := by
  have same : (numbers (FilePart.count content.size p.partSize)).map (p.body content) =
      (List.range (FilePart.count content.size p.partSize)).map fun i =>
        (FilePart.ofIndex content.size p.partSize i).bytes content := by
    rw [numbers, List.map_map]
    refine List.map_congr_left fun i _ => ?_
    have index : ((i : Int) + 1).toNat - 1 = i := by omega
    rw [Function.comp_apply, body, index]
  rw [same, FilePart.join_all hp]

theorem Asked.data_eq {u : Upload} {id : Nat} {content : ByteArray} {files : Store} {c : Called}
    (ready : Ready p path d files content.size parts)
    (asked : Asked u path (Store.Shows path id content) parts c) :
    ∃ number, c.call = .uploadPart u number (p.body content number) := by
  obtain ⟨part, hpart, data, call, entry, files', ⟨files'', shows', opened⟩, shows, read⟩ := asked
  obtain rfl : Entry.file id = entry := by
    rw [shows'.1] at opened
    exact Except.ok.inj opened
  refine ⟨part.number, ?_⟩
  rw [ready.parts_eq] at hpart
  obtain ⟨i, -, rfl⟩ := List.mem_map.1 hpart
  rw [call, Sending.read_eq read shows.2]
  rfl

theorem Plan.Succeeds.assembles {id : Nat} {content : ByteArray} {files : Store}
    {completed : Completed} {log : List Called} (shows : files.Shows path id content)
    (succeeds : p.Succeeds path d (Store.Shows path id content) files completed size log) :
    p.Assembles d content completed log := by
  obtain ⟨ready, number, stored, asked, called⟩ := succeeds
  rename_i upload parts calls listed
  have measured := ready.measured
  rw [shows.size] at measured
  cases measured
  have partSize : 0 < p.partSize := Nat.lt_of_lt_of_le (by decide) ready.large
  -- what a call stored is told by its number and its tag, since its number tells its bytes
  have stores : calls.filterMap Called.stored? =
      (calls.filterMap Called.tagged?).map fun x => (x.1, p.body content x.1, x.2) := by
    rw [List.map_filterMap]
    refine List.filterMap_congr fun c hc => ?_
    obtain ⟨number, call⟩ := (asked c hc).data_eq ready
    obtain ⟨call', result⟩ := c
    cases call
    cases result <;> rfl
  refine ⟨⟨d.location, upload⟩, calls, listed, p.body content, rfl, called, fun c hc => ?_, number,
    stored.inOrder, ?_, ?_⟩
  · obtain ⟨number, call⟩ := (asked c hc).data_eq ready
    exact ⟨number, _, call⟩
  · rw [stores]
    have same := stored.tally.map fun x => (x.1, p.body content x.1, x.2)
    rwa [List.map_map] at same
  · rw [number, p.join_body partSize]

/-- An upload of a file that stays as it is ends well only when the object was put together from all of
it, whoever moves next; and it ends. -/
theorem completed_upload_is_file {id : Nat} {content : ByteArray} (s : S3 σ) (d : Description)
    (workers : 0 < p.workers) (shows : w.files.Shows path id content) :
    (∀ heard completed size w', Moment.Comes p s.observed path d (Store.Shows path id content)
        (watched w) heard (.ended (.ok (completed, size)) w') →
      p.Assembles d content completed w'.peer.log) ∧
    ∃ result w', p.upload s.observed path d (watched w) = some (result, w') ∧
      p.upload s path d w = some (result, unwatched w') ∧
      ∀ completed, result = .ok completed → p.Assembles d content completed w'.peer.log := by
  have assembles {w : World σ} {heard} {completed : Completed} {size : Nat} {w' : World (Calls σ)}
      (shows : w.files.Shows path id content)
      (comes : Moment.Comes p s.observed path d (Store.Shows path id content) (watched w) heard
        (.ended (.ok (completed, size)) w')) : p.Assembles d content completed w'.peer.log := by
    cases comes.underway workers shows with
    | ended settled => exact Plan.Succeeds.assembles shows settled
  refine ⟨fun heard completed size w' comes => assembles shows comes, ?_⟩
  obtain ⟨heard, result, v, w', comes, peer, watchedRun, run⟩ :=
    Plan.upload_comes (p := p) (s := s) (d := d) workers shows
  refine ⟨_, w', watchedRun, run, fun completed ok => ?_⟩
  cases result with
  | error e => cases ok
  | ok made =>
    obtain ⟨completed', size⟩ := made
    cases ok
    rw [peer]
    exact assembles (w := { w with metrics := w.metrics.initiate }) shows comes

def twoWorkers : Plan := ⟨minUploadPart, 2, ⟨2, 0⟩, .abortUpload, none⟩

def threeBytes : Store := Store.empty.edit [.write "f" ⟨#[1, 2, 3]⟩]

def plain : Description := ⟨⟨"b", "k"⟩, none, none, []⟩

def silentOnce : S3Script := { S3Script.empty with script := [("part:1", [.silence])] }

theorem late_upload_is_file : ∃ (completed : Completed) (w' : World (Calls S3Script)),
    twoWorkers.upload S3Script.service "f" plain (.initial silentOnce threeBytes) =
      some (.ok completed, unwatched w') ∧
    twoWorkers.Assembles plain ⟨#[1, 2, 3]⟩ completed w'.peer.log := by
  have shows : threeBytes.Shows "f" 0 ⟨#[1, 2, 3]⟩ := ⟨rfl, rfl⟩
  obtain ⟨-, result, w', watchedRun, run, assembles⟩ := completed_upload_is_file
    (p := twoWorkers) (w := .initial silentOnce threeBytes) S3Script.service plain (by decide) shows
  have succeeds : (twoWorkers.upload S3Script.service.observed "f" plain
      (watched (.initial silentOnce threeBytes))).map (·.1.isOk) = some true := by decide +kernel
  rw [watchedRun] at succeeds
  cases result with
  | error e => cases succeeds
  | ok completed => exact ⟨completed, w', run, assembles completed rfl⟩

/-- An upload that fails has done so in one of the ways it can, whatever others do to the files and
whoever moves next; nobody is at work any more when the coordinator has returned. -/
theorem failed_upload_is_given_up (s : S3 σ) (d : Description) (workers : 0 < p.workers)
    (q : Q w.files) :
    (∀ heard e w', Moment.Comes p s.observed path d Q (watched w) heard (.ended (.error e) w') →
      p.Fails path d Q w.files heard e w'.peer.log) ∧
    (∀ heard u size crew result,
      Moment.Comes p s.observed path d Q (watched w) heard (.uploading u size crew) →
      crew.phase = .returned result →
      ∀ move, crew.step (craft p s.observed u path) Collection.desk move = none) ∧
    ∃ result w', p.upload s.observed path d (watched w) = some (result, w') ∧
      p.upload s path d w = some (result, unwatched w') ∧
      ∀ e, result = .error e → ∃ heard, p.Fails path d Q w.files heard e w'.peer.log := by
  have fails {w : World σ} {heard} {e : Error} {w' : World (Calls σ)} (q : Q w.files)
      (comes : Moment.Comes p s.observed path d Q (watched w) heard (.ended (.error e) w')) :
      p.Fails path d Q w.files heard e w'.peer.log := by
    cases comes.underway workers q with
    | ended settled => exact settled
  refine ⟨fun heard e w' comes => fails q comes, fun heard u size crew result comes returned => ?_, ?_⟩
  · cases comes.underway workers q with
    | uploading ready log files works => exact works.no_step returned
  · obtain ⟨heard, result, v, w', comes, peer, watchedRun, run⟩ :=
      Plan.upload_comes (p := p) (s := s) (d := d) workers q
    refine ⟨_, w', watchedRun, run, fun e error => ⟨heard, ?_⟩⟩
    cases result with
    | ok made => cases error
    | error e' =>
      cases error
      rw [peer]
      exact fails (w := { w with metrics := w.metrics.initiate }) q comes

/-- The part is refused, and the call that aborts the upload gets no answer. -/
def refusedPart : S3Script :=
  { S3Script.empty with
    script := [("part", [.status 403 (some "AccessDenied")]), ("abort", [.silence])] }

theorem refused_upload_is_given_up : ∃ (e : Error) (w' : World (Calls S3Script)) (heard : _),
    twoWorkers.upload S3Script.service "f" plain (.initial refusedPart threeBytes) =
      some (.error e, unwatched w') ∧
    twoWorkers.Fails "f" plain (fun _ => True) threeBytes heard e w'.peer.log := by
  obtain ⟨-, -, result, w', watchedRun, run, fails⟩ := failed_upload_is_given_up
    (p := twoWorkers) (w := .initial refusedPart threeBytes) (Q := fun _ => True)
    S3Script.service plain (by decide) trivial
  have failed : (twoWorkers.upload S3Script.service.observed "f" plain
      (watched (.initial refusedPart threeBytes))).map (·.1.isOk) = some false := by decide +kernel
  rw [watchedRun] at failed
  cases result with
  | ok completed => cases failed
  | error e =>
    obtain ⟨heard, fails⟩ := fails e rfl
    exact ⟨e, w', heard, run, fails⟩

end S3

end ObjectTransfer
