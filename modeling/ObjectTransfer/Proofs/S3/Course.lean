import ObjectTransfer.Proofs.Crew.Interference
import ObjectTransfer.Proofs.Retry
import ObjectTransfer.Proofs.S3.Calls
import ObjectTransfer.Proofs.S3.Parts
/-!
The course of an upload in parts. Whoever moves next, and whatever others do to the files meanwhile,
every call sends a part as it was read, and the parts that were stored are those that were handed over
or are on the way to the coordinator, until it hears of a failure.
-/
namespace ObjectTransfer.S3
open Crew Files

abbrev Team (σ : Type) :=
  Crew.State (World σ) Entry FilePart Sending (UploadedPart × Nat) Collection

/-- The path led here at a time when the files were as `Q` says. -/
def OpenedAs (Q : Store → Prop) (path : String) (entry : Entry) : Prop :=
  ∃ files, Q files ∧ files.openRead path = .ok entry

/-- The part was read as these bytes at a time when the files were as `Q` says. -/
def ReadAs (Q : Store → Prop) (path : String) (part : FilePart) (data : ByteArray) : Prop :=
  ∃ entry files, OpenedAs Q path entry ∧ Q files ∧ Sending.read part entry files = .ok data

/-- A part that is being uploaded is what the worker took and has read. -/
structure Prepared (Q : Store → Prop) (path : String) (part : FilePart) (t : Sending) : Prop where
  taken : t.part = part
  opened : OpenedAs Q path t.file
  read : ∀ data, t.data = some data → ReadAs Q path part data
  accepts : t.policy.accepts = Error.isRetryable

def Asked (u : Upload) (path : String) (Q : Store → Prop) (parts : List FilePart) (c : Called) : Prop :=
  ∃ part ∈ parts, ∃ data, c.call = .uploadPart u part.number data ∧ ReadAs Q path part data

/-- What a worker hands over: a part under its number, a failure named after it, or the news that the
file could not be opened. -/
inductive Fits (Q : Store → Prop) (path : String) : Parcel FilePart (UploadedPart × Nat) → Prop
  | stored {part : FilePart} {made : UploadedPart × Nat} (number : made.1.number = part.number) :
      Fits Q path ⟨some part, .ok made⟩
  | lost (part : FilePart) (e : Error) :
      Fits Q path ⟨some part, .error (.around (.chunkFailed (.upload part.number)) e)⟩
  | denied {files : Store} {fault : Fault} (q : Q files) (openRead : files.openRead path = .error fault) :
      Fits Q path ⟨none, .error (.io fault)⟩

/-- The stored parts on the way to the coordinator. -/
def uploadedOf (held : List (Holding FilePart Sending (UploadedPart × Nat))) : List UploadedPart :=
  held.filterMap fun
    | .packed ⟨_, .ok made⟩ => some made.1
    | _ => none

def receivedOf (held : List (Holding FilePart Sending (UploadedPart × Nat))) : List FilePart :=
  held.filterMap fun
    | .received part => some part
    | _ => none

/-- The number and the tag of the part that was stored by a call. -/
def Called.tagged? (c : Called) : Option (Int × Option String) := c.stored?.map fun x => (x.1, x.2.2)

/-- A stored part as its call tells of it. -/
def UploadedPart.tagged (part : UploadedPart) : Int × Option String := (part.number, some part.eTag)

/-- These calls have stored the parts that are on the way and those that were collected. Only the
failure of a part may tell of another one that was stored, without a tag. -/
def Tally (calls : List Called) (held : List (Holding FilePart Sending (UploadedPart × Nat)))
    (collected : List UploadedPart) : Prop :=
  ∃ stray, (calls.filterMap Called.tagged?).Perm
      ((uploadedOf held ++ collected).map UploadedPart.tagged ++ stray) ∧
    (stray ≠ [] → ∃ part e, .packed ⟨some part, .error e⟩ ∈ held)

/-- What the coordinator expects fits the calls that were made. -/
inductive Expects (parts : List FilePart) (calls : List Called)
    (held : List (Holding FilePart Sending (UploadedPart × Nat))) : Outlook Collection → Prop
  | collecting {d : Collection} (tally : Tally calls held d.parts)
      (received : (d.parts.map (·.number)).Perm
        ((receivedOf held).map fun part => (part.number : Int))) :
      Expects parts calls held (.collecting d)
  | complete {d : Collection}
      (tally : (calls.filterMap Called.tagged?).Perm (d.parts.map UploadedPart.tagged))
      (received : (d.parts.map (·.number)).Perm (parts.map fun part => (part.number : Int)))
      (rest : ∀ h ∈ held, (∃ part, h = .received part) ∨ ∃ e, h = .packed ⟨none, .error e⟩) :
      Expects parts calls held (.complete d)
  | lost (e : Error) : Expects parts calls held (.lost e)

/-- What holds at every moment; `before` are the calls that were made before. -/
structure Course {σ : Type} (u : Upload) (path : String) (Q : Store → Prop) (parts : List FilePart)
    (before : List Called)
    (v : View (World (Calls σ)) FilePart Sending (UploadedPart × Nat) Collection) : Prop where
  files : Q v.world.files
  known : ∀ part ∈ v.holdings.filterMap Holding.part?, part ∈ parts
  fits : ∀ parcel, .packed parcel ∈ v.holdings → Fits Q path parcel
  called : ∃ calls, v.world.peer.log = before ++ calls ∧ (∀ c ∈ calls, Asked u path Q parts c) ∧
    Expects parts calls v.holdings v.outlook

section
variable {calls more : List Called} {h h' : Holding FilePart Sending (UploadedPart × Nat)}
  {held held' : List (Holding FilePart Sending (UploadedPart × Nat))} {part : FilePart}
  {collected : List UploadedPart} {made : UploadedPart × Nat} {e : Error} {parts : List FilePart}
  {o : Outlook Collection}

theorem Tally.listed (perm : held.Perm held') (tally : Tally calls held collected) :
    Tally calls held' collected := by
  obtain ⟨stray, all, failed⟩ := tally
  refine ⟨stray, all.trans ?_, fun some => ?_⟩
  · exact (((perm.filterMap _).append_right _).map _).append_right _
  · obtain ⟨part, e, hmem⟩ := failed some
    exact ⟨part, e, perm.mem_iff.1 hmem⟩

theorem Expects.listed (perm : held.Perm held') (expects : Expects parts calls held o) :
    Expects parts calls held' o := by
  cases expects with
  | collecting tally received =>
    exact .collecting (tally.listed perm) (received.trans ((perm.filterMap _).map _))
  | complete tally received rest =>
    exact .complete tally received fun h hh => rest h (perm.mem_iff.2 hh)
  | lost e => exact .lost e

theorem tagged_append_none (silent : ∀ c ∈ more, c.tagged? = none) :
    (calls ++ more).filterMap Called.tagged? = calls.filterMap Called.tagged? := by
  rw [List.filterMap_append, List.filterMap_eq_nil_iff.2 silent, List.append_nil]

theorem Tally.silent (tally : Tally calls held collected) (silent : ∀ c ∈ more, c.tagged? = none)
    (same : uploadedOf held' = uploadedOf held)
    (failed : ∀ part e, .packed ⟨some part, .error e⟩ ∈ held → .packed ⟨some part, .error e⟩ ∈ held') :
    Tally (calls ++ more) held' collected := by
  obtain ⟨stray, all, failure⟩ := tally
  refine ⟨stray, ?_, fun some => ?_⟩
  · rw [tagged_append_none silent, same]
    exact all
  · obtain ⟨part, e, hmem⟩ := failure some
    exact ⟨part, e, failed part e hmem⟩

theorem Tally.stores {c : Called} (stored : c.tagged? = some made.1.tagged)
    (tally : Tally calls held collected) :
    Tally (calls ++ [c]) (.packed ⟨some part, .ok made⟩ :: held) collected := by
  obtain ⟨stray, all, failure⟩ := tally
  refine ⟨stray, ?_, fun some => ?_⟩
  · rw [List.filterMap_append, List.filterMap_cons_some stored, List.filterMap_nil]
    exact (List.perm_append_singleton _ _).trans (all.cons _)
  · obtain ⟨part', e, hmem⟩ := failure some
    exact ⟨part', e, .tail _ hmem⟩

theorem Tally.fails (more : List Called) (tally : Tally calls held collected) :
    Tally (calls ++ more) (.packed ⟨some part, .error e⟩ :: held) collected := by
  obtain ⟨stray, all, -⟩ := tally
  refine ⟨stray ++ more.filterMap Called.tagged?, ?_, fun _ => ⟨part, e, List.mem_cons_self⟩⟩
  rw [List.filterMap_append, ← List.append_assoc]
  exact all.append_right _

theorem Tally.accepts (tally : Tally calls (.packed ⟨some part, .ok made⟩ :: held) collected) :
    Tally calls (.received part :: held) (collected ++ [made.1]) := by
  obtain ⟨stray, all, failure⟩ := tally
  refine ⟨stray, all.trans (List.Perm.append_right _ (List.Perm.map _ ?_)), fun some => ?_⟩
  · change (made.1 :: (uploadedOf held ++ collected)).Perm (uploadedOf held ++ (collected ++ [made.1]))
    rw [← List.append_assoc]
    exact (List.perm_append_singleton _ _).symm
  · obtain ⟨part', e, hmem⟩ := failure some
    rcases List.mem_cons.1 hmem with same | hmem
    · cases same
    · exact ⟨part', e, .tail _ hmem⟩

/-- When nothing is on the way but news of workers that could not begin, everything that was stored
was collected. -/
theorem Tally.closes (rest : ∀ h ∈ held, (∃ part, h = .received part) ∨
      ∃ e, h = .packed ⟨none, .error e⟩) (tally : Tally calls held collected) :
    (calls.filterMap Called.tagged?).Perm (collected.map UploadedPart.tagged) := by
  obtain ⟨stray, all, failure⟩ := tally
  have none : uploadedOf held = [] := by
    refine List.filterMap_eq_nil_iff.2 fun h hh => ?_
    rcases rest h hh with ⟨part, rfl⟩ | ⟨e, rfl⟩
    · rfl
    · rfl
  have noStray : stray = [] := by
    by_contra some
    obtain ⟨part, e, hmem⟩ := failure some
    rcases rest _ hmem with ⟨part', same⟩ | ⟨e', same⟩
    · cases same
    · cases same
  rwa [none, noStray, List.append_nil, List.nil_append] at all

theorem receivedOf_map (parts : List FilePart) (rest : List (Holding FilePart Sending _))
    (partless : ∀ h ∈ rest, ∃ result, h = .packed ⟨none, result⟩) :
    receivedOf (parts.map .received ++ rest) = parts := by
  have none : receivedOf rest = [] := by
    refine List.filterMap_eq_nil_iff.2 fun h hh => ?_
    obtain ⟨result, rfl⟩ := partless h hh
    rfl
  have all : receivedOf (parts.map .received) = parts := by
    rw [receivedOf, List.filterMap_map]
    exact List.filterMap_some
  have both : receivedOf (parts.map .received ++ rest) =
      receivedOf (parts.map .received) ++ receivedOf rest := List.filterMap_append
  rw [both, all, none, List.append_nil]

end

namespace Course
variable {σ : Type} {u : Upload} {path : String} {Q : Store → Prop} {parts : List FilePart}
  {before : List Called} {h h' : Holding FilePart Sending (UploadedPart × Nat)}
  {held held' : List (Holding FilePart Sending (UploadedPart × Nat))} {o o' : Outlook Collection}
  {w w' : World (Calls σ)} {part : FilePart} {e : Error}

theorem start (files : Q w.files) (progress : Option Progress.Tracker) :
    Course u path Q parts w.peer.log ⟨parts.map .queued, .collecting ⟨[], 0, progress⟩, w⟩ := by
  have queued {parcel : Parcel FilePart (UploadedPart × Nat)} :
      .packed parcel ∉ parts.map (.queued : FilePart → Holding FilePart Sending _) := by
    intro h
    obtain ⟨part, -, same⟩ := List.mem_map.1 h
    cases same
  have none : uploadedOf (parts.map .queued) = [] := by
    refine List.filterMap_eq_nil_iff.2 fun h hh => ?_
    obtain ⟨part, -, rfl⟩ := List.mem_map.1 hh
    rfl
  have unreceived : receivedOf (parts.map .queued) = [] := by
    refine List.filterMap_eq_nil_iff.2 fun h hh => ?_
    obtain ⟨part, -, rfl⟩ := List.mem_map.1 hh
    rfl
  refine ⟨files, fun part hpart => ?_, fun parcel h => absurd h queued, [],
    (List.append_nil _).symm, fun _ h => (by cases h), .collecting ⟨[], ?_, fun h => absurd rfl h⟩ ?_⟩
  · obtain ⟨h, hh, same⟩ := List.mem_filterMap.1 hpart
    obtain ⟨part', hpart', rfl⟩ := List.mem_map.1 hh
    cases same
    exact hpart'
  · dsimp only
    rw [none]
    exact .refl _
  · dsimp only
    rw [unreceived]
    exact .refl _

theorem listed (perm : held.Perm held') (course : Course u path Q parts before ⟨held, o, w⟩) :
    Course u path Q parts before ⟨held', o, w⟩ where
  files := course.files
  known part hpart := course.known part ((perm.filterMap _).mem_iff.2 hpart)
  fits parcel hparcel := course.fits parcel (perm.mem_iff.2 hparcel)
  called := by
    obtain ⟨calls, log, asked, expects⟩ := course.called
    exact ⟨calls, log, asked, expects.listed perm⟩

theorem disturbed (course : Course u path Q parts before ⟨held, o, w⟩) (files : Q w'.files)
    (log : w'.peer.log = w.peer.log) :
    Course u path Q parts before ⟨held, o, w'⟩ :=
  ⟨files, course.known, course.fits, by rw [log]; exact course.called⟩

/-- Something happens to what is in hand, with more calls that upload parts. -/
theorem moved (more : List Called) (course : Course u path Q parts before ⟨held, o, w⟩)
    (known : ∀ part ∈ held'.filterMap Holding.part?, part ∈ held.filterMap Holding.part?)
    (fits : ∀ parcel, .packed parcel ∈ held' → .packed parcel ∈ held ∨ Fits Q path parcel)
    (files : w'.files = w.files) (log : w'.peer.log = w.peer.log ++ more)
    (asked : ∀ c ∈ more, Asked u path Q parts c)
    (expects : ∀ calls, Expects parts calls held o → Expects parts (calls ++ more) held' o') :
    Course u path Q parts before ⟨held', o', w'⟩ where
  files := by
    have before := course.files
    rwa [← files] at before
  known part hpart := course.known part (known part hpart)
  fits parcel hparcel := (fits parcel hparcel).elim (course.fits parcel) id
  called := by
    obtain ⟨calls, log', asked', expects'⟩ := course.called
    refine ⟨calls ++ more, ?_, fun c hc => ?_, expects calls expects'⟩
    · rw [log, log', List.append_assoc]
    · exact (List.mem_append.1 hc).elim (asked' c) (asked c)

def standing (part : FilePart) : Except Error (UploadedPart × Nat) ⊕ Sending →
    Holding FilePart Sending (UploadedPart × Nat)
  | .inr t => .working part t
  | .inl result => .packed
      ⟨some part, result.mapError fun e => .around (.chunkFailed (.upload part.number)) e⟩

theorem fits_standing {parcel : Parcel FilePart (UploadedPart × Nat)}
    {x : Except Error (UploadedPart × Nat) ⊕ Sending}
    (number : ∀ made, x = .inl (.ok made) → made.1.number = part.number)
    (h : .packed parcel = standing part x) : Fits Q path parcel := by
  rcases x with (e | made) | t
  · cases h
    exact .lost part e
  · cases h
    exact .stored (number made rfl)
  · cases h

/-- A part that is being worked on gets further, and the coordinator has not heard of it. -/
theorem worked (more : List Called) {t : Sending} {x : Except Error (UploadedPart × Nat) ⊕ Sending}
    (course : Course u path Q parts before ⟨.working part t :: held, o, w⟩)
    (number : ∀ made, x = .inl (.ok made) → made.1.number = part.number)
    (files : w'.files = w.files) (log : w'.peer.log = w.peer.log ++ more)
    (asked : ∀ c ∈ more, Asked u path Q parts c)
    (tally : ∀ calls collected, Tally calls held collected →
      Tally (calls ++ more) (standing part x :: held) collected) :
    Course u path Q parts before ⟨standing part x :: held, o, w'⟩ := by
  refine course.moved more ?_ (fun parcel hparcel => ?_) files log asked fun calls expects => ?_
  · rcases x with result | t' <;> exact fun _ h => h
  · rcases List.mem_cons.1 hparcel with same | hparcel
    · exact .inr (fits_standing number same)
    · exact .inl (.tail _ hparcel)
  · have unheard : receivedOf (standing part x :: held) = receivedOf (.working part t :: held) := by
      rcases x with result | t' <;> rfl
    cases expects with
    | collecting balance received =>
      refine .collecting (tally _ _ ?_) (by rwa [unheard])
      obtain ⟨stray, all, failure⟩ := balance
      refine ⟨stray, all, fun some => ?_⟩
      obtain ⟨part', e, hmem⟩ := failure some
      rcases List.mem_cons.1 hmem with same | hmem
      · cases same
      · exact ⟨part', e, hmem⟩
    | complete balance received rest =>
      rcases rest _ List.mem_cons_self with ⟨part', same⟩ | ⟨e, same⟩
      · cases same
      · cases same
    | lost e => exact .lost e

theorem tagged?_of_again {number : Int} {data : ByteArray} {field : String}
    {result : Except Failure (Option String)} (failed : given field result = .error e)
    (again : e.isRetryable = true) : (⟨.uploadPart u number data, result⟩ : Called).tagged? = none := by
  rcases given_eq_error failed with ⟨failure, rfl⟩ | ⟨rfl, rfl⟩
  · rfl
  · cases again

theorem goes {t : Sending} {step : (Except Error (UploadedPart × Nat) ⊕ Sending) × World (Calls σ)}
    (course : Course u path Q parts before ⟨.working part t :: held, o, w⟩)
    (prepared : Prepared Q path part t) (goes : t.Goes u w step) :
    Course u path Q parts before ⟨standing part step.1 :: held, o, step.2⟩ := by
  obtain ⟨rfl, opened, read, accepts⟩ := prepared
  have here : t.part ∈ parts :=
    course.known t.part (List.mem_filterMap.2 ⟨_, List.mem_cons_self, rfl⟩)
  have asked {data : ByteArray} {result : Except Failure (Option String)}
      (ready : t.data = some data) :
      ∀ c ∈ [(⟨.uploadPart u t.part.number data, result⟩ : Called)], Asked u path Q parts c := by
    intro c hc
    obtain rfl := List.mem_singleton.1 hc
    exact ⟨t.part, here, data, rfl, read data ready⟩
  cases goes with
  | unread fresh failed =>
    exact course.worked [] (fun _ h => (by cases h)) rfl (List.append_nil _).symm
      (fun _ h => (by cases h)) fun calls collected tally => tally.fails []
  | reads fresh outcome =>
    refine course.worked [] (x := .inr _) (fun _ h => (by cases h)) rfl (List.append_nil _).symm
      (fun _ h => (by cases h)) fun calls collected tally => ?_
    exact tally.silent (fun _ h => (by cases h)) rfl fun _ _ h => .tail _ h
  | stores ready =>
    refine course.worked [_] (x := .inl (.ok _)) (fun made same => ?_) rfl rfl (asked ready)
      fun calls collected tally => tally.stores rfl
    cases same
    rfl
  | again ready failed again =>
    obtain ⟨accepted, -⟩ := RetryPolicy.again?_eq_some again
    rw [accepts] at accepted
    refine course.worked [_] (x := .inr _) (fun _ h => (by cases h)) rfl rfl (asked ready)
      fun calls collected tally => ?_
    refine tally.silent (fun c hc => ?_) rfl fun _ _ h => .tail _ h
    obtain rfl := List.mem_singleton.1 hc
    exact tagged?_of_again failed accepted
  | fails ready failed last =>
    exact course.worked [_] (x := .inl (.error _)) (fun _ h => (by cases h)) rfl rfl (asked ready)
      fun calls collected tally => tally.fails [_]

theorem accepts {made : UploadedPart × Nat} {part : Option FilePart} {d : Collection}
    (course : Course u path Q parts before ⟨.packed ⟨part, .ok made⟩ :: held, .collecting d, w⟩) :
    Course u path Q parts before ⟨part.toList.map .received ++ held,
      .collecting (d.accept made w).1, (d.accept made w).2⟩ := by
  have same : (d.accept made w).2.files = w.files ∧ (d.accept made w).2.peer = w.peer ∧
      (d.accept made w).1.parts = d.parts ++ [made.1] := by
    obtain ⟨stored, sent, progress⟩ := d
    cases progress <;> exact ⟨rfl, rfl, rfl⟩
  obtain ⟨files, peer, collected⟩ := same
  cases course.fits _ List.mem_cons_self with
  | stored number =>
    rename_i part
    refine course.moved [] (fun _ h => h) (fun parcel hparcel => ?_) files (by rw [peer, List.append_nil])
      (fun _ h => (by cases h)) fun calls expects => ?_
    · rcases List.mem_cons.1 hparcel with same | hparcel
      · cases same
      · exact .inl (.tail _ hparcel)
    · rw [List.append_nil]
      cases expects with
      | collecting tally received =>
        refine .collecting ?_ ?_
        · rw [collected]
          exact tally.accepts
        · rw [collected, List.map_append, List.map_singleton, number]
          exact (List.perm_append_singleton _ _).trans (received.cons _)

theorem hears {part : Option FilePart} {d : Collection}
    (course : Course u path Q parts before ⟨.packed ⟨part, .error e⟩ :: held, .collecting d, w⟩) :
    Course u path Q parts before ⟨part.toList.map .received ++ held, .lost e, w⟩ := by
  refine course.moved [] (fun part' h => ?_) (fun parcel hparcel => ?_) rfl (List.append_nil _).symm
    (fun _ h => (by cases h)) fun calls _ => .lost e
  · cases part with
    | none => exact h
    | some part => exact h
  · rcases List.mem_append.1 hparcel with received | hparcel
    · obtain ⟨part', -, same⟩ := List.mem_map.1 received
      cases same
    · exact .inl (.tail _ hparcel)

theorem dropped (course : Course u path Q parts before ⟨h :: held, .lost e, w⟩) :
    Course u path Q parts before ⟨held, .lost e, w⟩ := by
  refine course.moved [] (fun part hpart => ?_) (fun parcel hparcel => .inl (.tail _ hparcel)) rfl
    (List.append_nil _).symm (fun _ h => (by cases h)) fun calls _ => .lost e
  obtain ⟨h', hh, hpart⟩ := List.mem_filterMap.1 hpart
  exact List.mem_filterMap.2 ⟨h', .tail _ hh, hpart⟩

theorem stumbles {fault : Fault} (denied : w.files.openRead path = .error fault)
    (course : Course u path Q parts before ⟨held, o, w⟩) :
    Course u path Q parts before ⟨.packed ⟨none, .error (.io fault)⟩ :: held, o, w⟩ := by
  refine course.moved [] (fun _ h => h) (fun parcel hparcel => ?_) rfl (List.append_nil _).symm
    (fun _ h => (by cases h)) fun calls expects => ?_
  · rcases List.mem_cons.1 hparcel with same | hparcel
    · cases same
      exact .inr (.denied course.files denied)
    · exact .inl hparcel
  · cases expects with
    | collecting tally received =>
      exact .collecting (tally.silent (fun _ h => (by cases h)) rfl fun _ _ h => .tail _ h) received
    | complete tally received rest =>
      rw [List.append_nil]
      refine .complete tally received fun h hh => ?_
      rcases List.mem_cons.1 hh with rfl | hh
      · exact .inr ⟨_, rfl⟩
      · exact rest h hh
    | lost e => exact .lost e

theorem takes {t : Sending} (course : Course u path Q parts before ⟨.queued part :: held, o, w⟩) :
    Course u path Q parts before ⟨.working part t :: held, o, w⟩ := by
  refine course.moved [] (fun _ h => h) (fun parcel hparcel => ?_) rfl (List.append_nil _).symm
    (fun _ h => (by cases h)) fun calls expects => ?_
  · rcases List.mem_cons.1 hparcel with same | hparcel
    · cases same
    · exact .inl (.tail _ hparcel)
  · cases expects with
    | collecting tally received =>
      refine .collecting (tally.silent (fun _ h => (by cases h)) rfl fun _ _ h => ?_) received
      rcases List.mem_cons.1 h with same | h
      · cases same
      · exact .tail _ h
    | complete tally received rest =>
      rcases rest _ List.mem_cons_self with ⟨part', same⟩ | ⟨e, same⟩
      · cases same
      · cases same
    | lost e => exact .lost e

theorem closes {d : Collection} (partless : ∀ h ∈ held, ∃ result, h = .packed ⟨none, result⟩)
    (course : Course u path Q parts before ⟨parts.map .received ++ held, .collecting d, w⟩) :
    Course u path Q parts before ⟨parts.map .received ++ held, .complete d, w⟩ := by
  have rest : ∀ h ∈ parts.map .received ++ held, (∃ part, h = .received part) ∨
      ∃ e, h = .packed ⟨none, .error e⟩ := by
    intro h hh
    rcases List.mem_append.1 hh with hh' | hh'
    · obtain ⟨part, -, rfl⟩ := List.mem_map.1 hh'
      exact .inl ⟨part, rfl⟩
    · obtain ⟨result, rfl⟩ := partless h hh'
      cases course.fits _ hh with
      | denied q openRead => exact .inr ⟨_, rfl⟩
  refine course.moved [] (fun _ h => h) (fun _ h => .inl h) rfl (List.append_nil _).symm
    (fun _ h => (by cases h)) fun calls expects => ?_
  rw [List.append_nil]
  cases expects with
  | collecting tally received =>
    rw [receivedOf_map parts held partless] at received
    exact .complete (tally.closes rest) received rest

end Course

/-- The parts have numbers that a service takes, so that every try makes its call. -/
theorem Prepared.steps {σ : Type} {u : Upload} {path : String} {Q : Store → Prop}
    {parts : List FilePart} {before : List Called} {part : FilePart} {t : Sending}
    {v : View (World (Calls σ)) FilePart Sending (UploadedPart × Nat) Collection}
    (prepared : Prepared Q path part t) (s : S3 σ)
    (valid : ∀ part ∈ parts, isPartNumber part.number = true)
    (course : Course u path Q parts before v) (here : .working part t ∈ v.holdings) :
    t.Goes u v.world (t.proceed s.observed u v.world) := by
  refine t.goes s u v.world ?_
  rw [prepared.taken]
  exact valid part (course.known part (List.mem_filterMap.2 ⟨_, here, rfl⟩))

theorem Prepared.goes {σ : Type} {u : Upload} {path : String} {Q : Store → Prop} {part : FilePart}
    {t t' : Sending} {w w' : World (Calls σ)} (prepared : Prepared Q path part t) (files : Q w.files)
    (goes : t.Goes u w (.inr t', w')) : Prepared Q path part t' := by
  obtain ⟨rfl, opened, read, accepts⟩ := prepared
  cases goes with
  | reads fresh outcome =>
    refine ⟨rfl, opened, fun data same => ?_, accepts⟩
    cases same
    exact ⟨t.file, w.files, opened, files, outcome⟩
  | again ready failed again =>
    obtain ⟨-, same, -⟩ := RetryPolicy.again?_eq_some again
    exact ⟨rfl, opened, read, same.trans accepts⟩

section
variable {σ : Type} {p : Plan} {s : S3 σ} {u : Upload} {path : String} {w w' : World σ}

theorem openRead_of_arrives {entry : Entry} (prepare : (craft p s u path).prepare w = (.ok entry, w')) :
    w.files.openRead path = .ok entry := by
  cases outcome : w.files.openRead path with
  | error fault =>
    simp only [craft, outcome] at prepare
    cases prepare
  | ok entry' =>
    simp only [craft, outcome] at prepare
    cases prepare
    rfl

theorem openRead_of_stumbles {e : Error} (prepare : (craft p s u path).prepare w = (.error e, w')) :
    ∃ fault, w.files.openRead path = .error fault ∧ e = .io fault ∧ w' = w := by
  cases outcome : w.files.openRead path with
  | error fault =>
    simp only [craft, outcome] at prepare
    cases prepare
    exact ⟨fault, rfl, rfl, rfl⟩
  | ok entry =>
    simp only [craft, outcome] at prepare
    cases prepare

theorem craft_drop (parcel : Parcel FilePart (UploadedPart × Nat)) :
    parcel.drop (craft p s u path) w = w := by
  unfold Parcel.drop
  split <;> rfl

end

/-- Everyone keeps to the course, as long as others leave the files as `Q` says. -/
theorem upkeep {σ : Type} (p : Plan) (s : S3 σ) (u : Upload) (path : String) (Q : Store → Prop)
    (parts : List FilePart) (before : List Called)
    (valid : ∀ part ∈ parts, isPartNumber part.number = true) :
    Upkeep (craft p s.observed u path) Collection.desk
      (fun w w' => ∃ files, Q files ∧ w' = w.withFiles files) parts
      (Course u path Q parts before) (OpenedAs Q path) (Prepared Q path) where
  listed := Course.listed
  disturbed := by
    rintro held o w w' ⟨files, q, rfl⟩ course
    exact course.disturbed q rfl
  prepares := by
    rintro ⟨held, o, w⟩ entry w' course prepare
    exact ⟨w.files, course.files, openRead_of_arrives prepare⟩
  begins part opened := ⟨rfl, opened, fun _ h => (by cases h), rfl⟩
  proceeds := by
    rintro ⟨held, o, w⟩ part t t' w' course here prepared proceed
    have goes := prepared.steps s valid course here
    have same : t.proceed s.observed u w = (.inr t', w') := proceed
    rw [same] at goes
    exact prepared.goes course.files goes
  changed := by
    intro v v' change prepared course
    have worked {part : FilePart} {t : Sending}
        {held : List (Holding FilePart Sending (UploadedPart × Nat))} {o : Outlook Collection}
        {w : World (Calls σ)} (prepared : Prepared Q path part t)
        (course : Course u path Q parts before ⟨.working part t :: held, o, w⟩) :
        Course u path Q parts before ⟨Course.standing part (t.proceed s.observed u w).1 :: held, o,
          (t.proceed s.observed u w).2⟩ :=
      course.goes prepared (prepared.steps s valid course List.mem_cons_self)
    cases change with
    | rests => exact course
    | arrives prepare =>
      have same := congrArg Prod.snd prepare
      cases same
      exact course
    | stumbles prepare =>
      obtain ⟨fault, outcome, rfl, rfl⟩ := openRead_of_stumbles prepare
      exact course.stumbles outcome
    | takes tool part held o w => exact course.takes
    | proceeds proceed =>
      have same : (_ : Sending).proceed s.observed u _ = (.inr _, _) := proceed
      have stands := worked (prepared List.mem_cons_self) course
      rw [same] at stands
      exact stands
    | finishes proceed =>
      have same : (_ : Sending).proceed s.observed u _ = (.inl _, _) := proceed
      have stands := worked (prepared List.mem_cons_self) course
      rw [same] at stands
      exact stands
    | abandons part t held e w => exact course.dropped
    | drops parcel held e w =>
      rw [craft_drop]
      exact course.dropped
    | accepts part made held idle => exact course.accepts
    | hears part e held idle => exact course.hears
    | files held file => cases file
    | misfiles held file => cases file
    | closes idle rest => exact course.closes rest

end ObjectTransfer.S3
