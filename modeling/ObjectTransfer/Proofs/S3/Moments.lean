import ObjectTransfer.Proofs.Crew.Likeness
import ObjectTransfer.Proofs.S3.Course
/-!
The moments of an upload in parts. It begins by measuring the file and initiating the upload, then its
crew moves and others may change files until the coordinator has returned, and at the end the upload is
completed or given up. Whoever moves next is left open; the order in which everyone gets a turn is one
of those that are possible.
-/
namespace ObjectTransfer.S3
open Crew Files

/-- How far an upload has got. At the end there is also the size of the file. -/
inductive Moment (σ : Type) where
  | begun (w : World σ)
  | uploading (u : Upload) (size : Nat) (crew : Team σ)
  | ended (result : Except Error (Completed × Nat)) (w : World σ)

namespace Plan
variable {σ : Type}

def staff (p : Plan) (parts : List FilePart) (size : Nat) (w : World σ) : Team σ :=
  let started := p.progress.map fun r => (r.tracker size p.partSize).start 0
  .initial parts p.workers ⟨[], 0, started.map (·.1)⟩ (w.report (started.map (·.2)).toList)

def opened (p : Plan) (s : S3 σ) (path : String) (d : Description) (w : World σ) : Moment σ :=
  if p.partSize < minUploadPart then .ended (.error (.invalid (.partSizeTooSmall p.partSize))) w
  else
    match w.files.size path with
    | .error fault => .ended (.error (.io fault)) w
    | .ok size =>
      match FilePart.split size p.partSize with
      | .error e => .ended (.error e) w
      | .ok parts =>
        match s.initiate d w with
        | (.error e, w) => .ended (.error e) w
        | (.ok u, w) => .uploading u size (p.staff parts size w)

/-- How an upload begins: when it cannot be made or initiated it ends, otherwise its parts are uploaded. -/
inductive Opens (p : Plan) (s : S3 σ) (path : String) (d : Description) (w : World σ) : Moment σ → Prop
  | refused (e : Error) : Opens p s path d w (.ended (.error e) w)
  | uninitiated {e : Error} {v : World σ} (asked : s.initiate d w = (.error e, v)) :
      Opens p s path d w (.ended (.error e) v)
  | uploads {u : Upload} {size : Nat} {parts : List FilePart} {v : World σ}
      (large : minUploadPart ≤ p.partSize) (measured : w.files.size path = .ok size)
      (split : FilePart.split size p.partSize = .ok parts) (asked : s.initiate d w = (.ok u, v)) :
      Opens p s path d w (.uploading u size (p.staff parts size v))

def finished (p : Plan) (s : S3 σ) (u : Upload) (size : Nat) :
    Except Error Completed × World σ → Except Error (Completed × Nat) × World σ
  | (.ok completed, w) => (.ok (completed, size), w)
  | (.error e, w) => (.error e, p.giveUp s u w)

def closed (p : Plan) (s : S3 σ) (u : Upload) (size : Nat) (w : World σ) :
    Except Error Collection → Except Error (Completed × Nat) × World σ
  | .error e => (.error e, p.giveUp s u w)
  | .ok collection =>
    let reports := (collection.progress.map fun t => t.finish collection.sent).toList
    p.finished s u size (s.complete u collection.parts (w.report reports))

/-- The crew as it is after everyone took turns, as often as an upload allows. -/
def worked (p : Plan) (s : S3 σ) (u : Upload) (path : String) (crew : Team σ) : Team σ :=
  crew.run (craft p s u path) Collection.desk (p.rounds crew.total)

/-- What comes of a moment when everyone takes turns. -/
def outcome (p : Plan) (s : S3 σ) (path : String) :
    Moment σ → Option (Except Error (Completed × Nat) × World σ)
  | .begun _ => none
  | .uploading u size crew =>
    (p.worked s u path crew).result?.map (p.closed s u size (p.worked s u path crew).world)
  | .ended result w => some (result, w)

end Plan

/-- What can happen next, and what the coordinator hears then; others leave the files as `Q` says. -/
inductive Moment.Next {σ : Type} (p : Plan) (s : S3 σ) (path : String) (d : Description)
    (Q : Store → Prop) : Moment σ → List (Parcel FilePart (UploadedPart × Nat)) → Moment σ → Prop
  | opens (w : World σ) : Next p s path d Q (.begun w) [] (p.opened s path d w)
  | moves {u : Upload} {size : Nat} {m : Move} {crew crew' : Team σ}
      (step : crew.step (craft p s u path) Collection.desk m = some crew') :
      Next p s path d Q (.uploading u size crew) (crew.heard Collection.desk m)
        (.uploading u size crew')
  | disturbed {u : Upload} {size : Nat} {crew : Team σ} {files : Store} (q : Q files) :
      Next p s path d Q (.uploading u size crew) []
        (.uploading u size { crew with world := crew.world.withFiles files })
  | closes {u : Upload} {size : Nat} {result : Except Error Collection} {crew : Team σ}
      (returned : crew.phase = .returned result) :
      Next p s path d Q (.uploading u size crew) []
        (.ended (p.closed s u size crew.world result).1 (p.closed s u size crew.world result).2)

/-- The moments that can come, with what the coordinator has heard until then, oldest first. -/
inductive Moment.Comes {σ : Type} (p : Plan) (s : S3 σ) (path : String) (d : Description)
    (Q : Store → Prop) (w : World σ) :
    List (Parcel FilePart (UploadedPart × Nat)) → Moment σ → Prop
  | start : Comes p s path d Q w [] (.begun w)
  | next {heard more : List (Parcel FilePart (UploadedPart × Nat))} {m n : Moment σ}
      (before : Comes p s path d Q w heard m) (next : Next p s path d Q m more n) :
      Comes p s path d Q w (heard ++ more) n

namespace Plan
variable {σ : Type}

theorem opens (p : Plan) (s : S3 σ) (path : String) (d : Description) (w : World σ) :
    p.Opens s path d w (p.opened s path d w) := by
  unfold opened
  by_cases small : p.partSize < minUploadPart
  · rw [if_pos small]
    exact .refused _
  · rw [if_neg small]
    cases measured : w.files.size path with
    | error fault => exact .refused _
    | ok size =>
      dsimp only
      cases split : FilePart.split size p.partSize with
      | error e => exact .refused _
      | ok parts =>
        dsimp only
        rcases asked : s.initiate d w with ⟨result, v⟩
        cases result with
        | error e => exact .uninitiated asked
        | ok u => exact .uploads (Nat.le_of_not_lt small) measured split asked

/-- An upload is these moments one after the other, with everyone taking turns in between. -/
theorem transfer_eq (p : Plan) (s : S3 σ) (path : String) (d : Description) (w : World σ) :
    p.transfer s path d w = p.outcome s path (p.opened s path d w) := by
  unfold transfer opened
  split
  · rfl
  · cases w.files.size path with
    | error fault => rfl
    | ok size =>
      dsimp only
      cases FilePart.split size p.partSize with
      | error e => rfl
      | ok parts =>
        dsimp only
        rcases s.initiate d w with ⟨result, v⟩
        cases result with
        | error e => rfl
        | ok u =>
          have total : (p.staff parts size v).total = parts.length := rfl
          dsimp only
          unfold uploadAll uploadParts outcome worked
          dsimp only
          rw [total, staff, Option.map_map, Option.map_map]
          refine congrArg (Option.map · _) (funext fun result => ?_)
          cases result with
          | error e => rfl
          | ok collection =>
            simp only [Function.comp_apply, closed]
            generalize s.complete u collection.parts _ = answer
            obtain ⟨result, v'⟩ := answer
            cases result with
            | ok completed => rfl
            | error e => rfl

theorem alike (p : Plan) (s : S3 σ) (u : Upload) (path : String) :
    Alike unwatched (craft p s.observed u path) Collection.desk (craft p s u path)
      Collection.desk where
  prepare w := rfl
  chunk := rfl
  begin := rfl
  proceed := Sending.proceed_unwatched s u
  abandon t w := rfl
  discard b w := rfl
  accept b d w := by
    obtain ⟨parts, sent, progress⟩ := d
    cases progress <;> rfl
  file d w := rfl
  drop d w := rfl
  deserted := rfl
  drains := rfl

theorem giveUp_unwatched (p : Plan) (s : S3 σ) (u : Upload) (w : World (Calls σ)) :
    p.giveUp s u (unwatched w) = unwatched (p.giveUp s.observed u w) := by
  unfold giveUp
  cases p.onFailure <;> rfl

theorem closed_unwatched (p : Plan) (s : S3 σ) (u : Upload) (size : Nat) (w : World (Calls σ))
    (result : Except Error Collection) :
    p.closed s u size (unwatched w) result =
      (p.closed s.observed u size w result).map id unwatched := by
  cases result with
  | error e => exact congrArg (Prod.mk _) (p.giveUp_unwatched s u w)
  | ok collection =>
    have same := complete_unwatched s u collection.parts
      (w.report (collection.progress.map fun t => t.finish collection.sent).toList)
    have reported : p.closed s u size (unwatched w) (.ok collection) =
        p.finished s u size (s.complete u collection.parts (unwatched
          (w.report (collection.progress.map fun t => t.finish collection.sent).toList))) := rfl
    rw [reported, same, closed]
    generalize s.observed.complete u collection.parts _ = answer
    obtain ⟨result, v⟩ := answer
    cases result with
    | ok completed => rfl
    | error e => exact congrArg (Prod.mk _) (p.giveUp_unwatched s u v)

end Plan

/-- What a crew gets to among others are moments that can come. -/
theorem Moment.Comes.works {σ : Type} {p : Plan} {s : S3 σ} {path : String} {d : Description}
    {Q : Store → Prop} {w : World σ} {u : Upload} {size : Nat} {crew crew' : Team σ}
    {heard more : List (Parcel FilePart (UploadedPart × Nat))}
    (comes : Moment.Comes p s path d Q w heard (.uploading u size crew))
    (works : State.Works (craft p s u path) Collection.desk
      (fun w w' => ∃ files, Q files ∧ w' = w.withFiles files) crew more crew') :
    Moment.Comes p s path d Q w (heard ++ more) (.uploading u size crew') := by
  induction works with
  | start => rwa [List.append_nil]
  | moves before step ih =>
    rw [← List.append_assoc]
    exact ih.next (.moves step)
  | disturbed before others ih =>
    obtain ⟨files, q, rfl⟩ := others
    have later := ih.next (.disturbed q)
    rwa [List.append_nil] at later

/-- A crew that uploads the parts of a file was staffed for them, and others left the files as `Q` says. -/
theorem Moment.Comes.staffed {σ : Type} {p : Plan} {s : S3 σ} {path : String} {d : Description}
    {Q : Store → Prop} {w : World σ} {u : Upload} {size : Nat} {crew : Team σ}
    {heard : List (Parcel FilePart (UploadedPart × Nat))}
    (comes : Moment.Comes p s path d Q w heard (.uploading u size crew)) :
    minUploadPart ≤ p.partSize ∧ ∃ parts v heard', FilePart.split size p.partSize = .ok parts ∧
      State.Works (craft p s u path) Collection.desk
        (fun w w' => ∃ files, Q files ∧ w' = w.withFiles files) (p.staff parts size v) heard' crew := by
  generalize reached : Moment.uploading u size crew = m at comes
  induction comes generalizing u size crew with
  | start => cases reached
  | next before next ih =>
    cases next with
    | opens v =>
      have opens := p.opens s path d v
      rw [← reached] at opens
      cases opens with
      | uploads large measured split asked => exact ⟨large, _, _, [], split, .start⟩
    | moves step =>
      cases reached
      obtain ⟨large, parts, v, heard', split, works⟩ := ih rfl
      exact ⟨large, parts, v, _, split, works.moves step⟩
    | disturbed q =>
      cases reached
      obtain ⟨large, parts, v, heard', split, works⟩ := ih rfl
      exact ⟨large, parts, v, heard', split, works.disturbed ⟨_, q, rfl⟩⟩
    | closes returned => cases reached

/-- What an upload returns is what it comes to in one of the orders in which everyone can move. -/
theorem Plan.transfer_comes {σ : Type} {p : Plan} {s : S3 σ} {path : String} {d : Description}
    {w w' : World σ} {result : Except Error (Completed × Nat)} (Q : Store → Prop)
    (h : p.transfer s path d w = some (result, w')) :
    ∃ heard, Moment.Comes p s path d Q w heard (.ended result w') := by
  rw [transfer_eq] at h
  have comes : Moment.Comes p s path d Q w [] (p.opened s path d w) := .next .start (.opens w)
  cases opened : p.opened s path d w with
  | begun v =>
    rw [opened] at h
    cases h
  | ended result' v =>
    rw [opened] at h comes
    cases h
    exact ⟨_, comes⟩
  | uploading u size crew =>
    rw [opened] at h comes
    obtain ⟨returned, ended, closed⟩ := Option.map_eq_some_iff.1 h
    have begun : State.Reaches (craft p s u path) Collection.desk crew [] crew := .start
    obtain ⟨past, reached⟩ := begun.run (p.rounds crew.total)
    obtain ⟨heard, works⟩ := reached.works
    have last := (comes.works works).next (.closes (Crew.State.phase_of_result? ended))
    exact ⟨_, closed ▸ last⟩

theorem Plan.upload_path {σ : Type} {p : Plan} {s : S3 σ} {path : String} {d : Description}
    {w w' : World σ} {result : Except Error Completed} (Q : Store → Prop)
    (h : p.upload s path d w = some (result, w')) : ∃ heard result' v,
    Moment.Comes p s path d Q { w with metrics := w.metrics.initiate } heard (.ended result' v) ∧
    result = result'.map (·.1) ∧
    w' = { v with metrics := v.metrics.record result' (result'.toOption.elim 0 (·.2)) } := by
  obtain ⟨⟨result', v⟩, transfer, same⟩ := Option.map_eq_some_iff.1 h
  obtain ⟨heard, comes⟩ := transfer_comes Q transfer
  refine ⟨heard, result', v, comes, ?_⟩
  cases result' with
  | ok made =>
    cases same
    exact ⟨rfl, rfl⟩
  | error e =>
    cases same
    exact ⟨rfl, rfl⟩

def Moment.unwatched {σ : Type} : Moment (Calls σ) → Moment σ
  | .begun w => .begun (S3.unwatched w)
  | .uploading u size crew => .uploading u size (crew.through S3.unwatched)
  | .ended result w => .ended result (S3.unwatched w)

namespace Plan
variable {σ : Type}

theorem opened_unwatched (p : Plan) (s : S3 σ) (path : String) (d : Description)
    (w : World (Calls σ)) :
    p.opened s path d (unwatched w) = (p.opened s.observed path d w).unwatched := by
  have same := initiate_unwatched s d w
  unfold opened
  rw [same, unwatched_files]
  split
  · rfl
  · cases w.files.size path with
    | error fault => rfl
    | ok size =>
      dsimp only
      cases FilePart.split size p.partSize with
      | error e => rfl
      | ok parts =>
        dsimp only
        rcases s.observed.initiate d w with ⟨result, v⟩
        cases result with
        | error e => rfl
        | ok u => rfl

theorem outcome_unwatched (p : Plan) (s : S3 σ) (path : String) (m : Moment (Calls σ)) :
    p.outcome s path m.unwatched = (p.outcome s.observed path m).map (Prod.map id unwatched) := by
  cases m with
  | begun w => rfl
  | ended result w => rfl
  | uploading u size crew =>
    have worked : p.worked s u path (crew.through S3.unwatched) =
        (p.worked s.observed u path crew).through S3.unwatched := (p.alike s u path).run _ crew
    rw [Moment.unwatched, outcome, worked, outcome, Option.map_map]
    refine congrArg (Option.map · _) (funext fun result => ?_)
    exact p.closed_unwatched s u size _ result

theorem upload_unwatched (p : Plan) (s : S3 σ) (path : String) (d : Description) (w : World σ) :
    p.upload s path d w =
      (p.upload s.observed path d (watched w)).map (Prod.map id unwatched) := by
  have same := p.outcome_unwatched s path
    (p.opened s.observed path d (watched { w with metrics := w.metrics.initiate }))
  rw [← p.opened_unwatched, ← transfer_eq, ← transfer_eq, unwatched_watched] at same
  simp only [upload]
  rw [same, Option.map_map, Option.map_map]
  rfl

end Plan

end ObjectTransfer.S3
