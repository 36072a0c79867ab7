import Mathlib.Logic.Relation
import ObjectTransfer.Proofs.Download.Ending
/-!
The moments of a download. It begins by asking for the size of the object and making the destination,
then its crew moves until the coordinator has returned, and at the end an unfinished destination is
removed. Whoever moves next is left open; the order in which everyone gets a turn is one of those that
are possible.
-/
namespace ObjectTransfer.Download
open Crew Files

/-- How far a download has got. -/
inductive Moment (σ : Type) where
  | begun (w : World σ)
  | fetching (object : ObjectMeta) (directory : Path) (crew : Team σ)
  | ended (result : Except Error DownloadOutput) (w : World σ)

namespace Plan
variable {σ : Type}

def opened (p : Plan) (source : RangeSource σ) (destination : String) (w : World σ) : Moment σ :=
  match source.objectMeta w with
  | (.error e, w) => .ended (.error e) w
  | (.ok object, w) =>
    let started := p.progress.map fun r => (r.tracker object.size p.partSize).start 0
    let progress := started.map (·.1)
    let w := w.report (started.map (·.2)).toList
    match w.files.create destination with
    | .error fault => .ended (.error (.io fault)) w
    | .ok (id, files) =>
      let w := w.withFiles files
      if object.size = 0 then
        .ended (.ok ⟨0, 0, object.eTag⟩) (w.report (progress.map fun t => t.finish 0).toList)
      else
        .fetching object (((w.files.locate destination).map (·.directory)).toOption.getD [])
          (p.staff object.size id progress w)

/-- How a download begins: without the size of the object or the destination it ends, and so it does with
an object of no bytes; otherwise the parts are fetched. -/
inductive Opens (p : Plan) (source : RangeSource σ) (destination : String) (w : World σ) :
    Moment σ → Prop
  | refused {e : Error} {v : World σ} (asked : source.objectMeta w = (.error e, v)) :
      Opens p source destination w (.ended (.error e) v)
  | denied {object : ObjectMeta} {v : World σ} {fault : Fault} (reports : List Progress.Report)
      (asked : source.objectMeta w = (.ok object, v))
      (denied : v.files.create destination = .error fault) :
      Opens p source destination w (.ended (.error (.io fault)) (v.report reports))
  | nothing {object : ObjectMeta} {v : World σ} {id : Nat} {files : Store}
      {started : Option (Progress.Tracker × Progress.Report)}
      (asked : source.objectMeta w = (.ok object, v))
      (tracked : started = p.progress.map fun r => (r.tracker object.size p.partSize).start 0)
      (created : v.files.create destination = .ok (id, files)) (empty : object.size = 0) :
      Opens p source destination w (.ended (.ok ⟨0, 0, object.eTag⟩)
        (((v.report (started.map (·.2)).toList).withFiles files).report
          ((started.map (·.1)).map fun t => t.finish 0).toList))
  | fetches {object : ObjectMeta} {v : World σ} {id : Nat} {files : Store} (directory : Path)
      {started : Option (Progress.Tracker × Progress.Report)}
      (asked : source.objectMeta w = (.ok object, v))
      (tracked : started = p.progress.map fun r => (r.tracker object.size p.partSize).start 0)
      (created : v.files.create destination = .ok (id, files)) (some : object.size ≠ 0) :
      Opens p source destination w (.fetching object directory (p.staff object.size id
        (started.map (·.1)) ((v.report (started.map (·.2)).toList).withFiles files)))

def closed (p : Plan) (destination : String) (object : ObjectMeta) (w : World σ) :
    Except Error Assembly → Except Error DownloadOutput × World σ
  | .error e => (.error e, removeDestination destination w)
  | .ok assembly =>
    (.ok ⟨object.size, (Part.split object.size p.partSize).length, object.eTag⟩,
      w.report (assembly.progress.map fun t => t.finish object.size).toList)

/-- The crew as it is after everyone took turns, as often as a download allows. -/
def worked (p : Plan) (source : RangeSource σ) (object : ObjectMeta) (directory : Path)
    (crew : Team σ) : Team σ :=
  crew.run (craft p source directory) Assembly.desk
    (p.rounds object.size (Part.split object.size p.partSize).length)

/-- What comes of a moment when everyone takes turns. -/
def outcome (p : Plan) (source : RangeSource σ) (destination : String) :
    Moment σ → Option (Except Error DownloadOutput × World σ)
  | .begun _ => none
  | .fetching object directory crew =>
    (p.worked source object directory crew).result?.map
      (p.closed destination object (p.worked source object directory crew).world)
  | .ended result w => some (result, w)

end Plan

inductive Moment.Next {σ : Type} (p : Plan) (source : RangeSource σ) (destination : String) :
    Moment σ → Moment σ → Prop
  | opens (w : World σ) : Next p source destination (.begun w) (p.opened source destination w)
  | moves {object : ObjectMeta} {directory : Path} {m : Move} {crew crew' : Team σ}
      (step : crew.step (craft p source directory) Assembly.desk m = some crew') :
      Next p source destination (.fetching object directory crew) (.fetching object directory crew')
  | closes {object : ObjectMeta} {directory : Path} {result : Except Error Assembly} {crew : Team σ}
      (returned : crew.phase = .returned result) :
      Next p source destination (.fetching object directory crew)
        (.ended (p.closed destination object crew.world result).1
          (p.closed destination object crew.world result).2)

/-- Whatever happens next, the download comes to an end, and then it is as `Q` says. -/
inductive Moment.Leads {σ : Type} (p : Plan) (source : RangeSource σ) (destination : String)
    (Q : Except Error DownloadOutput → World σ → Prop) : Moment σ → Prop
  | ended {result : Except Error DownloadOutput} {w : World σ} (h : Q result w) :
      Leads p source destination Q (.ended result w)
  | goesOn {m : Moment σ} (some : ∃ n, Moment.Next p source destination m n)
      (all : ∀ n, Moment.Next p source destination m n → Leads p source destination Q n) :
      Leads p source destination Q m

variable {σ : Type} {p : Plan} {source : RangeSource σ} {destination : String} {w w' : World σ}
  {Q : Except Error DownloadOutput → World σ → Prop}

theorem Plan.opens (p : Plan) (source : RangeSource σ) (destination : String) (w : World σ) :
    p.Opens source destination w (p.opened source destination w) := by
  unfold Plan.opened
  rcases asked : source.objectMeta w with ⟨result, v⟩
  cases result with
  | error e => exact .refused asked
  | ok object =>
    dsimp only
    have files (reports : List Progress.Report) : (v.report reports).files = v.files := rfl
    rw [files]
    cases created : v.files.create destination with
    | error fault => exact .denied _ asked created
    | ok made =>
      obtain ⟨id, files⟩ := made
      dsimp only
      by_cases empty : object.size = 0
      · rw [if_pos empty]
        exact .nothing asked rfl created empty
      · rw [if_neg empty]
        exact .fetches _ asked rfl created empty

/-- A download is these moments one after the other, with everyone taking turns in between. -/
theorem Plan.transfer_eq (p : Plan) (source : RangeSource σ) (destination : String) (w : World σ) :
    p.transfer source destination w =
      p.outcome source destination (p.opened source destination w) := by
  unfold Plan.transfer Plan.opened
  rcases source.objectMeta w with ⟨inspected, v⟩
  cases inspected with
  | error e => rfl
  | ok object =>
    dsimp only
    cases (v.report ((p.progress.map fun r =>
      (r.tracker object.size p.partSize).start 0).map (·.2)).toList).files.create destination with
    | error fault => rfl
    | ok made =>
      dsimp only
      by_cases empty : object.size = 0
      · rw [if_pos empty, if_pos empty]
        rfl
      · rw [if_neg empty, if_neg empty]
        refine congrArg (Option.map · _) (funext fun result => ?_)
        cases result with
        | error e => rfl
        | ok assembly => rfl

theorem Moment.path_of_reaches {object : ObjectMeta} {directory : Path} {crew crew' : Team σ}
    {past : List (Event Part)}
    (reached : Crew.State.Reaches (craft p source directory) Assembly.desk crew past crew') :
    Relation.ReflTransGen (Moment.Next p source destination) (.fetching object directory crew)
      (.fetching object directory crew') := by
  induction reached with
  | start => exact .refl
  | step before step ih => exact ih.tail (.moves step)

theorem Moment.staffed_of_path {object : ObjectMeta} {directory : Path} {crew : Team σ}
    (path : Relation.ReflTransGen (Moment.Next p source destination) (.begun w)
      (.fetching object directory crew)) :
    object.size ≠ 0 ∧ ∃ id progress v past, Crew.State.Reaches (craft p source directory)
      Assembly.desk (p.staff object.size id progress v) past crew := by
  generalize reached : Moment.fetching object directory crew = m at path
  induction path generalizing object directory crew with
  | refl => cases reached
  | tail before next ih =>
    cases next with
    | opens v =>
      have opens := p.opens source destination v
      rw [← reached] at opens
      cases opens with
      | fetches directory asked tracked created filled => exact ⟨filled, _, _, _, [], .start⟩
    | moves step =>
      cases reached
      obtain ⟨filled, id, progress, v, past, reaches⟩ := ih rfl
      exact ⟨filled, id, progress, v, _, reaches.step step⟩
    | closes returned => cases reached

/-- What a download returns is what it comes to in one of the orders in which everyone can move. -/
theorem Plan.transfer_path {result : Except Error DownloadOutput}
    (h : p.transfer source destination w = some (result, w')) :
    Relation.ReflTransGen (Moment.Next p source destination) (.begun w) (.ended result w') := by
  rw [transfer_eq] at h
  refine .head (.opens w) ?_
  cases opened : p.opened source destination w with
  | begun v =>
    rw [opened] at h
    cases h
  | ended result' v =>
    rw [opened] at h
    cases h
    exact .refl
  | fetching object directory crew =>
    rw [opened] at h
    obtain ⟨returned, ended, closed⟩ := Option.map_eq_some_iff.1 h
    have begun : Crew.State.Reaches (craft p source directory) Assembly.desk crew [] crew := .start
    obtain ⟨past, worked⟩ := begun.run (p.rounds object.size (Part.split object.size p.partSize).length)
    have phase := Crew.State.phase_of_result? ended
    have closes : Moment.Next p source destination
        (.fetching object directory (p.worked source object directory crew)) _ := .closes phase
    rw [closed] at closes
    exact (Moment.path_of_reaches worked).tail closes

theorem Plan.download_path {result : Except Error DownloadOutput}
    (h : p.download source destination w = some (result, w')) : ∃ v,
    Relation.ReflTransGen (Moment.Next p source destination)
      (.begun { w with metrics := w.metrics.initiate }) (.ended result v) ∧
    w' = { v with metrics := v.metrics.record result (result.toOption.elim 0 (·.size)) } := by
  obtain ⟨⟨result', v⟩, transfer, same⟩ := Option.map_eq_some_iff.1 h
  refine ⟨v, ?_⟩
  cases result' with
  | ok out =>
    cases same
    exact ⟨transfer_path transfer, rfl⟩
  | error e =>
    cases same
    exact ⟨transfer_path transfer, rfl⟩

end ObjectTransfer.Download
