import ObjectTransfer.Proofs.Crew.Likeness
import ObjectTransfer.Proofs.Download.Moments
/-!
Downloads that are watched. Noting what is asked for changes nothing: a download from the source itself
returns the same, and leaves the same files behind.
-/
namespace ObjectTransfer.Download
open Crew Files
variable {σ : Type}

def watched (w : World σ) : World (Fetches σ) :=
  ⟨⟨w.peer, []⟩, w.files, w.reports, w.pauses, w.metrics⟩

def unwatched (w : World (Fetches σ)) : World σ :=
  ⟨w.peer.peer, w.files, w.reports, w.pauses, w.metrics⟩

@[simp] theorem unwatched_files (w : World (Fetches σ)) : (unwatched w).files = w.files := rfl

@[simp] theorem unwatched_watched (w : World σ) : unwatched (watched w) = w := rfl

theorem objectMeta_unwatched (source : RangeSource σ) (w : World (Fetches σ)) :
    source.objectMeta (unwatched w) = (source.observed.objectMeta w).map id unwatched := rfl

theorem getRange_unwatched (source : RangeSource σ) (range : Http.ByteRange) (w : World (Fetches σ)) :
    source.getRange range (unwatched w) = (source.observed.getRange range w).map id unwatched := rfl

theorem Fetch.failed_unwatched (f : Fetch) (e : Error) (w : World (Fetches σ)) :
    f.failed e (unwatched w) = (f.failed e w).map id unwatched := by
  unfold Fetch.failed
  cases f.policy.again? e with
  | none => rfl
  | some policy => rfl

theorem Fetch.store_unwatched (file : Nat) (items : List (Except Cause ByteArray)) (written : Nat)
    (w : World (Fetches σ)) :
    store file items written (unwatched w) = (store file items written w).map id unwatched := by
  induction items generalizing written w with
  | nil => rfl
  | cons item items ih =>
    cases item with
    | error cause => rfl
    | ok chunk => exact ih (written + chunk.size) (w.withFiles (w.files.append file chunk))

theorem Fetch.proceed_unwatched (source : RangeSource σ) (directory : Path) (f : Fetch)
    (w : World (Fetches σ)) :
    f.proceed source directory (unwatched w) =
      (f.proceed source.observed directory w).map id unwatched := by
  obtain ⟨part, policy, answer⟩ := f
  cases answer with
  | none =>
    rcases temporary : w.files.addTemporary directory (".part-" ++ toString part.index ++ "-") with
      ⟨path, file, files⟩
    have temporary' : (unwatched w).files.addTemporary directory
      (".part-" ++ toString part.index ++ "-") = (path, file, files) := temporary
    have same := getRange_unwatched source part.range (w.withFiles files)
    rcases asked : source.observed.getRange part.range (w.withFiles files) with ⟨result, v⟩
    rw [asked] at same
    cases result with
    | error e =>
      rw [proceed_refused temporary asked, proceed_refused temporary' same]
      exact failed_unwatched _ e (v.withFiles (v.files.forget path))
    | ok body => rw [proceed_given temporary asked, proceed_given temporary' same]; rfl
  | some answer =>
    obtain ⟨path, file, items⟩ := answer
    have stored := store_unwatched file items 0 w
    unfold Fetch.proceed
    dsimp only
    rw [stored]
    rcases store file items 0 w with ⟨result, v⟩
    cases result with
    | error e => exact failed_unwatched _ e (v.withFiles (v.files.forget path))
    | ok written =>
      by_cases whole : written = part.size
      · simp only [Prod.map, id_eq, whole, if_true]
      · simp only [Prod.map, id_eq, if_neg whole]
        exact failed_unwatched _ _ (v.withFiles (v.files.forget path))

theorem Assembly.file_unwatched (a : Assembly) (w : World (Fetches σ)) :
    a.file (unwatched w) = (a.file w).map (Prod.map id unwatched) := by
  obtain ⟨destination, written, waiting, appending, progress⟩ := a
  cases appending with
  | some appending =>
    obtain ⟨part, file, copied⟩ := appending
    unfold Assembly.file
    rw [unwatched_files]
    dsimp only
    by_cases through : ((w.files.content file).read copied pieceSize).size = 0
    · rw [if_pos through, if_pos through]
      cases progress <;> rfl
    · rw [if_neg through, if_neg through]
      cases w.files.refusal? destination with
      | some fault => rfl
      | none => rfl
  | none =>
    simp only [Assembly.file, unwatched_files]
    rcases waiting.pop with ⟨first, waiting'⟩
    cases first with
    | none => rfl
    | some first =>
      dsimp only
      rcases w.files.entries.lookup first.2.path with _ | (file | _)
      · rfl
      · rfl
      · rfl

theorem Plan.alike (p : Plan) (source : RangeSource σ) (directory : Path) :
    Alike unwatched (craft p source.observed directory) Assembly.desk (craft p source directory)
      Assembly.desk where
  prepare w := rfl
  chunk := rfl
  begin := rfl
  proceed := Fetch.proceed_unwatched source directory
  abandon f w := by
    obtain ⟨part, policy, answer⟩ := f
    cases answer with
    | none => rfl
    | some answer => rfl
  discard b w := rfl
  accept b d w := rfl
  file := Assembly.file_unwatched
  drop d w := rfl
  deserted := rfl
  drains := rfl

def Moment.unwatched : Moment (Fetches σ) → Moment σ
  | .begun w => .begun (Download.unwatched w)
  | .fetching object directory crew => .fetching object directory (crew.through Download.unwatched)
  | .ended result w => .ended result (Download.unwatched w)

theorem Plan.opened_unwatched (p : Plan) (source : RangeSource σ) (destination : String)
    (w : World (Fetches σ)) :
    p.opened source destination (unwatched w) =
      (p.opened source.observed destination w).unwatched := by
  have same := objectMeta_unwatched source w
  unfold Plan.opened
  rw [same]
  rcases source.observed.objectMeta w with ⟨result, v⟩
  cases result with
  | error e => rfl
  | ok object =>
    dsimp only [Prod.map, id_eq]
    have files (reports : List Progress.Report) :
        ((unwatched v).report reports).files = (v.report reports).files := rfl
    rw [files]
    cases (v.report ((p.progress.map fun r =>
      (r.tracker object.size p.partSize).start 0).map (·.2)).toList).files.create destination with
    | error fault => rfl
    | ok made =>
      dsimp only
      by_cases empty : object.size = 0
      · rw [if_pos empty, if_pos empty]
        rfl
      · rw [if_neg empty, if_neg empty]
        rfl

theorem Plan.closed_unwatched (p : Plan) (destination : String) (object : ObjectMeta)
    (w : World (Fetches σ)) (result : Except Error Assembly) :
    p.closed destination object (unwatched w) result =
      (p.closed destination object w result).map id unwatched := by
  cases result with
  | ok a => rfl
  | error e =>
    have removed : removeDestination destination (unwatched w) =
        unwatched (removeDestination destination w) := by
      unfold removeDestination
      rw [unwatched_files]
      cases w.files.remove destination with
      | error fault => rfl
      | ok files => rfl
    rw [closed, removed]
    rfl

theorem Plan.outcome_unwatched (p : Plan) (source : RangeSource σ) (destination : String)
    (m : Moment (Fetches σ)) :
    p.outcome source destination m.unwatched =
      (p.outcome source.observed destination m).map (Prod.map id unwatched) := by
  cases m with
  | begun w => rfl
  | ended result w => rfl
  | fetching object directory crew =>
    have worked : p.worked source object directory (crew.through Download.unwatched) =
        (p.worked source.observed object directory crew).through Download.unwatched :=
      (p.alike source directory).run _ crew
    rw [Moment.unwatched, outcome, worked, outcome, Option.map_map]
    refine congrArg (Option.map · _) (funext fun result => ?_)
    exact p.closed_unwatched destination object _ result

theorem Plan.transfer_unwatched (p : Plan) (source : RangeSource σ) (destination : String)
    (w : World (Fetches σ)) : p.transfer source destination (unwatched w) =
      (p.transfer source.observed destination w).map (Prod.map id unwatched) := by
  rw [transfer_eq, transfer_eq, opened_unwatched, outcome_unwatched]

theorem Plan.download_unwatched (p : Plan) (source : RangeSource σ) (destination : String)
    (w : World σ) : p.download source destination w =
      (p.download source.observed destination (watched w)).map (Prod.map id unwatched) := by
  have same := p.transfer_unwatched source destination
    (watched { w with metrics := w.metrics.initiate })
  rw [unwatched_watched] at same
  simp only [Plan.download]
  rw [same, Option.map_map, Option.map_map]
  rfl

end ObjectTransfer.Download
