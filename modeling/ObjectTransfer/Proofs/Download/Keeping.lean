import ObjectTransfer.Proofs.Crew.Keeping
import ObjectTransfer.Proofs.Download.Unwatched
/-!
What a download keeps of the world. Besides asking its source it writes files, makes reports and pauses;
what none of this changes is the same at every moment, whoever moves next.
-/
namespace ObjectTransfer.Download
open Crew Files
variable {σ : Type}

/-- How putting away goes on: a piece of the part is copied, or the part is through, or the next one is
opened, unless the destination refuses the piece or the staging file is not there. -/
inductive Assembly.Goes (a : Assembly) (w : World σ) : Except Error Assembly → World σ → Prop
  | copies {part : Staged} {id copied : Nat} (appending : a.appending = some (part, id, copied))
      (n : Nat) (files : Store) :
      Goes a w (.ok { a with appending := some (part, id, copied + n) }) (w.withFiles files)
  | completes {part : Staged} {id copied : Nat} (appending : a.appending = some (part, id, copied)) :
      Goes a w (.ok (a.completed part w).1) (a.completed part w).2
  | opens {part : Staged} {rest : List (Nat × Staged)} {id : Nat} (idle : a.appending = none)
      (held : a.waiting.held = (a.waiting.next, part) :: rest) :
      Goes a w (.ok { a with waiting := ⟨a.waiting.next + 1, rest⟩, appending := some (part, id, 0) }) w
  | fails (e : Error) : Goes a w (.error e) w

theorem Assembly.goes_of_file {a : Assembly} {w w' : World σ} {result : Except Error Assembly}
    (file : a.file w = some (result, w')) : a.Goes w result w' := by
  obtain ⟨destination, written, ⟨next, held⟩, appending, progress⟩ := a
  cases appending with
  | some appending =>
    obtain ⟨part, id, copied⟩ := appending
    unfold Assembly.file at file
    dsimp only at file
    by_cases through : ((w.files.content id).read copied Assembly.pieceSize).size = 0
    · rw [if_pos through] at file
      cases file
      exact .completes rfl
    · rw [if_neg through] at file
      split at file
      · cases file
        exact .fails _
      · cases file
        exact .copies rfl _ _
  | none =>
    unfold Assembly.file Sequencer.pop at file
    dsimp only at file
    cases held with
    | nil => cases file
    | cons x rest =>
      obtain ⟨n, part⟩ := x
      dsimp only at file
      by_cases turn : n = next
      · subst turn
        rw [if_pos rfl] at file
        dsimp only at file
        split at file
        · cases file
          exact .opens rfl rfl
        · cases file
          exact .fails _
      · rw [if_neg turn] at file
        cases file

/-- Nothing that is done at a part changes this of the world. -/
structure Steady (source : RangeSource σ) (K : World σ → Prop) : Prop where
  files : ∀ {w} files, K w → K (w.withFiles files)
  pause : ∀ {w} pauses, K w → K (w.pauseAll pauses)
  fetch : ∀ range {w}, K w → K (source.getRange range w).2

/-- Nothing that a download does changes this of the world. -/
structure Lasting (source : RangeSource σ) (K : World σ → Prop) : Prop extends Steady source K where
  report : ∀ {w} reports, K w → K (w.report reports)
  inspect : ∀ {w}, K w → K (source.objectMeta w).2

def Moment.Has (K : World σ → Prop) : Moment σ → Prop
  | .begun w => K w
  | .fetching _ _ crew => K crew.world
  | .ended _ w => K w

theorem lasting_metrics (source : RangeSource σ) (metrics : Metrics) :
    Lasting source fun w => w.metrics = metrics :=
  ⟨⟨fun _ h => h, fun _ h => h, fun _ _ h => h⟩, fun _ h => h, fun h => h⟩

theorem steady_reports (source : RangeSource σ) (reports : Array Progress.Report) :
    Steady source fun w => w.reports = reports :=
  ⟨fun _ h => h, fun _ h => h, fun _ _ h => h⟩

section
variable {p : Plan} {source : RangeSource σ} {destination : String} {directory : Path}
  {K : World σ → Prop} {w w' : World σ} {m n : Moment σ}

namespace Steady
variable (steady : Steady source K)

include steady

theorem failed (f : Fetch) (e : Error) (world : K w) : K (f.failed e w).2 := by
  unfold Fetch.failed
  cases f.policy.again? e with
  | some policy => exact steady.pause _ world
  | none => exact world

theorem store (id : Nat) (items : List (Except Cause ByteArray)) (written : Nat) (world : K w) :
    K (Fetch.store id items written w).2 := by
  induction items generalizing written w with
  | nil => exact world
  | cons item items ih =>
    cases item with
    | error cause => exact world
    | ok chunk => exact ih _ (steady.files _ world)

theorem proceed (f : Fetch) (world : K w) : K (f.proceed source directory w).2 := by
  obtain ⟨part, policy, answer⟩ := f
  cases answer with
  | none =>
    rcases temporary : w.files.addTemporary directory (".part-" ++ toString part.index ++ "-") with
      ⟨path, file, files⟩
    have after := steady.fetch part.range (steady.files files world)
    rcases asked : source.getRange part.range (w.withFiles files) with ⟨result, v⟩
    rw [asked] at after
    cases result with
    | error e =>
      rw [Fetch.proceed_refused temporary asked]
      exact steady.failed _ e (steady.files _ after)
    | ok body =>
      rw [Fetch.proceed_given temporary asked]
      exact after
  | some answer =>
    obtain ⟨path, file, items⟩ := answer
    have after := steady.store file items 0 world
    unfold Fetch.proceed
    dsimp only
    rcases stored : Fetch.store file items 0 w with ⟨result, v⟩
    rw [stored] at after
    cases result with
    | error e => exact steady.failed _ e (steady.files _ after)
    | ok written =>
      dsimp only
      by_cases whole : written = part.size
      · rw [if_pos whole]
        exact after
      · rw [if_neg whole]
        exact steady.failed _ _ (steady.files _ after)

end Steady

namespace Lasting
variable (lasting : Lasting source K)

include lasting

theorem abandon (f : Fetch) (world : K w) : K (f.abandon w) := by
  obtain ⟨part, policy, answer⟩ := f
  cases answer with
  | none => exact world
  | some answer => exact lasting.files _ world

theorem completed (a : Assembly) (part : Staged) (world : K w) : K (a.completed part w).2 := by
  unfold Assembly.completed
  cases a.progress with
  | none => exact lasting.files _ world
  | some t => exact lasting.report _ (lasting.files _ world)

theorem file {a : Assembly} {result : Except Error Assembly} (world : K w)
    (file : a.file w = some (result, w')) : K w' := by
  cases Assembly.goes_of_file file with
  | copies appending n files => exact lasting.files files world
  | completes appending => exact lasting.completed a _ world
  | opens idle held => exact world
  | fails e => exact world

theorem keeps : Keeps (craft p source directory) Assembly.desk K where
  prepare world := world
  proceed f _ world := lasting.proceed f world
  abandon f _ world := lasting.abandon f world
  discard _ _ world := lasting.files _ world
  accept _ _ _ world := world
  file world file := lasting.file world file
  drop _ _ world := lasting.files _ world

theorem opened (world : K w) : (p.opened source destination w).Has K := by
  have after {result : Except Error ObjectMeta} {v : World σ}
      (asked : source.objectMeta w = (result, v)) : K v := by
    have known := lasting.inspect world
    rwa [asked] at known
  have opens := p.opens source destination w
  generalize p.opened source destination w = m at opens ⊢
  cases opens with
  | refused asked => exact after asked
  | denied reports asked denied => exact lasting.report _ (after asked)
  | nothing asked tracked created empty =>
    exact lasting.report _ (lasting.files _ (lasting.report _ (after asked)))
  | fetches directory asked tracked created some =>
    exact lasting.files _ (lasting.report _ (after asked))

theorem closed (object : ObjectMeta) (result : Except Error Assembly) (world : K w) :
    K (p.closed destination object w result).2 := by
  cases result with
  | ok a => exact lasting.report _ world
  | error e =>
    unfold Plan.closed Plan.removeDestination
    dsimp only
    cases w.files.remove destination with
    | ok files => exact lasting.files _ world
    | error fault => exact world

theorem next (next : Moment.Next p source destination m n) (has : m.Has K) : n.Has K := by
  cases next with
  | opens w => exact lasting.opened has
  | moves step => exact lasting.keeps.step step has
  | closes returned => exact lasting.closed _ _ has

theorem path (path : Relation.ReflTransGen (Moment.Next p source destination) m n) (has : m.Has K) :
    n.Has K := by
  induction path with
  | refl => exact has
  | tail before next ih => exact lasting.next next ih

end Lasting

end

/-- What is fetched at this moment of a download that began with `w` is the object of which the size was
told, and so is what was fetched in the end. -/
def Moment.Measured (source : RangeSource σ) (w : World σ) : Moment σ → Prop
  | .begun v => v = w
  | .fetching object _ _ => (source.inspect w.peer w.files).1 = .ok object
  | .ended (.ok out) _ =>
    ∃ object, (source.inspect w.peer w.files).1 = .ok object ∧ out.size = object.size
  | .ended (.error _) _ => True

section
variable {p : Plan} {source : RangeSource σ} {destination : String} {w : World σ} {m n : Moment σ}

theorem Plan.opened_measured (p : Plan) (source : RangeSource σ) (destination : String) (w : World σ) :
    (p.opened source destination w).Measured source w := by
  have opens := p.opens source destination w
  generalize p.opened source destination w = m at opens ⊢
  cases opens with
  | refused asked => trivial
  | denied reports asked denied => trivial
  | nothing asked tracked created empty => exact ⟨_, congrArg Prod.fst asked, empty.symm⟩
  | fetches directory asked tracked created some => exact congrArg Prod.fst asked

theorem Moment.Next.measured (next : Moment.Next p source destination m n)
    (measured : m.Measured source w) : n.Measured source w := by
  cases next with
  | opens v =>
    obtain rfl : v = w := measured
    exact p.opened_measured source destination v
  | moves step => exact measured
  | closes returned =>
    rename_i result crew
    cases result with
    | error e => trivial
    | ok a => exact ⟨_, measured, rfl⟩

theorem Moment.measured_of_path
    (path : Relation.ReflTransGen (Moment.Next p source destination) (.begun w) m) :
    m.Measured source w := by
  induction path with
  | refl => exact rfl
  | tail before next ih => exact next.measured ih

end

section
variable {p : Plan} {source : RangeSource σ} {destination : String} {m : Moment (Fetches σ)}
  {n : Moment σ}

theorem Moment.Next.watched (next : Moment.Next p source destination m.unwatched n) :
    ∃ n', n'.unwatched = n ∧ Moment.Next p source.observed destination m n' := by
  cases m with
  | begun w =>
    cases next with
    | opens => exact ⟨_, (p.opened_unwatched source destination w).symm, .opens w⟩
  | fetching object directory crew =>
    cases next with
    | moves step =>
      rw [(p.alike source directory).step] at step
      obtain ⟨crew', moved, rfl⟩ := Option.map_eq_some_iff.1 step
      exact ⟨_, rfl, .moves moved⟩
    | closes returned =>
      refine ⟨_, ?_, .closes returned⟩
      exact congrArg (fun x => Moment.ended x.1 x.2)
        (p.closed_unwatched destination object crew.world _).symm
  | ended result w => cases next

theorem Moment.Next.unwatched {n' : Moment (Fetches σ)}
    (next : Moment.Next p source.observed destination m n') :
    Moment.Next p source destination m.unwatched n'.unwatched := by
  cases next with
  | opens w =>
    rw [← p.opened_unwatched source destination w]
    exact .opens _
  | @moves object directory move crew crew' step =>
    have moved := (p.alike source directory).step move crew
    rw [step] at moved
    exact .moves moved
  | @closes object directory result crew returned =>
    have returned : (crew.through Download.unwatched).phase = .returned result := returned
    have closes : Moment.Next p source destination
        (.fetching object directory (crew.through Download.unwatched))
        (.ended (p.closed destination object (Download.unwatched crew.world) result).1
          (p.closed destination object (Download.unwatched crew.world) result).2) := .closes returned
    rw [p.closed_unwatched] at closes
    exact closes

theorem Moment.path_watched
    (path : Relation.ReflTransGen (Moment.Next p source destination) m.unwatched n) :
    ∃ n', n'.unwatched = n ∧
      Relation.ReflTransGen (Moment.Next p source.observed destination) m n' := by
  induction path with
  | refl => exact ⟨m, rfl, .refl⟩
  | tail before next ih =>
    obtain ⟨m', rfl, path⟩ := ih
    obtain ⟨n', same, next⟩ := next.watched
    exact ⟨n', same, path.tail next⟩

end

end ObjectTransfer.Download
