import ObjectTransfer.Proofs.Crew.Keeping
import ObjectTransfer.Proofs.S3.Moments
/-!
What an upload in parts keeps of the world. It makes calls and pauses, and reports how far it is, while
others change the files; what none of this changes is the same at every moment, whoever moves next.
-/
namespace ObjectTransfer.S3
open Crew Files
variable {σ : Type}

/-- Nothing that is done at a part changes this of the world. -/
structure Steady (K : World σ → Prop) : Prop where
  peer : ∀ {w} peer, K w → K { w with peer }
  pause : ∀ {w} pauses, K w → K (w.pauseAll pauses)

/-- Nothing that an upload does changes this of the world, and others do not either. -/
structure Lasting (K : World σ → Prop) : Prop extends Steady K where
  files : ∀ {w} files, K w → K (w.withFiles files)
  report : ∀ {w} reports, K w → K (w.report reports)

def Moment.Has (K : World σ → Prop) : Moment σ → Prop
  | .begun w => K w
  | .uploading _ _ crew => K crew.world
  | .ended _ w => K w

theorem lasting_metrics (metrics : Metrics) : Lasting fun w : World σ => w.metrics = metrics :=
  ⟨⟨fun _ h => h, fun _ h => h⟩, fun _ h => h, fun _ h => h⟩

theorem steady_reports (reports : Array Progress.Report) :
    Steady fun w : World σ => w.reports = reports :=
  ⟨fun _ h => h, fun _ h => h⟩

section
variable {p : Plan} {s : S3 σ} {u : Upload} {path : String} {d : Description} {Q : Store → Prop}
  {K : World σ → Prop} {w : World σ} {m n : Moment σ}
  {heard more : List (Parcel FilePart (UploadedPart × Nat))}

namespace Steady
variable (steady : Steady K)

include steady

theorem request (c : Call) (world : K w) : K (s.request c w).2 := steady.peer _ world

theorem initiate (d : Description) (world : K w) : K (s.initiate d w).2 := by
  unfold S3.initiate
  cases d.validate with
  | error e => exact world
  | ok _ => exact steady.request _ world

theorem uploadPart (number : Int) (data : ByteArray) (world : K w) :
    K (s.uploadPart u number data w).2 := by
  unfold S3.uploadPart
  by_cases outside : !isPartNumber number
  · rw [if_pos outside]
    exact world
  · rw [if_neg outside]
    exact steady.request _ world

theorem complete (parts : List UploadedPart) (world : K w) : K (s.complete u parts w).2 := by
  unfold S3.complete
  cases orderedParts parts with
  | error e => exact world
  | ok sorted => exact steady.request _ world

theorem giveUp (world : K w) : K (p.giveUp s u w) := by
  unfold Plan.giveUp
  cases p.onFailure with
  | abortUpload => exact steady.request _ world
  | retain => exact world

theorem proceed (t : Sending) (world : K w) : K (t.proceed s u w).2 := by
  obtain ⟨file, part, policy, data⟩ := t
  cases data with
  | none =>
    unfold Sending.proceed
    dsimp only
    cases Sending.read part file w.files with
    | error e => exact world
    | ok data => exact world
  | some data =>
    have after := steady.uploadPart (s := s) (u := u) part.number data world
    unfold Sending.proceed
    dsimp only
    rcases uploaded : s.uploadPart u part.number data w with ⟨result, v⟩
    rw [uploaded] at after
    cases result with
    | ok made => exact after
    | error e =>
      dsimp only
      cases policy.again? e with
      | some policy => exact steady.pause _ after
      | none => exact after

end Steady

namespace Lasting
variable (lasting : Lasting K)

include lasting

theorem keeps : Keeps (craft p s u path) Collection.desk K where
  prepare world := world
  proceed t _ world := lasting.proceed t world
  abandon _ _ world := world
  discard _ _ world := world
  accept made c w world := by
    obtain ⟨parts, sent, progress⟩ := c
    cases progress with
    | none => exact world
    | some t => exact lasting.report _ world
  file world file := by cases file
  drop _ _ world := world

theorem opened (world : K w) : (p.opened s path d w).Has K := by
  have opens := p.opens s path d w
  generalize p.opened s path d w = m at opens ⊢
  have after {result : Except Error Upload} {v : World σ} (asked : s.initiate d w = (result, v)) :
      K v := by
    have initiated := lasting.initiate (s := s) d world
    rwa [asked] at initiated
  cases opens with
  | refused e => exact world
  | uninitiated asked => exact after asked
  | uploads large measured split asked => exact lasting.report _ (after asked)

theorem closed (size : Nat) (result : Except Error Collection) (world : K w) :
    K (p.closed s u size w result).2 := by
  cases result with
  | error e => exact lasting.giveUp world
  | ok collection =>
    have reported := lasting.report
      (collection.progress.map fun t => t.finish collection.sent).toList world
    have after := lasting.complete (s := s) (u := u) collection.parts reported
    unfold Plan.closed
    dsimp only
    generalize s.complete u collection.parts _ = answer at after ⊢
    obtain ⟨result, v⟩ := answer
    cases result with
    | ok completed => exact after
    | error e => exact lasting.giveUp after

theorem next (next : Moment.Next p s path d Q m more n) (has : m.Has K) : n.Has K := by
  cases next with
  | opens w => exact lasting.opened has
  | moves step => exact lasting.keeps.step step has
  | disturbed q => exact lasting.files _ has
  | closes returned => exact lasting.closed _ _ has

theorem comes (comes : Moment.Comes p s path d Q w heard m) (world : K w) : m.Has K := by
  induction comes with
  | start => exact world
  | next before next ih => exact lasting.next next ih

end Lasting

/-- What is uploaded at this moment of an upload that began with `w` is the file as it was measured. -/
def Moment.Measured (path : String) (w : World σ) : Moment σ → Prop
  | .begun v => v = w
  | .uploading _ size _ => w.files.size path = .ok size
  | .ended (.ok (_, size)) _ => w.files.size path = .ok size
  | .ended (.error _) _ => True

theorem Moment.Next.measured (next : Moment.Next p s path d Q m more n)
    (measured : m.Measured path w) : n.Measured path w := by
  cases next with
  | opens v =>
    obtain rfl : v = w := measured
    have opens := p.opens s path d v
    generalize p.opened s path d v = m at opens ⊢
    cases opens with
    | refused e => trivial
    | uninitiated asked => trivial
    | uploads large measured split asked => exact measured
  | moves step => exact measured
  | disturbed q => exact measured
  | closes returned =>
    rename_i u size result crew
    cases result with
    | error e => trivial
    | ok collection =>
      unfold Plan.closed
      dsimp only
      generalize s.complete u collection.parts _ = answer
      obtain ⟨result, v⟩ := answer
      cases result with
      | error e => trivial
      | ok completed => exact measured

theorem Moment.Comes.measured (comes : Moment.Comes p s path d Q w heard m) : m.Measured path w := by
  induction comes with
  | start => exact rfl
  | next before next ih => exact next.measured ih

end

end ObjectTransfer.S3
