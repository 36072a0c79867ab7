import ObjectTransfer.Proofs.Download.Unwatched
import ObjectTransfer.Proofs.Resumed.Likeness
/-!
Resumed downloads that are watched. Noting what is asked for changes nothing: a call of a handler
returns the same, and leaves the same files behind.
-/
namespace ObjectTransfer.Download
variable {σ : Type}

def Watches (s : Fetches σ) (t : σ) : Prop := s.peer = t

theorem unwatched_twins (w : World (Fetches σ)) : w.Twins Watches (unwatched w) :=
  World.Twins.intro (R := Watches) rfl ..

theorem eq_unwatched {w : World (Fetches σ)} {w' : World σ} (twins : w.Twins Watches w') :
    w' = unwatched w := by
  cases twins with
  | intro peers =>
    cases peers
    rfl

theorem observed_alike (source : RangeSource σ) :
    source.observed.Alike (fun _ => False) Watches source where
  final := False.elim
  inspect twins := by
    rw [eq_unwatched twins, objectMeta_unwatched]
    exact ⟨.same _, unwatched_twins _⟩
  rest start w w' twins := by
    rw [eq_unwatched twins, getRange_unwatched]
    exact ⟨.same _, unwatched_twins _⟩

def State.unwatched (s : State (Fetches σ)) : State σ :=
  ⟨s.length, s.requests, Download.unwatched s.world⟩

def Job.observed (d : Job σ) : Job (Fetches σ) :=
  ⟨d.source.observed, d.destination, d.tracker, d.buffer, d.progress, d.total⟩

theorem Handler.resumePoint_unwatched (h : Handler) (destination : String) (object : ObjectMeta)
    (w : World (Fetches σ)) :
    h.resumePoint destination object (unwatched w) =
      (h.resumePoint destination object w).map id unwatched := by
  obtain ⟨starts, worlds⟩ := h.resumePoint_twins (unwatched_twins w) destination object
  exact Prod.ext starts.symm (eq_unwatched worlds)

def Call.observed (c : Call σ) : Call (Fetches σ) :=
  ⟨c.handler, c.source.observed, c.destination, c.buffer, c.progress⟩

/-- A call returns the same and leaves the same behind, watched or not. -/
theorem Call.get_unwatched (c : Call σ) (limit : Nat) (w : World (Fetches σ)) :
    c.get limit (unwatched w) = (c.observed.get limit w).map (Prod.map id unwatched) := by
  have same : Option.Rel (AkinWith (fun _ => False) (World.Twins Watches)) (c.observed.get limit w)
      (c.get limit (unwatched w)) :=
    get_twins (c := c.observed) (observed_alike c.source) (unwatched_twins w) limit
  generalize c.observed.get limit w = x at same ⊢
  generalize c.get limit (unwatched w) = y at same ⊢
  cases same with
  | none => rfl
  | some made =>
    rename_i x y
    obtain ⟨result, v⟩ := x
    obtain ⟨result', v'⟩ := y
    obtain ⟨akin, worlds⟩ := made
    dsimp only at akin worlds
    cases akin with
    | failed left right => exact left.elim
    | same => rw [eq_unwatched worlds]; rfl

end ObjectTransfer.Download
