import ObjectTransfer.Proofs.Crew.Steps
/-!
What a crew keeps. A property of the world that is kept by everything a worker or the coordinator does
is kept by every move.
-/
namespace ObjectTransfer.Crew
variable {τ κ α ω β δ : Type}

/-- Whatever is done at a part or at the desk keeps this of the world. -/
structure Keeps (c : Craft τ κ α ω β) (k : Desk τ β δ) (K : τ → Prop) : Prop where
  prepare : ∀ {w}, K w → K (c.prepare w).2
  proceed : ∀ work {w}, K w → K (c.proceed work w).2
  abandon : ∀ work {w}, K w → K (c.abandon work w)
  discard : ∀ made {w}, K w → K (c.discard made w)
  accept : ∀ made desk {w}, K w → K (k.accept made desk w).2
  file : ∀ {desk w result w'}, K w → k.file desk w = some (result, w') → K w'
  drop : ∀ desk {w}, K w → K (k.drop desk w)

namespace Keeps
variable {c : Craft τ κ α ω β} {k : Desk τ β δ} {K : τ → Prop} {s t : State τ κ α ω β δ} {m : Move}
  (keeps : Keeps c k K)

include keeps

theorem dropped (parcel : Parcel α β) {w : τ} (world : K w) : K (parcel.drop c w) := by
  obtain ⟨part, result⟩ := parcel
  cases result with
  | ok made => exact keeps.discard made world
  | error e => exact world

theorem worked {work : ω} {w w' : τ} {result : Except Error β ⊕ ω}
    (proceed : c.proceed work w = (result, w')) (world : K w) : K w' := by
  have after := keeps.proceed work world
  rwa [proceed] at after

theorem prepared {w w' : τ} {result : Except Error κ} (prepare : c.prepare w = (result, w'))
    (world : K w) : K w' := by
  have after := keeps.prepare world
  rwa [prepare] at after

theorem steps (h : State.Steps c k s m t) (world : K s.world) : K t.world := by
  cases h with
  | files phase file => exact keeps.file world file
  | misfiles phase file => exact keeps.drop _ (keeps.file world file)
  | accepts phase idle incomplete channel => exact keeps.accept _ _ world
  | hears phase idle incomplete channel => exact keeps.drop _ world
  | deserted phase idle incomplete channel gone => exact keeps.drop _ world
  | drains phase drains channel => exact keeps.dropped _ world
  | arrives worker prepare => exact keeps.prepared prepare world
  | stumbles worker prepare => exact keeps.prepared prepare world
  | proceeds worker proceed => exact keeps.worked proceed world
  | finishes worker proceed => exact keeps.worked proceed world
  | breaks worker proceed => exact keeps.worked proceed world
  | drops worker shut => exact keeps.dropped _ world
  | abandons cancelled worker => exact keeps.abandon _ world
  | _ => exact world

theorem step (h : s.step c k m = some t) (world : K s.world) : K t.world :=
  keeps.steps (State.steps_of_step h) world

end Keeps

end ObjectTransfer.Crew
