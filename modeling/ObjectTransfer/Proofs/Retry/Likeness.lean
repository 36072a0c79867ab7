import ObjectTransfer.Proofs.Retry
/-!
Transfers whose attempts come out alike. They are made as often, with the same pauses, and what comes of
them in the end is alike again.
-/
namespace ObjectTransfer

/-- The failure is one for good, about which a transfer that can be resumed does nothing. -/
def Error.Final (e : Error) : Prop := e.disposition = none

/-- The same has come of both, or failures of this kind. -/
inductive Akin (F : Error → Prop) {α : Type} : Except Error α → Except Error α → Prop
  | same (result : Except Error α) : Akin F result result
  | failed {e e' : Error} (left : F e) (right : F e') : Akin F (.error e) (.error e')

theorem Akin.map {F : Error → Prop} {α β : Type} {x y : Except Error α} (akin : Akin F x y)
    (f : α → β) : Akin F (x.map f) (y.map f) := by
  cases akin with
  | same => exact .same _
  | failed left right => exact .failed left right

/-- What has come of both is akin, and their states are related. -/
structure AkinWith {σ τ α : Type} (F : Error → Prop) (S : σ → τ → Prop) (x : Except Error α × σ)
    (y : Except Error α × τ) : Prop where
  akin : Akin F x.1 y.1
  states : S x.2 y.2

/-- Both have ended alike. -/
structure Outcome.Alike {σ τ α : Type} (F : Error → Prop) (S : σ → τ → Prop) (o : Outcome σ α)
    (o' : Outcome τ α) : Prop where
  result : Akin F o.result o'.result
  state : S o.state o'.state
  attempts : o.attempts = o'.attempts
  pauses : o.pauses = o'.pauses

/-- The same follows both attempts. -/
inductive Turn.Alike {σ τ α : Type} (F : Error → Prop) (S : σ → τ → Prop) :
    Turn σ α → Turn τ α → Prop
  | done {x y : Except Error α} {s : σ} {t : τ} (result : Akin F x y) (state : S s t) :
      Alike F S (.done x s) (.done y t)
  | again (idle : Nat) {s : σ} {t : τ} (state : S s t) : Alike F S (.again idle s) (.again idle t)

namespace Resumable
variable {σ τ α : Type} {F : Error → Prop} {S : σ → τ → Prop} {r : Resumable σ α}
  {r' : Resumable τ α} {s : σ} {t : τ}

/-- Attempts that begin in related states come out alike, and leave such states behind. -/
structure Alike (F : Error → Prop) (S : σ → τ → Prop) (r : Resumable σ α) (r' : Resumable τ α) :
    Prop where
  final : ∀ {e}, F e → e.Final
  confirmed : ∀ {s t}, S s t → r.confirmed s = r'.confirmed t
  attempt : ∀ {s t}, S s t → AkinWith F S (r.attempt s) (r'.attempt t)
  discard : ∀ {s t}, S s t → S (r.discard s) (r'.discard t)

namespace Alike
variable (alike : Alike F S r r')

include alike

theorem turn (retries number idle : Nat) (states : S s t) :
    (r.turn retries number idle s).Alike F S (r'.turn retries number idle t) := by
  obtain ⟨results, after⟩ := alike.attempt states
  have before := alike.confirmed states
  unfold Resumable.turn
  generalize r.attempt s = made at results after ⊢
  generalize r'.attempt t = made' at results after ⊢
  obtain ⟨x, u⟩ := made
  obtain ⟨y, v⟩ := made'
  dsimp only at results after
  cases results with
  | failed left right =>
    dsimp only
    rw [show _ = none from alike.final left, show _ = none from alike.final right]
    exact .done (.failed left right) after
  | same =>
    cases x with
    | ok a => exact .done (.same _) after
    | error e =>
      dsimp only
      rw [before, alike.confirmed after]
      have counted (idle : Nat) : Turn.Alike F S
          (if retries < idle then
            .done (.error (.resumable .abortCurrentProcess (.noProgress number))) u
          else .again idle u : Turn σ α)
          (if retries < idle then
            .done (.error (.resumable .abortCurrentProcess (.noProgress number))) v
          else .again idle v) := by
        split
        · exact .done (.same _) after
        · exact .again _ after
      cases e.disposition with
      | none => exact .done (.same _) after
      | some disposition =>
        cases disposition with
        | abortCurrentProcess => exact .done (.same _) after
        | abort => exact .done (.same _) (alike.discard after)
        | startOver => exact counted _
        | waitBeforeRetry => exact counted _

theorem runFrom (retries limit made idle : Nat) (pauses : List Nat) (states : S s t) :
    Option.Rel (Outcome.Alike F S) (r.runFrom retries limit made idle pauses s)
      (r'.runFrom retries limit made idle pauses t) := by
  induction limit generalizing made idle pauses s t with
  | zero => exact .none
  | succ limit ih =>
    have turns := alike.turn retries (made + 1) idle states
    unfold Resumable.runFrom
    generalize r.turn retries (made + 1) idle s = x at turns ⊢
    generalize r'.turn retries (made + 1) idle t = y at turns ⊢
    cases turns with
    | done result state => exact .some ⟨result, state, rfl, rfl⟩
    | again idle' state => exact ih _ _ _ state

theorem run (retries limit : Nat) (states : S s t) :
    Option.Rel (Outcome.Alike F S) (r.run retries limit s) (r'.run retries limit t) :=
  alike.runFrom retries limit 0 0 [] states

end Alike

end Resumable

end ObjectTransfer
