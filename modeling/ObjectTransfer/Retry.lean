import ObjectTransfer.Error
/-!
Trying again. A transfer that can be resumed is attempted until it succeeds, fails for good, or has
failed too often in a row without getting any further. The work on a single part is tried a fixed
number of times.
-/
namespace ObjectTransfer

/-- A transfer that goes on from where it got to; `σ` is its state and `α` what it gives. -/
structure Resumable (σ α : Type) where
  /-- Bytes that are known to have arrived. -/
  confirmed : σ → Nat
  attempt : σ → Except Error α × σ
  /-- Forgets what was kept for going on later. -/
  discard : σ → σ

/-- How a transfer ended. -/
structure Outcome (σ α : Type) where
  result : Except Error α
  state : σ
  attempts : Nat
  /-- The exponents of the pauses between the attempts. -/
  pauses : List Nat

/-- What follows an attempt. -/
inductive Turn (σ α : Type) where
  | done (result : Except Error α) (state : σ)
  /-- Tried again, after this many failures in a row without progress. -/
  | again (idle : Nat) (state : σ)

namespace Resumable

variable {σ α : Type}

def maxExponent : Nat := 20

/-- Makes the attempt with the given number, after `idle` failures in a row without progress. -/
def turn (r : Resumable σ α) (retries number idle : Nat) (s : σ) : Turn σ α :=
  match r.attempt s with
  | (.ok a, t) => .done (.ok a) t
  | (.error e, t) =>
    match e.disposition with
    | none | some .abortCurrentProcess => .done (.error e) t
    | some .abort => .done (.error e) (r.discard t)
    | some .startOver | some .waitBeforeRetry =>
      let idle := if r.confirmed s < r.confirmed t then 0 else idle + 1
      if retries < idle then .done (.error (.resumable .abortCurrentProcess (.noProgress number))) t
      else .again idle t

/-- Goes on after `made` attempts, the last `idle` of them without progress; `pauses` holds the
pauses so far, newest first. -/
def runFrom (r : Resumable σ α) (retries : Nat) :
    (limit made idle : Nat) → (pauses : List Nat) → σ → Option (Outcome σ α)
  | 0, _, _, _, _ => none
  | limit + 1, made, idle, pauses, s =>
    match r.turn retries (made + 1) idle s with
    | .done result t => some ⟨result, t, made + 1, pauses.reverse⟩
    | .again idle t => runFrom r retries limit (made + 1) idle (min idle maxExponent :: pauses) t

/-- Attempts the transfer until it ends; `none` when it has not ended after `limit` attempts. -/
def run (r : Resumable σ α) (retries limit : Nat) (s : σ) : Option (Outcome σ α) :=
  r.runFrom retries limit 0 0 [] s

end Resumable

/-- Decides whether the failed work on a part is tried again. -/
structure RetryPolicy where
  /-- Tries left after the one under way. -/
  left : Nat
  /-- Milliseconds between two tries. -/
  delay : Nat
  accepts : Error → Bool

namespace RetryPolicy

/-- The policy after a failure that is followed by another try. -/
def again? (p : RetryPolicy) (e : Error) : Option RetryPolicy :=
  if p.accepts e && p.left != 0 then some { p with left := p.left - 1 } else none

end RetryPolicy

end ObjectTransfer
