import ObjectTransfer.Crew.Step
/-!
Running a crew. Everyone gets a turn in the same order, round after round, until the coordinator
returns. A party that cannot move lets its turn pass.
-/
namespace ObjectTransfer.Crew.State

variable {τ κ α ω β δ : Type}

def result? (s : State τ κ α ω β δ) : Option (Except Error δ) :=
  match s.phase with
  | .returned result => some result
  | _ => none

/-- A turn: the party moves if it can. -/
def turn (c : Craft τ κ α ω β) (k : Desk τ β δ) (s : State τ κ α ω β δ) (m : Move) :
    State τ κ α ω β δ :=
  (s.step c k m).getD s

/-- The turns of one round. A worker first looks whether it was called off, and the coordinator
follows each worker, since it may have a parcel from each. -/
def turns (workers : Nat) : List Move :=
  .coordinator :: (List.range workers).flatMap fun i => [.notice i, .worker i, .coordinator]

/-- The moves, one after the other; a party that cannot move lets its move pass. -/
def follow (c : Craft τ κ α ω β) (k : Desk τ β δ) (s : State τ κ α ω β δ) (moves : List Move) :
    State τ κ α ω β δ :=
  moves.foldl (turn c k) s

/-- Rounds until the coordinator returns, at most `limit` of them. -/
def run (c : Craft τ κ α ω β) (k : Desk τ β δ) :
    (limit : Nat) → State τ κ α ω β δ → State τ κ α ω β δ
  | 0, s => s
  | limit + 1, s =>
    if s.result?.isSome then s else run c k limit (s.follow c k (turns s.workers.length))

end ObjectTransfer.Crew.State
