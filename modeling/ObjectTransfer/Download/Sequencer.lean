/-!
Putting things back into order. Numbered things come in any order and are given out by their
numbers, from zero on; one that comes early is held back until all before it have been given out.
-/
namespace ObjectTransfer.Download

structure Sequencer (α : Type) where
  /-- The number that is given out next. -/
  next : Nat
  /-- What is held back, in the order of the numbers. -/
  held : List (Nat × α)

namespace Sequencer

variable {α : Type}

def empty : Sequencer α := ⟨0, []⟩

instance : Inhabited (Sequencer α) := ⟨empty⟩

/-- Puts a thing behind all that have no greater number. -/
def insert (n : Nat) (a : α) : List (Nat × α) → List (Nat × α)
  | [] => [(n, a)]
  | (m, b) :: rest => if n < m then (n, a) :: (m, b) :: rest else (m, b) :: insert n a rest

def push (s : Sequencer α) (n : Nat) (a : α) : Sequencer α := { s with held := insert n a s.held }

/-- Gives out the thing whose turn it is, when it has come. -/
def pop (s : Sequencer α) : Option (Nat × α) × Sequencer α :=
  match s.held with
  | [] => (none, s)
  | (n, a) :: rest => if n = s.next then (some (n, a), ⟨s.next + 1, rest⟩) else (none, s)

def pending (s : Sequencer α) : Nat := s.held.length

end Sequencer

end ObjectTransfer.Download
