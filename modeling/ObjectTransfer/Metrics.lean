/-!
Counters of the transfers a client made.
-/
namespace ObjectTransfer

structure Metrics where
  initiated : Nat
  completed : Nat
  failed : Nat
  /-- Bytes moved by the transfers that were completed. -/
  bytes : Nat
  deriving Repr, DecidableEq, Inhabited

namespace Metrics

def zero : Metrics := ⟨0, 0, 0, 0⟩

def initiate (m : Metrics) : Metrics := { m with initiated := m.initiated + 1 }

/-- A transfer ended; one that succeeded moved `bytes` bytes. -/
def record {ε α : Type} (m : Metrics) (result : Except ε α) (bytes : Nat) : Metrics :=
  match result with
  | .ok _ => { m with completed := m.completed + 1, bytes := m.bytes + bytes }
  | .error _ => { m with failed := m.failed + 1 }

end Metrics

end ObjectTransfer
