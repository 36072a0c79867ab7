/-!
The parts of a download: consecutive ranges of the object, all but the last of one size.
-/
namespace ObjectTransfer.Download

structure Part where
  /-- Counted from zero. -/
  index : Nat
  start : Nat
  /-- The last offset of the part. -/
  stop : Nat
  deriving Repr, DecidableEq, Inhabited

namespace Part

def size (p : Part) : Nat := p.stop - p.start + 1

def count (total partSize : Nat) : Nat := (total + partSize - 1) / partSize

def ofIndex (total partSize index : Nat) : Part :=
  ⟨index, index * partSize, min (index * partSize + partSize) total - 1⟩

def split (total partSize : Nat) : List Part :=
  (List.range (count total partSize)).map (ofIndex total partSize)

end Part

end ObjectTransfer.Download
