import ObjectTransfer.Error
/-!
The parts of a file that is uploaded in parts. There is always one, even of an empty file, and there
are never more than a service takes.
-/
namespace ObjectTransfer.S3

structure FilePart where
  /-- Counted from one. -/
  number : Nat
  offset : Nat
  length : Nat
  deriving Repr, DecidableEq, Inhabited

namespace FilePart

def count (size partSize : Nat) : Nat := max ((size + partSize - 1) / partSize) 1

def ofIndex (size partSize index : Nat) : FilePart :=
  ⟨index + 1, index * partSize, min partSize (size - index * partSize)⟩

def split (size partSize : Nat) : Except Error (List FilePart) :=
  let n := count size partSize
  if maxPartNumber < n then .error (.invalid (.tooManyParts size n partSize))
  else .ok ((List.range n).map (ofIndex size partSize))

end FilePart

end ObjectTransfer.S3
