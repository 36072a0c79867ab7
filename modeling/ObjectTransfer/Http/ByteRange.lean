/-!
Ranges of bytes within an object, as requests name them, and the bytes that a range selects.
-/
namespace ObjectTransfer.Http

inductive ByteRange where
  /-- From the first offset to the last, both included. -/
  | inclusive (start stop : Nat)
  /-- From the offset to the end. -/
  | allFrom (start : Nat)
  /-- The given number of bytes at the end. -/
  | last (count : Nat)
  deriving Repr, DecidableEq, Inhabited

namespace ByteRange

/-- How many bytes are meant, where that does not depend on the object. -/
def length? : ByteRange → Option Nat
  | .inclusive start stop => some (stop - start + 1)
  | .allFrom _ => none
  | .last count => some count

/-- The first offset, where that does not depend on the object. -/
def start? : ByteRange → Option Nat
  | .inclusive start _ => some start
  | .allFrom start => some start
  | .last _ => none

def text : ByteRange → String
  | .inclusive start stop => toString start ++ "-" ++ toString stop
  | .allFrom start => toString start ++ "-"
  | .last count => "-" ++ toString count

/-- The text of the `Range` header that asks for these bytes. -/
def header (r : ByteRange) : String := "bytes=" ++ r.text

/-- The bytes of `data` that the range selects, cut off at the end of the data; `none` when the
range begins past the last byte. -/
def slice? (r : ByteRange) (data : ByteArray) : Option ByteArray :=
  let (start, stop) :=
    match r with
    | .inclusive start stop => (start, min stop (data.size - 1) + 1)
    | .allFrom start => (start, data.size)
    | .last count => (data.size - count, data.size)
  if start < data.size then some (data.extract start stop) else none

end ByteRange

end ObjectTransfer.Http
