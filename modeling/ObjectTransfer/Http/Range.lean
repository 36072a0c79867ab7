import ObjectTransfer.Error
import ObjectTransfer.Text.Blank
import ObjectTransfer.Text.Pieces
/-!
Reading the `Range` and `Content-Range` headers. Blanks are allowed around the whole text and around
each number; a range names one run of bytes, and its last offset is not below its first.
-/
namespace ObjectTransfer.Http

def parseOffset (header : OffsetHeader) (cs : List Char) : Except Error Nat :=
  match Text.Unsigned.parse (Text.strip cs) with
  | .ok n => .ok n
  | .error fault => .error (.invalid (.invalidOffset header (String.ofList cs) fault))

/-- Reads a `Range` header. -/
def ByteRange.parse (s : String) : Except Error ByteRange :=
  match Text.after? "bytes=".toList (Text.strip s.toList) with
  | none => .error (.invalid (.unsupportedRangeUnit s))
  | some spec =>
    if spec.contains ',' then .error (.invalid (.multipleRanges s))
    else
      match Text.splitOnce '-' spec with
      | none => .error (.invalid (.malformedRange s))
      | some (left, right) =>
        match Text.strip left, Text.strip right with
        | [], [] => .error (.invalid (.malformedRange s))
        | [], count => (parseOffset .range count).map .last
        | start, [] => (parseOffset .range start).map .allFrom
        | start, stop => do
          let first ← parseOffset .range start
          let last ← parseOffset .range stop
          if last < first then .error (.invalid (.invertedRange s)) else .ok (.inclusive first last)

/-- The `Content-Range` of a message. -/
inductive ContentRange where
  /-- The first and the last offset sent, and the size of the object. -/
  | bytes (start stop total : Nat)
  /-- No bytes are sent: asks for what the store holds of an object of this size. -/
  | unsatisfied (total : Nat)
  deriving Repr, DecidableEq, Inhabited

namespace ContentRange

/-- What is left of an object of `total` bytes from `start` on. -/
def remaining (start total : Nat) : ContentRange :=
  if total ≤ start then .unsatisfied total else .bytes start (total - 1) total

def text : ContentRange → String
  | .bytes start stop total =>
    "bytes " ++ toString start ++ "-" ++ toString stop ++ "/" ++ toString total
  | .unsatisfied total => "bytes */" ++ toString total

/-- Reads a `Content-Range` header; the order of its offsets is not checked. -/
def parse (s : String) : Except Error ContentRange :=
  match Text.after? "bytes ".toList (Text.strip s.toList) with
  | none => .error (.invalid (.unsupportedContentRange s))
  | some spec =>
    match Text.splitOnce '/' spec with
    | none => .error (.invalid (.malformedContentRange s))
    | some (range, size) => do
      let total ← parseOffset .contentRange size
      if Text.strip range = ['*'] then .ok (.unsatisfied total)
      else
        match Text.splitOnce '-' range with
        | none => .error (.invalid (.malformedContentRange s))
        | some (start, stop) => do
          let first ← parseOffset .contentRange start
          let last ← parseOffset .contentRange stop
          .ok (.bytes first last total)

end ContentRange

end ObjectTransfer.Http
