import ObjectTransfer.Error
/-!
Bodies of messages: bytes held in memory, which come as one chunk, or a stream of chunks and
failures. Empty bytes in memory give no chunk at all; an empty chunk of a stream is a chunk.

Some streams unfold a state, and have none left once they told their end. To ask such a stream again is
a panic, for which there is `none` here; any other body goes on telling its end.
-/
namespace ObjectTransfer.Http

inductive Body where
  | whole (data : Option ByteArray)
  | stream (items : List (Except Cause ByteArray))
  /-- A stream that unfolds a state, and whether there still is one. -/
  | unfolding (state : Option (List (Except Cause ByteArray)))

namespace Body

def empty : Body := .whole none

instance : Inhabited Body := ⟨empty⟩

def ofBytes (data : ByteArray) : Body := .whole (some data)

/-- Everything the body has still to give, in order. -/
def items : Body → List (Except Cause ByteArray)
  | .whole none => []
  | .whole (some data) => if data.isEmpty then [] else [.ok data]
  | .stream items => items
  | .unfolding state => state.getD []

/-- The same items from a stream that unfolds a state. -/
def unfolded (b : Body) : Body := .unfolding (some b.items)

/-- Asks for the next item: the item, if there is one, and the body without it. -/
def poll : Body → Option (Option (Except Cause ByteArray) × Body)
  | .whole none => some (none, .whole none)
  | .whole (some data) => some (if data.isEmpty then none else some (.ok data), .whole none)
  | .stream [] => some (none, .stream [])
  | .stream (item :: items) => some (some item, .stream items)
  | .unfolding none => none
  | .unfolding (some []) => some (none, .unfolding none)
  | .unfolding (some (item :: items)) => some (some item, .unfolding (some items))

/-- The next item of a body that can be asked, and the body without it. -/
def next (b : Body) : Option (Except Cause ByteArray) × Body := b.poll.getD (none, b)

/-- Asking finds the first of all items, if there is one, and leaves the others. -/
theorem poll_eq {b later : Body} {found : Option (Except Cause ByteArray)}
    (polled : b.poll = some (found, later)) :
    found = b.items.head? ∧ later.items = b.items.tail := by
  cases b with
  | whole data =>
    cases data with
    | none =>
      cases polled
      exact ⟨rfl, rfl⟩
    | some data =>
      cases polled
      by_cases h : data.isEmpty <;> simp [items, h]
  | stream items =>
    cases items with
    | nil =>
      cases polled
      exact ⟨rfl, rfl⟩
    | cons item rest =>
      cases polled
      exact ⟨rfl, rfl⟩
  | unfolding state =>
    cases state with
    | none => cases polled
    | some items =>
      cases items with
      | nil =>
        cases polled
        exact ⟨rfl, rfl⟩
      | cons item rest =>
        cases polled
        exact ⟨rfl, rfl⟩

/-- The chunks of a stream joined behind `acc`, up to its first failure. -/
def join (acc : ByteArray) : List (Except Cause ByteArray) → Except Cause ByteArray
  | [] => .ok acc
  | .ok chunk :: items => join (acc ++ chunk) items
  | .error cause :: _ => .error cause

/-- The rest of a body that can be asked, as one piece. -/
def collect : Body → Except Cause ByteArray
  | .whole data => .ok (data.getD .empty)
  | .stream items => join .empty items
  | .unfolding state => join .empty (state.getD [])

/-- Takes the rest of a body as one piece. -/
def collect? (b : Body) : Option (Except Cause ByteArray) := b.poll.map fun _ => b.collect

/-- Takes everything that a body has still to give as a stream, and asks it to its end. -/
def drain? (b : Body) : Option (List (Except Cause ByteArray)) := b.poll.map fun _ => b.items

def describe : Body → String
  | .whole data => "Body \x7b len: " ++ toString (data.getD .empty).size ++ " \x7d"
  | .stream _ | .unfolding _ => "Body \x7b streaming: true \x7d"

end Body

end ObjectTransfer.Http
