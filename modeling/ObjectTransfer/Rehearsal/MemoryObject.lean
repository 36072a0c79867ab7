import ObjectTransfer.Download.RangeSource
import ObjectTransfer.Rehearsal.Server
/-!
An object in memory to be downloaded. It can be arranged that ranges which begin at some offset fail
a number of times, and that answers are cut off after a number of bytes.
-/
namespace ObjectTransfer.Rehearsal

structure MemoryObject where
  data : ByteArray
  eTag : Option String
  /-- How often a range that begins at an offset is still to fail. -/
  failAt : List (Nat × Nat)
  /-- After how many bytes answers are to be cut off, one entry for each answer. -/
  interrupts : List Nat
  /-- The ranges asked for. -/
  requests : Array Http.ByteRange
  deriving Inhabited

namespace MemoryObject

def ofBytes (data : ByteArray) : MemoryObject := ⟨data, some (Server.digestTag data), [], [], #[]⟩

def objectMeta (o : MemoryObject) : ObjectMeta := ⟨o.data.size, o.eTag⟩

/-- Failures and cuts that were arranged for and have not come yet. -/
def left (o : MemoryObject) : Nat := o.failAt.foldl (fun n f => n + f.2) o.interrupts.length

def isToFail (o : MemoryObject) (range : Http.ByteRange) : Bool :=
  ((range.start?).bind fun start => o.failAt.lookup start).any (0 < ·)

def failOnce (o : MemoryObject) (start : Nat) : MemoryObject :=
  { o with failAt := Keyed.change start (· - 1) o.failAt }

/-- The bytes of an answer, cut off after `limit` bytes when there is one. -/
def bodyOf (bytes : ByteArray) : (limit : Option Nat) → Http.Body
  | none => .ofBytes bytes
  | some limit =>
    .stream [.ok (bytes.extract 0 limit), .error (.of (.given "connection reset by peer"))]

def fetch (o : MemoryObject) (range : Http.ByteRange) : Except Error Http.Body × MemoryObject :=
  let o := { o with requests := o.requests.push range }
  if o.isToFail range then
    (.error (.transport (.given "injected range failure")), o.failOnce (range.start?.getD 0))
  else
    let limit := o.interrupts.head?
    let o := { o with interrupts := o.interrupts.drop 1 }
    match range.slice? o.data with
    | none => (.error (.invalid (.notSatisfiable range)), o)
    | some bytes => (.ok (bodyOf bytes limit), o)

def source : RangeSource MemoryObject where
  inspect o files := (.ok o.objectMeta, o, files)
  fetch range o files :=
    let (result, o) := o.fetch range
    (result, o, files)

end MemoryObject

end ObjectTransfer.Rehearsal
