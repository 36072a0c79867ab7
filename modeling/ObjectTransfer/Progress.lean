/-!
Progress reports. A tracker reports when a transfer starts and when it is finished, and in between
after every buffer, never, or after every so many buffers, so that a long transfer makes a bounded
number of reports.
-/
namespace ObjectTransfer.Progress

/-- The bytes moved so far, and the bytes of the whole transfer. -/
abbrev Report := Nat × Nat

inductive Interval where
  | never
  | everyBuffer
  | every (buffers : Nat)
  deriving Repr, DecidableEq, Inhabited

/-- How often someone wants to hear of a transfer. -/
structure Reporter where
  /-- About this many reports are made; after every buffer when negative. -/
  count : Int
  deriving Repr, DecidableEq, Inhabited

def defaultCount : Int := 10

/-- Follows one transfer. -/
structure Tracker where
  total : Nat
  interval : Interval
  /-- Buffers since the last report. -/
  since : Nat
  deriving Repr, DecidableEq, Inhabited

/-- Two reports are the first and the last; the others are spread over the buffers of the
transfer. -/
def Reporter.interval (r : Reporter) (total buffer : Nat) : Interval :=
  if 2 < r.count then .every (total / max buffer 1 / (r.count - 2).toNat)
  else if r.count < 0 then .everyBuffer
  else .never

/-- Follows a transfer of `total` bytes that moves in buffers of the given size. -/
def Reporter.tracker (r : Reporter) (total buffer : Nat) : Tracker :=
  ⟨total, r.interval total buffer, 0⟩

namespace Tracker

/-- The transfer starts with `done` bytes already moved. -/
def start (t : Tracker) (done : Nat) : Tracker × Report := ({ t with since := 0 }, (done, t.total))

def finish (t : Tracker) (done : Nat) : Report := (done, t.total)

/-- Whether a report is due when this many buffers have been moved since the last one. -/
def isDue (t : Tracker) (since : Nat) : Bool :=
  match t.interval with
  | .never => false
  | .everyBuffer => true
  | .every n => since = n

/-- A buffer was moved, which makes `done` bytes. -/
def onBuffer (t : Tracker) (done : Nat) : Tracker × Option Report :=
  if t.isDue (t.since + 1) then ({ t with since := 0 }, some (done, t.total))
  else ({ t with since := t.since + 1 }, none)

/-- The offsets at which the buffers of a transfer end; the last one ends at the total. -/
def ends (size total : Nat) : List Nat :=
  (List.range ((total + size - 1) / size)).map fun i => min ((i + 1) * size) total

def gather (state : Tracker × List Report) (done : Nat) : Tracker × List Report :=
  let (t, report) := state.1.onBuffer done
  (t, report.toList ++ state.2)

/-- Moves the buffers that end at these offsets, with the reports they lead to. -/
def onBuffers (t : Tracker) (ends : List Nat) : Tracker × List Report :=
  let (t, newest) := ends.foldl gather (t, [])
  (t, newest.reverse)

/-- All the reports of a transfer from start to finish in buffers of `size` bytes. -/
def run (t : Tracker) (size : Nat) : Tracker × List Report :=
  let (t, first) := t.start 0
  let (t, reports) := t.onBuffers (ends size t.total)
  (t, first :: reports ++ [t.finish t.total])

end Tracker

end ObjectTransfer.Progress
