import ObjectTransfer.Error
import ObjectTransfer.Progress
/-!
The body of an upload: the rest of a source, of which the length was declared, in chunks of at most
a buffer. A source that ends before the declared length or that goes on after it has changed; the
chunk that would have completed the length is then withheld. The body ends with the first failure.
-/
namespace ObjectTransfer

structure SourceBody where
  /-- The offset in the source up to which was read. -/
  offset : Nat
  /-- Declared bytes that are still to be read. -/
  remaining : Nat
  /-- The most bytes in a chunk; zero stands for one. -/
  buffer : Nat
  progress : Option Progress.Tracker
  started : Bool
  ended : Bool
  /-- Bytes in the chunks given so far. -/
  given : Nat
  /-- The source was seen to differ from what was declared. -/
  changed : Bool
  deriving Inhabited

namespace SourceBody

def ofRange (offset length buffer : Nat) (progress : Option Progress.Tracker) : SourceBody :=
  ⟨offset, length, buffer, progress, false, false, 0, false⟩

/-- What asking for a chunk leads to; `τ` is the state of the reader. -/
structure Poll (τ : Type) where
  /-- The chunk or the failure; `none` at the end. -/
  item : Option (Except Cause ByteArray)
  body : SourceBody
  reader : τ
  reports : List Progress.Report

/-- The reports of the first poll: the start, and the finish too when there is nothing to give. -/
def start (b : SourceBody) : SourceBody × List Progress.Report :=
  if b.started then (b, [])
  else
    match b.progress with
    | none => ({ b with started := true }, [])
    | some t =>
      let (t, report) := t.start b.offset
      ({ b with started := true, progress := some t },
        report :: if b.remaining = 0 then [t.finish b.offset] else [])

/-- A chunk of `n` bytes was read and can be given. -/
def advance (b : SourceBody) (n : Nat) : SourceBody × List Progress.Report :=
  let b := { b with offset := b.offset + n, remaining := b.remaining - n, given := b.given + n }
  match b.progress with
  | none => (b, [])
  | some t =>
    let (t, report) := t.onBuffer b.offset
    ({ b with progress := some t },
      report.toList ++ if b.remaining = 0 then [t.finish b.offset] else [])

def mismatch (reason : Reason) : Cause := ⟨[.resumable .abort], reason⟩

def close (b : SourceBody) (changed : Bool) : SourceBody := { b with ended := true, changed }

/-- The most bytes that the next chunk may have. -/
def want (b : SourceBody) : Nat := min b.remaining (max b.buffer 1)

variable {τ : Type}

def next (read : Nat → τ → Except Files.Fault ByteArray × τ) (b : SourceBody) (s : τ) : Poll τ :=
  if b.ended then ⟨none, b, s, []⟩
  else
    let (b, started) := b.start
    if b.remaining = 0 then ⟨none, b.close false, s, started⟩
    else
      match read b.want s with
      | (.error fault, s) => ⟨some (.error (.of (.file fault))), b.close false, s, started⟩
      | (.ok data, s) =>
        if data.size = 0 then ⟨some (.error (mismatch .sourceEndedEarly)), b.close true, s, started⟩
        else if data.size < b.remaining then
          let (b, reports) := b.advance data.size
          ⟨some (.ok data), b, s, started ++ reports⟩
        else
          match read 1 s with
          | (.error fault, s) => ⟨some (.error (.of (.file fault))), b.close false, s, started⟩
          | (.ok extra, s) =>
            if extra.size = 0 then
              let (b, reports) := b.advance data.size
              ⟨some (.ok data), b, s, started ++ reports⟩
            else ⟨some (.error (mismatch .sourceGrew)), b.close true, s, started⟩

end SourceBody

end ObjectTransfer
