import ObjectTransfer.Http.Message
import ObjectTransfer.Source.Body
import ObjectTransfer.Source.Input
import ObjectTransfer.World
/-!
Connections. A connection takes a request in three steps: the request arrives, its body is polled
for as long as more of it is wanted, and then it is answered. Each step may change the state of the
peer, and the first and the last also the files, because others may be at work on them meanwhile.
-/
namespace ObjectTransfer

/-- What has come of the body of a request. -/
structure Received where
  /-- The chunks, newest first. -/
  newest : List ByteArray
  /-- Bytes in all of them. -/
  size : Nat
  /-- Why the body broke off. -/
  failure : Option Cause
  deriving Inhabited

namespace Received

def nothing : Received := ⟨[], 0, none⟩

def push (r : Received) (chunk : ByteArray) : Received :=
  { r with newest := chunk :: r.newest, size := r.size + chunk.size }

def chunks (r : Received) : List ByteArray := r.newest.reverse

def bytes (r : Received) : ByteArray := r.chunks.foldl (· ++ ·) .empty

end Received

/-- The behaviour of whatever answers requests; `σ` is its state. -/
structure Connection (σ : Type) where
  /-- A request begins. -/
  arrive : Http.Request → σ → Files.Store → σ × Files.Store
  /-- Whether to ask for more of the body of a request. -/
  wants : Http.Request → Received → σ → Bool
  /-- The request has come as far as it was wanted. -/
  answer : Http.Request → Received → σ → Files.Store → Except Error Http.Response × σ × Files.Store
  /-- What happens before a transfer looks at its source once more. -/
  elapse : σ → Files.Store → σ × Files.Store := fun s f => (s, f)

namespace Connection

variable {σ : Type}

/-- Lets time pass before the source is looked at. -/
def wait (c : Connection σ) (w : World σ) : World σ :=
  let (peer, files) := c.elapse w.peer w.files
  { w with peer, files }

def ask (c : Connection σ) (request : Http.Request) (peer : σ) (files : Files.Store) :
    Except Error Http.Response × σ × Files.Store :=
  let (peer, files) := c.arrive request peer files
  c.answer request .nothing peer files

def exchange (c : Connection σ) (request : Http.Request) (w : World σ) :
    Except Error Http.Response × World σ :=
  let (result, peer, files) := c.ask request w.peer w.files
  (result, { w with peer, files })

def readSource (c : Connection σ) (count : Nat) (s : Reader × World σ) :
    Except Files.Fault ByteArray × Reader × World σ :=
  let w := c.wait s.2
  let (result, reader) := s.1.read w.files count
  (result, reader, w)

/-- Polls the body of a request for as long as more is wanted, at most `fuel` times. -/
def drain (c : Connection σ) (request : Http.Request) :
    (fuel : Nat) → Received → SourceBody → Reader × World σ →
      Received × SourceBody × Reader × World σ
  | 0, received, body, s => (received, body, s)
  | fuel + 1, received, body, s =>
    if c.wants request received s.2.peer then
      let poll := body.next c.readSource s
      let s := (poll.reader.1, poll.reader.2.report poll.reports)
      match poll.item with
      | none => (received, poll.body, s)
      | some (.error cause) => ({ received with failure := some cause }, poll.body, s)
      | some (.ok chunk) => drain c request fuel (received.push chunk) poll.body s
    else (received, body, s)

/-- Sends a request with a body that is read from a source. Every chunk but an empty one brings the
body closer to its end, so it is over after as many polls as it has bytes and one more. -/
def send (c : Connection σ) (request : Http.Request) (body : SourceBody) (reader : Reader)
    (w : World σ) : Except Error Http.Response × SourceBody × World σ :=
  let (peer, files) := c.arrive request w.peer w.files
  let (received, body, _, w) :=
    c.drain request (body.remaining + 1) .nothing body (reader, { w with peer, files })
  let (result, peer, files) := c.answer request received w.peer w.files
  (result, body, { w with peer, files })

def within {τ : Type} (c : Connection σ) (part : τ → σ) (put : σ → τ → τ) : Connection τ where
  arrive request t files :=
    let (s, files) := c.arrive request (part t) files
    (put s t, files)
  wants request received t := c.wants request received (part t)
  answer request received t files :=
    let (result, s, files) := c.answer request received (part t) files
    (result, put s t, files)
  elapse t files :=
    let (s, files) := c.elapse (part t) files
    (put s t, files)

end Connection

end ObjectTransfer
