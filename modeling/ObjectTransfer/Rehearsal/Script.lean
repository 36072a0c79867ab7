import ObjectTransfer.Connection
import ObjectTransfer.Url
/-!
A connection that answers from a script. Every request takes one answer: from the queue of its
route, when there is one, and otherwise from the common queue. When no answer is left the connection
fails.
-/
namespace ObjectTransfer.Rehearsal

structure Answer where
  /-- What others do to the files before the body is read. -/
  before : List Files.Edit
  /-- How much of the body is read; all of it when there is no number. -/
  take : Option Nat
  /-- What others do to the files before the answer comes. -/
  after : List Files.Edit
  /-- The failure that comes instead of the response. -/
  error : Option Error
  response : Http.Response
  deriving Inhabited

structure ScriptRequest where
  head : Http.Request
  body : ByteArray
  /-- The lengths of the chunks that were read. -/
  chunks : List Nat
  failure : Option Cause
  deriving Inhabited

structure Script where
  responses : List Answer
  /-- Queues for requests with a method, or with a method and a range. -/
  routes : List (String × List Answer)
  /-- The answer to the request under way. -/
  current : Option Answer
  requests : Array ScriptRequest
  deriving Inhabited

namespace Script

def empty : Script := ⟨[], [], none, #[]⟩

def routesOf (request : Http.Request) : List String :=
  let name := request.method.text
  ((Http.Headers.text? request.headers "range").map fun range => name ++ " " ++ range).toList ++
    [name]

/-- Takes the first answer of the first queue that has one. -/
def take (s : Script) : List String → Option Answer × Script
  | [] =>
    match s.responses with
    | [] => (none, s)
    | a :: rest => (some a, { s with responses := rest })
  | route :: others =>
    match s.routes.lookup route with
    | some (a :: rest) => (some a, { s with routes := Keyed.put route rest s.routes })
    | _ => s.take others

def add (s : Script) (responses : List Answer) (routes : List (String × List Answer)) : Script :=
  { s with
    responses := s.responses ++ responses
    routes := routes.foldl (fun all r => Keyed.extend all r.1 r.2) s.routes }

def left (s : Script) : Nat := s.routes.foldl (fun n r => n + r.2.length) s.responses.length

def arrive (request : Http.Request) (s : Script) (files : Files.Store) : Script × Files.Store :=
  let (answer, s) := s.take (routesOf request)
  ({ s with current := answer }, files.edit (answer.elim [] (·.before)))

/-- Reads as much of the body as the answer says. -/
def wants (_ : Http.Request) (received : Received) (s : Script) : Bool :=
  (s.current.bind (·.take)).all fun n => received.size < n

def answer (request : Http.Request) (received : Received) (s : Script) (files : Files.Store) :
    Except Error Http.Response × Script × Files.Store :=
  let bytes := received.bytes
  let body := ((s.current.bind (·.take)).map fun n => bytes.extract 0 n).getD bytes
  let noted : ScriptRequest := ⟨request, body, received.chunks.map (·.size), received.failure⟩
  let t := { s with current := none, requests := s.requests.push noted }
  match s.current with
  | none => (.error (.transport (.given "no scripted response")), t, files)
  | some a =>
    let files := files.edit a.after
    match received.failure, a.error with
    | some cause, _ => (.error (.transport (.given cause.message)), t, files)
    | none, some e => (.error e, t, files)
    | none, none => (.ok a.response, t, files)

def connection : Connection Script where
  arrive := arrive
  wants := wants
  answer := answer

end Script

/-- What becomes of a request to a target when nobody can be reached: it is not sent unless the
target is a web URL that is still a target in its standard form. -/
def unreached (target : Uri) : Error :=
  match Url.ofText? target.text with
  | none => .invalid .notUrl
  | some url =>
    let shown := url.anonymous.text
    if url.isWeb && (Uri.parse shown).isOk then .transport (.connectFailed shown)
    else .invalid (.unusableUrl shown)

/-- A connection that reaches nobody; it notes nothing and leaves bodies alone. -/
def unreachable {σ : Type} : Connection σ where
  arrive _ s files := (s, files)
  wants _ _ _ := false
  answer request _ s files := (.error (unreached request.uri), s, files)

end ObjectTransfer.Rehearsal
