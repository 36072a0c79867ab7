import ObjectTransfer.Connection
import ObjectTransfer.Digest.Md5
import ObjectTransfer.Http.Range
import ObjectTransfer.Upload.SessionUri
/-!
A store in memory that speaks the upload protocol and serves its objects in ranges. Failures can be
arranged for: an exchange can be answered with a status instead, and a request that sends data can
be cut off after a number of bytes. What arrived before the cut is kept, and an object is stored as
soon as its last byte has arrived, even when the answer to that request is lost.
-/
namespace ObjectTransfer.Rehearsal

inductive Exchange where
  | start
  | query
  | chunk
  deriving Repr, DecidableEq, Inhabited

structure ServerSession where
  path : String
  data : ByteArray
  /-- The entity tag of the object, once it is stored. -/
  eTag : Option String
  deriving Inhabited

structure ServerRequest where
  exchange : Option Exchange
  method : Http.Method
  headers : Http.Headers
  body : ByteArray
  deriving Inhabited

structure Server where
  /-- Sessions started so far; they are named by their numbers. -/
  started : Nat
  sessions : List (String × ServerSession)
  objects : List (String × ByteArray)
  /-- Statuses with which exchanges are to be answered. -/
  scripted : List (Exchange × Http.Status)
  /-- After how many bytes requests that send data are to be cut off, one entry for each of them. -/
  breaks : List Nat
  /-- What happens to the files at the next cut. -/
  onBreak : Option (List Files.Edit)
  /-- The entity tag that objects get instead of their digest. -/
  eTag : Option String
  /-- Whether the answer to a start leaves the session out. -/
  omitLocation : Bool
  requests : Array ServerRequest
  deriving Inhabited

namespace Server

def empty : Server := ⟨0, [], [], [], [], none, none, false, #[]⟩

def digestTag (data : ByteArray) : String := "\"" ++ Digest.md5Hex data ++ "\""

def responseWith (code : Nat) (name value : String) : Http.Response :=
  ⟨⟨code⟩, [(name, .ofText value)], .empty⟩

def note (s : Server) (exchange : Option Exchange) (request : Http.Request) (body : ByteArray) :
    Server :=
  { s with requests := s.requests.push ⟨exchange, request.method, request.headers, body⟩ }

def scripted? (s : Server) (exchange : Exchange) : Option Http.Status := s.scripted.lookup exchange

def takeScripted (s : Server) (exchange : Exchange) : Server :=
  { s with scripted := s.scripted.eraseP fun entry => entry.1 = exchange }

def uploadId? (uri : Uri) : Option String :=
  uri.query.bind fun query =>
    ((query.toList.splitOn '&').findSome? (Text.after? "upload_id=".toList)).map String.ofList

/-- Whether a PUT asks for the state of its session. -/
def isQuery (request : Http.Request) : Bool :=
  ((Http.Headers.text? request.headers "content-range").any fun range =>
    (Text.after? "bytes */".toList range.toList).isSome) &&
  Http.Headers.text? request.headers "content-length" = some "0"

/-- What a request is for. -/
inductive Kind where
  | start
  | query (id : String)
  | chunk (id : String)
  | unnamed
  | other
  deriving Repr, DecidableEq, Inhabited

def kindOf (request : Http.Request) : Kind :=
  if request.method = .post &&
      Http.Headers.text? request.headers "x-goog-resumable" = some "start" then
    .start
  else if request.method = .put then
    match uploadId? request.uri with
    | none => .unnamed
    | some id => if isQuery request then .query id else .chunk id
  else .other

/-- Where the data of a request begins, and the size of the whole object. -/
def placement (request : Http.Request) : Except Error (Nat × Nat) :=
  match Http.Headers.text? request.headers "content-range" with
  | none => .ok (0, 0)
  | some range =>
    (Http.ContentRange.parse range).map fun
      | .bytes start _ total => (start, total)
      | .unsatisfied total => (total, total)

/-- The session into which data can be received, and how much of it is kept. -/
def acceptable (s : Server) (id : String) (request : Http.Request) :
    Except Http.Status (ServerSession × Nat × Nat) :=
  match placement request with
  | .error _ => .error ⟨400⟩
  | .ok (start, total) =>
    match s.sessions.lookup id with
    | none => .error ⟨404⟩
    | some session =>
      if session.data.size < start then .error ⟨400⟩ else .ok (session, start, total)

/-- Whether more of a body is asked for: the server reads on until the cut. -/
def wants (request : Http.Request) (received : Received) (s : Server) : Bool :=
  match kindOf request with
  | .chunk id =>
    if (s.scripted? .chunk).isSome then true
    else
      match s.acceptable id request, s.breaks with
      | .error _, _ => false
      | .ok _, [] => true
      | .ok _, limit :: _ => received.newest.isEmpty || received.size < limit
  | _ => false

def startSession (s : Server) (request : Http.Request) : Http.Response × Server :=
  let n := s.started + 1
  let path := request.uri.path
  let sessions := Keyed.put (toString n) ⟨path, .empty, none⟩ s.sessions
  let s := { s with started := n, sessions }
  if s.omitLocation then (.bare 200, s)
  else
    let origin := request.uri.scheme.getD "http" ++ "://" ++ request.uri.authority.getD "localhost"
    let location := origin ++ path ++ "?upload_id=" ++ toString n
    (responseWith 200 "location" location, s)

/-- Tells how much of a session is held. -/
def sessionState (s : Server) (id : String) : Http.Response :=
  match s.sessions.lookup id with
  | none => .bare 404
  | some session =>
    match session.eTag with
    | some eTag => responseWith 200 "etag" eTag
    | none =>
      if session.data.size = 0 then .bare 308
      else responseWith 308 "range" ("bytes=0-" ++ toString (session.data.size - 1))

/-- Adds data to a session; a session that is complete becomes an object with an entity tag. -/
def extend (s : Server) (id : String) (session : ServerSession) (data : ByteArray) (total : Nat) :
    Option String × Server :=
  let data := session.data ++ data
  if data.size = total then
    let eTag := s.eTag.getD (digestTag data)
    (some eTag,
      { s with
        sessions := Keyed.put id { session with data, eTag := some eTag } s.sessions
        objects := Keyed.put session.path data s.objects })
  else (none, { s with sessions := Keyed.put id { session with data } s.sessions })

def receive (s : Server) (id : String) (request : Http.Request) (received : Received)
    (files : Files.Store) : Except Error Http.Response × Server × Files.Store :=
  match s.acceptable id request with
  | .error status => (.ok (.bare status.code), s, files)
  | .ok (session, start, total) =>
    let session := { session with data := session.data.extract 0 start }
    let limit := s.breaks.head?
    let s := { s with sessions := Keyed.put id session s.sessions, breaks := s.breaks.drop 1 }
    match received.failure with
    | some cause => (.error (.transport (.given cause.message)), s, files)
    | none =>
      let cut := limit.filter fun limit => !received.newest.isEmpty && limit ≤ received.size
      let data :=
        match cut with
        | some limit => received.bytes.extract 0 limit
        | none => received.bytes
      let (eTag, s) := (s.note (some .chunk) request data).extend id session data total
      match cut, eTag with
      | none, some eTag => (.ok (responseWith 200 "etag" eTag), s, files)
      | none, none => (.ok (.bare 308), s, files)
      | some _, _ =>
        (.error (.transport (.given "connection reset by peer")), { s with onBreak := none },
          files.edit (s.onBreak.getD []))

def serve (s : Server) (request : Http.Request) : Http.Response × Server :=
  let path := request.uri.path
  match request.method, s.objects.lookup path with
  | .head, some data =>
    let headers : Http.Headers :=
      [("content-length", .text (toString data.size)), ("etag", .text (digestTag data))]
    (⟨⟨200⟩, headers, .empty⟩, s)
  | .get, some data =>
    let range := Http.Headers.text? request.headers "range"
    match range.bind fun text => (Http.ByteRange.parse text).toOption with
    | none => (⟨⟨200⟩, [], .ofBytes data⟩, s)
    | some range =>
      match range.slice? data with
      | some bytes => (⟨⟨206⟩, [], .ofBytes bytes⟩, s)
      | none => (.bare 416, s)
  | .delete, some _ => (.bare 204, { s with objects := s.objects.filter fun o => o.1 != path })
  | .head, none | .get, none | .delete, none => (.bare 404, s)
  | .post, _ | .put, _ => (.bare 405, s)

def answer (request : Http.Request) (received : Received) (s : Server) (files : Files.Store) :
    Except Error Http.Response × Server × Files.Store :=
  match kindOf request with
  | .start =>
    let s := s.note (some .start) request .empty
    match s.scripted? .start with
    | some status => (.ok (.bare status.code), s.takeScripted .start, files)
    | none =>
      let (response, s) := s.startSession request
      (.ok response, s, files)
  | .query id =>
    let s := s.note (some .query) request .empty
    match s.scripted? .query with
    | some status => (.ok (.bare status.code), s.takeScripted .query, files)
    | none => (.ok (s.sessionState id), s, files)
  | .chunk id =>
    match s.scripted? .chunk with
    | some status =>
      (.ok (.bare status.code), (s.note (some .chunk) request .empty).takeScripted .chunk, files)
    | none => s.receive id request received files
  | .unnamed => (.ok (.bare 400), s, files)
  | .other =>
    let (response, s) := (s.note none request .empty).serve request
    (.ok response, s, files)

def connection : Connection Server where
  arrive _ s files := (s, files)
  wants := wants
  answer := answer

def bytesReceived (s : Server) : Nat :=
  s.requests.foldl (fun n r => if r.exchange = some .chunk then n + r.body.size else n) 0

end Server

end ObjectTransfer.Rehearsal
