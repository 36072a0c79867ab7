import ObjectTransfer.Http.Message
import ObjectTransfer.Http.Range
import ObjectTransfer.ObjectKey
import ObjectTransfer.Text.Unsigned
import ObjectTransfer.Upload.SessionUri
/-!
The exchanges of a resumable upload: a POST starts a session, a PUT without bytes asks how much the
store holds of it, and a PUT with bytes sends the rest. For each exchange there is the request and
what its response means.
-/
namespace ObjectTransfer.Upload

inductive SessionState where
  | complete (eTag : Option String)
  /-- The store holds this many bytes. -/
  | incomplete (confirmed : Nat)
  | rejected (status : Http.Status)
  deriving Repr, DecidableEq, Inhabited

def numberHeader (name : String) (n : Nat) : String × Http.HeaderValue := (name, .text (toString n))

def objectTarget (key : ObjectKey) : Except Error Uri :=
  match Uri.parse key.uri with
  | .ok uri => .ok uri
  | .error fault => .error (.invalid (.uri fault))

/-- Asks for a new session. The length of the data is not the caller's to give. -/
def startRequest (key : ObjectKey) (headers : Http.Headers) : Except Error Http.Request :=
  if Http.Headers.has headers "content-length" then
    .error (.resumable .abort .contentLengthGiven)
  else
    match objectTarget key with
    | .error e => .error e
    | .ok uri => .ok ⟨.post, uri, Http.Headers.set headers "x-goog-resumable" (.text "start")⟩

def startedSession (response : Http.Response) : Except Error SessionUri :=
  match response.status.code with
  | 500 | 503 => .error (.resumable .waitBeforeRetry (.startPutOff response.status))
  | 200 | 201 =>
    match Http.Headers.text? response.headers "location" with
    | none => .error (.resumable .waitBeforeRetry .noSessionUri)
    | some location =>
      match SessionUri.parse location with
      | .ok uri => .ok uri
      | .error e => .error (.resumable .abort (.unusableSessionUri e.message))
  | _ => .error (.resumable .abort (.startRefused response.status))

/-- Asks how much of a session the store holds. -/
def queryRequest (session : SessionUri) (total : Nat) : Http.Request :=
  ⟨.put, session.uri,
    [("content-range", .text (Http.ContentRange.unsatisfied total).text),
     numberHeader "content-length" 0]⟩

/-- What the store holds of a session, from its answer to a query. The count is a word: behind the
largest offset it starts again from nothing. -/
def stateOf (response : Http.Response) : Except Error SessionState :=
  match response.status.code with
  | 200 | 201 => .ok (.complete (Http.Headers.text? response.headers "etag"))
  | 308 =>
    match Http.Headers.text? response.headers "range" with
    | none => .ok (.incomplete 0)
    | some range =>
      match Http.ByteRange.parse range with
      | .ok (.inclusive _ stop) => .ok (.incomplete ((stop + 1) % Text.Unsigned.limit))
      | _ => .error (.resumable .startOver (.unreadableState range))
  | _ => .ok (.rejected response.status)

/-- Sends an object of `total` bytes from `start` on. No range is named for an empty object. -/
def dataRequest (session : SessionUri) (start total : Nat) : Http.Request :=
  ⟨.put, session.uri,
    numberHeader "content-length" (total - start) ::
      if total = 0 then []
      else [("content-range", .text (Http.ContentRange.remaining start total).text)]⟩

def storedTag (response : Http.Response) : Except Error String :=
  match response.status.code with
  | 200 | 201 =>
    match Http.Headers.text? response.headers "etag" with
    | some eTag => .ok eTag
    | none => .error (.resumable .abort .finishedWithoutETag)
  | 408 | 500 | 503 => .error (.resumable .waitBeforeRetry (.dataRefused response.status))
  | _ => .error (.resumable .abort (.dataRefused response.status))

def deleteRequest (key : ObjectKey) : Except Error Http.Request :=
  match objectTarget key with
  | .error e => .error e
  | .ok uri => .ok ⟨.delete, uri, []⟩

end ObjectTransfer.Upload
