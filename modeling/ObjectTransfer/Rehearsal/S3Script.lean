import ObjectTransfer.Keyed
import ObjectTransfer.S3.Service
import ObjectTransfer.Text.Blank
import ObjectTransfer.Text.Xml
/-!
An S3 service that answers from a script, and by default as if everything succeeded. It may have one
object, which is read in ranges.
-/
namespace ObjectTransfer.Rehearsal

/-- A field of an answer: the default, or as given, perhaps missing. -/
abbrev Field (α : Type) := Option (Option α)

/-- What a successful answer says; only the fields of its call are looked at. -/
structure S3Fields where
  uploadId : Field String
  eTag : Field String
  size : Field Int
  parts : List (Option Int × Option String)
  truncated : Bool
  next : Option String
  data : Option ByteArray
  deriving Inhabited

/-- An answer that says nothing of its own. -/
def S3Fields.standard : S3Fields := ⟨none, none, none, [], false, none, none⟩

inductive S3Answer where
  | silence
  | status (code : Nat) (error : Option String)
  | success (fields : S3Fields)
  deriving Inhabited

structure S3Request where
  call : S3.Call
  sent : Bool
  deriving Inhabited

structure S3Script where
  object : Option ByteArray
  eTag : Option String
  script : List (String × List S3Answer)
  requests : Array S3Request
  deriving Inhabited

namespace S3Script

def empty : S3Script := ⟨none, none, [], #[]⟩

/-- The queues that are looked at for a call, the narrower one first. -/
def keysOf : S3.Call → List String
  | .create _ => ["create"]
  | .uploadPart _ number _ => ["part:" ++ toString number, "part"]
  | .complete _ _ => ["complete"]
  | .abort _ => ["abort"]
  | .listParts _ _ => ["list"]
  | .head _ => ["head"]
  | .get _ range => ["get:" ++ range.header, "get"]

/-- Takes the first answer of the first queue that has one. -/
def take (s : S3Script) : List String → S3Answer × S3Script
  | [] => (.success .standard, s)
  | key :: others =>
    match s.script.lookup key with
    | some (a :: rest) => (a, { s with script := Keyed.put key rest s.script })
    | _ => s.take others

def left (s : S3Script) : Nat := s.script.foldl (fun n q => n + q.2.length) 0

def add (s : S3Script) (script : List (String × List S3Answer)) : S3Script :=
  { s with script := script.foldl (fun all q => Keyed.extend all q.1 q.2) s.script }

/-- A value as it comes in a header, without the blanks around it. -/
def headerValue (value : Option String) : Option String := value.map Text.trim

def documentValue (value : Option String) : Except S3.Failure (Option String) :=
  if value.all Text.Xml.isText then .ok value else .error (.refused none)

/-- The length of an object is a number of 64 bits with a sign. -/
def isLength (n : Int) : Bool := -0x8000000000000000 ≤ n && n < 0x8000000000000000

/-- The number of a listed part is one of 32 bits with a sign. -/
def isListedNumber (n : Int) : Bool := -0x80000000 ≤ n && n < 0x80000000

/-- The bytes of the object that a range selects, when it selects any. -/
def dataOf? (s : S3Script) (range : Http.ByteRange) : Option ByteArray :=
  (s.object.bind range.slice?).filter fun data => !data.isEmpty

/-- What a successful answer gives for a call. A document that cannot be read makes it an error
without a code. -/
def reply (s : S3Script) (f : S3Fields) : (c : S3.Call) → Except S3.Failure c.Reply
  | .create _ => documentValue (f.uploadId.getD (some "upload-1"))
  | .uploadPart _ number _ =>
    .ok (headerValue (f.eTag.getD (some ("\"etag-" ++ toString number ++ "\""))))
  | .complete _ _ => documentValue (f.eTag.getD (some "\"final\""))
  | .abort _ => .ok ()
  | .listParts _ _ =>
    if f.parts.all (fun p => p.1.all isListedNumber && p.2.all Text.Xml.isText) &&
        f.next.all Text.Xml.isText then .ok ⟨f.parts, f.truncated, f.next⟩
    else .error (.refused none)
  | .head _ =>
    let eTag := headerValue (f.eTag.join <|> s.eTag)
    match f.size, s.object with
    | none, none => .error (.refused (some "NotFound"))
    | none, some data => .ok ⟨some data.size, eTag⟩
    | some length, _ =>
      if length.all isLength then .ok ⟨length, eTag⟩ else .error (.refused none)
  | .get _ range =>
    match f.data <|> s.dataOf? range with
    | some data => .ok (.ofBytes data)
    | none => .error (.refused (some "InvalidRange"))

def errorDocument (code : String) : String :=
  "<?xml version=\"1.0\" encoding=\"UTF-8\"?>\n" ++
    Text.Xml.element "Error"
      (Text.Xml.element "Code" (Text.Xml.encode code) ++ Text.Xml.element "Message" "scripted")

def readCode (code : String) : Option String := if Text.Xml.isText code then some code else none

/-- What a response comes to whose status is a success and whose body is empty or an error document.
The document makes it an error, except where the body is the data asked for; an empty body is
missed only where a document is expected. -/
def bareReply (error : Option String) : (c : S3.Call) → Except S3.Failure c.Reply
  | .get .. => .ok (.ofBytes (error.elim .empty fun code => (errorDocument code).toUTF8))
  | .uploadPart .. => if let some code := error then .error (.refused (readCode code)) else .ok none
  | .abort _ => if let some code := error then .error (.refused (readCode code)) else .ok ()
  | .head _ =>
    if let some code := error then .error (.refused (readCode code)) else .ok ⟨none, none⟩
  | .create _ | .complete .. | .listParts .. => .error (.refused (error.bind readCode))

def isSuccess (status : Nat) : Bool := 200 ≤ status && status < 300

/-- What an answer of the script comes to for a call. An error without a document has a code only
when its status is 404. -/
def outcome (s : S3Script) (c : S3.Call) : S3Answer → Except S3.Failure c.Reply
  | .silence => .error .notDispatched
  | .status status error =>
    if isSuccess status then bareReply error c
    else
      match error with
      | some code => .error (.refused (readCode code))
      | none => .error (.refused (if status = 404 then some "NotFound" else none))
  | .success fields => s.reply fields c

def answer (c : S3.Call) (s : S3Script) : Except S3.Failure c.Reply × S3Script :=
  let s := { s with requests := s.requests.push ⟨c, c.obstacle?.isNone⟩ }
  match c.obstacle? with
  | some failure => (.error failure, s)
  | none =>
    let (a, t) := s.take (keysOf c)
    (s.outcome c a, t)

def service : S3 S3Script := ⟨answer⟩

end S3Script

end ObjectTransfer.Rehearsal
