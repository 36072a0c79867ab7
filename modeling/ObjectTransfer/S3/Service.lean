import ObjectTransfer.Error
import ObjectTransfer.Http.Body
import ObjectTransfer.S3.Arn
import ObjectTransfer.Text.Blank
/-!
The calls of an S3 service that transfers make, what they give, and how they fail. A call that
cannot be built, or whose bucket cannot be addressed, fails without being sent.
-/
namespace ObjectTransfer.S3

/-- Where an object is. -/
structure Location where
  bucket : String
  key : String
  deriving Repr, DecidableEq, Inhabited

/-- A multipart upload that was initiated. -/
structure Upload where
  location : Location
  id : String
  deriving Repr, DecidableEq, Inhabited

structure UploadedPart where
  number : Int
  eTag : String
  deriving Repr, DecidableEq, Inhabited

/-- What an upload is initiated with. -/
structure Description where
  location : Location
  contentType : Option String
  storageClass : Option String
  /-- Each key once. -/
  metadata : List (String × String)
  deriving Repr, DecidableEq, Inhabited

inductive Call where
  | create (description : Description)
  | uploadPart (upload : Upload) (number : Int) (data : ByteArray)
  | complete (upload : Upload) (parts : List UploadedPart)
  | abort (upload : Upload)
  | listParts (upload : Upload) (marker : Option String)
  | head (location : Location)
  | get (location : Location) (range : Http.ByteRange)
  deriving Inhabited

/-- A page of a listing of parts; a field may be missing. -/
structure Page where
  parts : List (Option Int × Option String)
  truncated : Bool
  next : Option String
  deriving Repr, DecidableEq, Inhabited

/-- What is said of an object; a field may be missing. -/
structure Head where
  length : Option Int
  eTag : Option String
  deriving Repr, DecidableEq, Inhabited

/-- What a call gives when it succeeds; a field may be missing. -/
@[reducible] def Call.Reply : Call → Type
  | .create _ => Option String
  | .uploadPart .. => Option String
  | .complete .. => Option String
  | .abort _ => Unit
  | .listParts .. => Page
  | .head _ => Head
  | .get .. => Http.Body

inductive Failure where
  /-- The call could not be built. -/
  | notConstructed
  /-- No answer came. -/
  | notDispatched
  /-- The service answered with an error, perhaps with a code. -/
  | refused (code : Option String)
  deriving Repr, DecidableEq, Inhabited

namespace Failure

/-- Codes that say that something does not exist. -/
def absent : List String := ["NotFound", "NoSuchKey", "NoSuchUpload", "NoSuchBucket"]

def error : Failure → Error
  | .notConstructed => .invalid .notConstructed
  | .notDispatched => .transport .notDispatched
  | .refused none => .of (.service (.unknown "Unknown")) .serviceRefused
  | .refused (some code) =>
    if absent.contains code then .of .notFound .serviceRefused
    else .of (.service (.ofCode code)) .serviceRefused

end Failure

/-- Characters that a header value may hold: all but the control characters other than the tab. -/
def isHeaderChar (c : Char) : Bool := c == '\t' || (32 ≤ c.toNat && c.toNat != 127)

def isHeaderText (s : String) : Bool := s.toList.all isHeaderChar

def Location.isComplete (l : Location) : Bool :=
  !Text.isBlankText l.bucket && !Text.isBlankText l.key

def Upload.isComplete (u : Upload) : Bool := u.location.isComplete && u.id != ""

namespace Call

def location : Call → Location
  | .create d => d.location
  | .uploadPart u _ _ | .complete u _ | .abort u | .listParts u _ => u.location
  | .head l | .get l _ => l

/-- Whether the call can be built: bucket and key are not blank, the name of an upload is not empty,
and every text fits into its header. -/
def isBuildable : Call → Bool
  | .create d =>
    d.location.isComplete && d.contentType.all isHeaderText &&
      d.metadata.all fun m => isHeaderText m.2
  | .uploadPart u _ _ | .complete u _ | .abort u | .listParts u _ => u.isComplete
  | .head l | .get l _ => l.isComplete

def obstacle? (c : Call) : Option Failure :=
  if !c.isBuildable then some .notConstructed
  else if !Arn.addresses c.location.bucket then some .notDispatched
  else none

end Call

end ObjectTransfer.S3

namespace ObjectTransfer

/-- The behaviour of an S3 service; `σ` is its state. -/
structure S3 (σ : Type) where
  call : (c : S3.Call) → σ → Except S3.Failure c.Reply × σ

end ObjectTransfer
