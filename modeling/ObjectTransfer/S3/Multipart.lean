import ObjectTransfer.S3.Service
import ObjectTransfer.World
/-!
The steps of a multipart upload: it is initiated, its parts are uploaded under their numbers, and it
is completed from the list of them or aborted. What a service would refuse for its form is refused
before any call.
-/
namespace ObjectTransfer.S3

def storageClasses : List String :=
  ["AWS_BACKUP_LOW_COST_WARM", "AWS_BACKUP_WARM", "DEEP_ARCHIVE", "EXPRESS_ONEZONE", "FSX_ONTAP",
   "FSX_OPENZFS", "GLACIER", "GLACIER_IR", "INTELLIGENT_TIERING", "ONEZONE_IA", "OUTPOSTS",
   "REDUCED_REDUNDANCY", "SNOW", "STANDARD", "STANDARD_IA"]

def isHeaderNameChar (c : Char) : Bool :=
  c.isAlphanum || ("!#$%&'*+-.^_|~".toList ++ [Char.ofNat 96]).contains c

/-- Names of headers have no more bytes than these. -/
def maxHeaderName : Nat := 65535

def isHeaderName (name : String) : Bool :=
  name != "" && name.utf8ByteSize ≤ maxHeaderName && name.toList.all isHeaderNameChar

def isMetadataKey (key : String) : Bool := key != "" && isHeaderName ("x-amz-meta-" ++ key)

namespace Description

def withMetadata (d : Description) (key value : String) : Description :=
  { d with metadata := Keyed.put key value d.metadata }

def validate (d : Description) : Except Error Unit :=
  match d.storageClass.filter (!storageClasses.contains ·) with
  | some name => .error (.invalid (.invalidStorageClass name))
  | none =>
    match d.metadata.find? fun m => !isMetadataKey m.1 with
    | some (key, _) => .error (.invalid (.invalidMetadataKey key))
    | none => .ok ()

end Description

def isPartNumber (n : Int) : Bool := 1 ≤ n && n ≤ maxPartNumber

/-- Puts a part in the place of its number, instead of one with the same number. -/
def insertPart (p : UploadedPart) : List UploadedPart → List UploadedPart
  | [] => [p]
  | q :: qs =>
    if p.number < q.number then p :: q :: qs
    else if p.number = q.number then p :: qs
    else q :: insertPart p qs

/-- The parts by their numbers, the last one where several have the same. -/
def sortParts (parts : List UploadedPart) : List UploadedPart :=
  parts.foldl (fun l p => insertPart p l) []

def checkContiguous (expected : Int) : List UploadedPart → Except Error Unit
  | [] => .ok ()
  | p :: ps =>
    if p.number = expected then checkContiguous (expected + 1) ps
    else .error (.invalid (.partsNotContiguous expected p.number))

/-- The parts as an upload is completed from them: numbered from one without gaps. -/
def orderedParts (parts : List UploadedPart) : Except Error (List UploadedPart) :=
  match sortParts parts with
  | [] => .error (.invalid .noParts)
  | sorted => (checkContiguous 1 sorted).map fun _ => sorted

structure Completed where
  eTag : String
  parts : Nat
  deriving Repr, DecidableEq, Inhabited

def required {α : Type} (field : String) : Option α → Except Error α
  | some a => .ok a
  | none => .error (.incomplete field)

def Page.uploaded (p : Page) : Except Error (List UploadedPart) :=
  p.parts.mapM fun
    | (some number, some eTag) => .ok ⟨number, eTag⟩
    | _ => .error (.incomplete "a listed part number or ETag")

end ObjectTransfer.S3

namespace ObjectTransfer.S3

variable {σ : Type}

def request (s : S3 σ) (c : Call) (w : World σ) : Except Error c.Reply × World σ :=
  let (result, peer) := s.call c w.peer
  (result.mapError Failure.error, { w with peer })

def initiate (s : S3 σ) (d : Description) (w : World σ) : Except Error Upload × World σ :=
  match d.validate with
  | .error e => (.error e, w)
  | .ok () =>
    let (result, w) := s.request (.create d) w
    (result.bind fun id => (required "the upload ID" id).map fun id => ⟨d.location, id⟩, w)

def uploadPart (s : S3 σ) (u : Upload) (number : Int) (data : ByteArray) (w : World σ) :
    Except Error UploadedPart × World σ :=
  if !isPartNumber number then (.error (.invalid (.partNumberOutside number)), w)
  else
    let (result, w) := s.request (.uploadPart u number data) w
    (result.bind fun eTag => (required "the part ETag" eTag).map fun eTag => ⟨number, eTag⟩, w)

def complete (s : S3 σ) (u : Upload) (parts : List UploadedPart) (w : World σ) :
    Except Error Completed × World σ :=
  match orderedParts parts with
  | .error e => (.error e, w)
  | .ok sorted =>
    let (result, w) := s.request (.complete u sorted) w
    (result.bind fun eTag =>
      (required "the completed object ETag" eTag).map fun eTag => ⟨eTag, sorted.length⟩, w)

def abort (s : S3 σ) (u : Upload) (w : World σ) : Except Error Unit × World σ :=
  s.request (.abort u) w

/-- What follows a page of a listing: all is listed, or there is a page behind the marker. -/
def Page.continuation (p : Page) : Except Error (Option String) :=
  if p.truncated then (required "the next part number marker" p.next).map some else .ok none

/-- Lists the parts behind a marker, page after page. `none` when there are more than `limit`
pages. -/
def listFrom (s : S3 σ) (u : Upload) : (limit : Nat) → (marker : Option String) →
    (listed : List UploadedPart) → World σ → Option (Except Error (List UploadedPart) × World σ)
  | 0, _, _, _ => none
  | limit + 1, marker, listed, w =>
    match s.request (.listParts u marker) w with
    | (.error e, w) => some (.error e, w)
    | (.ok page, w) =>
      match page.uploaded, page.continuation with
      | .error e, _ => some (.error e, w)
      | .ok _, .error e => some (.error e, w)
      | .ok parts, .ok none => some (.ok (listed ++ parts), w)
      | .ok parts, .ok (some marker) => listFrom s u limit (some marker) (listed ++ parts) w

def listParts (s : S3 σ) (u : Upload) (limit : Nat) (w : World σ) :
    Option (Except Error (List UploadedPart) × World σ) :=
  s.listFrom u limit none [] w

end ObjectTransfer.S3
