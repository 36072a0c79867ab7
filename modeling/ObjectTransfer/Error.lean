import ObjectTransfer.Files.Fault
import ObjectTransfer.Http.ByteRange
import ObjectTransfer.Http.Status
import ObjectTransfer.Text.Quoted
import ObjectTransfer.Text.Unsigned
import ObjectTransfer.Uri
/-!
Errors of transfers. An error is a kind, possibly around the kinds of the errors it was caused by,
and at the bottom the reason: a value that says what went wrong, with its wording in one place. The
disposition of an error says what a transfer that can be resumed does about it.
-/
namespace ObjectTransfer

/-- What a failed attempt means for a transfer that can be resumed. -/
inductive Disposition where
  /-- The session is unknown to the store; a new one has to be started. -/
  | startOver
  /-- A passing failure; the transfer is tried again after a delay. -/
  | waitBeforeRetry
  /-- Give up for now and keep the tracker file. -/
  | abortCurrentProcess
  /-- Give up for good and delete the tracker file. -/
  | abort
  deriving Repr, DecidableEq, Inhabited

def Disposition.name : Disposition → String
  | .startOver => "StartOver"
  | .waitBeforeRetry => "WaitBeforeRetry"
  | .abortCurrentProcess => "AbortCurrentProcess"
  | .abort => "Abort"

/-- Error codes of a store; a code that is not in the table is kept as it came. -/
inductive ServiceCode where
  | accessDenied
  | badRequest
  | entityTooSmall
  | internalError
  | invalidArgument
  | invalidPart
  | invalidPartOrder
  | invalidStorageClass
  | noSuchBucket
  | noSuchKey
  | noSuchUpload
  | preconditionFailed
  | requestTimeout
  | serviceUnavailable
  | slowDown
  | unauthorized
  | unknown (code : String)
  deriving Repr, DecidableEq, Inhabited

namespace ServiceCode

/-- The codes as they are written on the wire. -/
def table : List (String × ServiceCode) :=
  [("AccessDenied", .accessDenied), ("BadRequest", .badRequest),
   ("EntityTooSmall", .entityTooSmall), ("InternalError", .internalError),
   ("InvalidArgument", .invalidArgument), ("InvalidPart", .invalidPart),
   ("InvalidPartOrder", .invalidPartOrder), ("InvalidStorageClass", .invalidStorageClass),
   ("NoSuchBucket", .noSuchBucket), ("NoSuchKey", .noSuchKey), ("NoSuchUpload", .noSuchUpload),
   ("PreconditionFailed", .preconditionFailed), ("RequestTimeout", .requestTimeout),
   ("ServiceUnavailable", .serviceUnavailable), ("SlowDown", .slowDown),
   ("Unauthorized", .unauthorized)]

def ofCode (code : String) : ServiceCode := (table.lookup code).getD (.unknown code)

/-- The code for a failed response that carried none. -/
def ofStatus (s : Http.Status) : ServiceCode :=
  match s.code with
  | 400 => .badRequest
  | 401 => .unauthorized
  | 403 => .accessDenied
  | 404 => .noSuchKey
  | 408 => .requestTimeout
  | 412 => .preconditionFailed
  | 429 => .slowDown
  | 500 => .internalError
  | 503 => .serviceUnavailable
  | n => .unknown (toString n)

def text : ServiceCode → String
  | .unknown code => code
  | known => ((table.find? fun row => row.2 = known).map (·.1)).getD "Unknown"

/-- The same request may succeed when it is sent again. -/
def isRetryable : ServiceCode → Bool
  | .internalError | .requestTimeout | .serviceUnavailable | .slowDown => true
  | _ => false

end ServiceCode

/-- Names the part of a transfer that failed. -/
inductive ChunkId where
  /-- Index of a part that was to be downloaded, from zero. -/
  | download (index : Nat)
  /-- Number of a part that was to be uploaded, from one. -/
  | upload (number : Int)
  deriving Repr, DecidableEq, Inhabited

def ChunkId.text : ChunkId → String
  | .download index => "Download(" ++ toString index ++ ")"
  | .upload number => "Upload(" ++ toString number ++ ")"

/-- The general categories of errors. -/
inductive Kind where
  | inputInvalid
  | ioError
  | runtimeError
  | transport
  | service (code : ServiceCode)
  | notFound
  | chunkFailed (chunk : ChunkId)
  | resumable (disposition : Disposition)
  | operationCancelled
  deriving Repr, DecidableEq, Inhabited

inductive OffsetHeader where
  | range
  | contentRange
  deriving Repr, DecidableEq, Inhabited

def OffsetHeader.text : OffsetHeader → String
  | .range => "range"
  | .contentRange => "content range"

/-- What went wrong, at the bottom of an error. -/
inductive Reason where
  /-- The words of a collaborator. -/
  | given (text : String)
  | file (fault : Files.Fault)
  | uri (fault : Uri.Fault)
  | unsupportedRangeUnit (text : String)
  | multipleRanges (text : String)
  | malformedRange (text : String)
  | invertedRange (text : String)
  | unsupportedContentRange (text : String)
  | malformedContentRange (text : String)
  | invalidOffset (header : OffsetHeader) (text : String) (fault : Text.Unsigned.Fault)
  | invalidSessionUri (text : String)
  | trackerUnwritable (path : String) (fault : Files.Fault)
  | noProgress (attempts : Nat)
  | sourceEndedEarly
  | sourceGrew
  | sourceChanged (read expected : Nat)
  | sizeChanged (expected found : Nat)
  | contentLengthGiven
  | startPutOff (status : Http.Status)
  | startRefused (status : Http.Status)
  | noSession
  | noSessionUri
  | unusableSessionUri (cause : String)
  | unreadableState (range : String)
  | queryRefused (status : Http.Status)
  | completeWithoutETag
  | dataRefused (status : Http.Status)
  | finishedWithoutETag
  | badRequestAfterFailure (failure : String)
  | uploadCorrupted
  | metadataStatus (status : Http.Status) (target : String)
  | rangeStatus (status : Http.Status) (range : Http.ByteRange) (target : String)
  | missingField (field : String)
  | tooManyBytes
  | connectionClosed (received total : Nat)
  | downloadCorrupted (actual expected : String)
  | wrongPartLength (index got expected : Nat)
  | fetchersGone
  | uploadersGone
  | noS3Client
  | invalidStorageClass (name : String)
  | invalidMetadataKey (key : String)
  | partNumberOutside (number : Int)
  | noParts
  | partsNotContiguous (expected found : Int)
  | partSizeTooSmall (size : Nat)
  | tooManyParts (size count partSize : Nat)
  | fileEndedEarly
  | serviceRefused
  | notDispatched
  | notConstructed
  | notSatisfiable (range : Http.ByteRange)
  | connectFailed (url : String)
  /-- The target is a URL that a client cannot connect to. -/
  | unusableUrl (url : String)
  /-- The target is no URL. -/
  | notUrl
  deriving Repr, DecidableEq, Inhabited

def maxPartNumber : Nat := 10000

/-- The least size of a part that is not the last one: five mebibytes. -/
def minUploadPart : Nat := 5242880

def Reason.message : Reason → String
  | .given text => text
  | .file fault => fault.message
  | .uri fault => fault.message
  | .unsupportedRangeUnit t => "unsupported range unit: " ++ Text.quoted t
  | .multipleRanges t => "multiple ranges are not supported: " ++ Text.quoted t
  | .malformedRange t => "malformed range: " ++ Text.quoted t
  | .invertedRange t => "inverted range: " ++ Text.quoted t
  | .unsupportedContentRange t => "unsupported content range: " ++ Text.quoted t
  | .malformedContentRange t => "malformed content range: " ++ Text.quoted t
  | .invalidOffset header t fault =>
    "invalid " ++ header.text ++ " offset " ++ Text.quoted t ++ ": " ++ fault.message
  | .invalidSessionUri t => "invalid session URI: " ++ Text.quoted t
  | .trackerUnwritable path fault =>
    "couldn't write tracker file " ++ path ++ ": " ++ fault.message ++
      "; the transfer cannot be resumed"
  | .noProgress attempts =>
    "too many resumable transfer attempts failed without progress (" ++ toString attempts ++
      " attempts)"
  | .sourceEndedEarly => "file changed during upload: ended early"
  | .sourceGrew => "file changed during upload: grew"
  | .sourceChanged read expected =>
    "file changed during upload: read " ++ toString read ++ " of " ++ toString expected ++
      " expected bytes"
  | .sizeChanged expected found =>
    "file size changed during upload: expected " ++ toString expected ++ " bytes, found " ++
      toString found
  | .contentLengthGiven => "attempt to specify Content-Length header (disallowed)"
  | .startPutOff s =>
    "got status " ++ s.text ++ " from attempt to start resumable upload, will retry"
  | .startRefused s =>
    "got status " ++ s.text ++ " from attempt to start resumable upload, aborting"
  | .noSession => "no upload session"
  | .noSessionUri => "no session URI found in resumable upload start response"
  | .unusableSessionUri cause =>
    "resumable upload start returned an unusable session URI: " ++ cause
  | .unreadableState range =>
    "couldn't parse upload server state range " ++ Text.quoted range
  | .queryRefused s => "session state query was refused with status " ++ s.text
  | .completeWithoutETag => "completed upload session reported no ETag"
  | .dataRefused s => "got response code " ++ s.text ++ " while attempting upload"
  | .finishedWithoutETag => "resumable upload completed without an ETag"
  | .badRequestAfterFailure failure =>
    "got 400 response from server state query after failed resumable upload attempt (" ++ failure ++
      "); the request may be invalid or the file size changed between attempts"
  | .uploadCorrupted =>
    "file changed during upload: md5 signature doesn't match etag " ++
      "(incorrect uploaded object deleted)"
  | .metadataStatus s target =>
    "unexpected status " ++ s.text ++ " fetching metadata of " ++ target
  | .rangeStatus s range target =>
    "unexpected status " ++ s.text ++ " fetching " ++ range.header ++ " of " ++ target
  | .missingField field => "response is missing " ++ field
  | .tooManyBytes => "received more bytes than the object size"
  | .connectionClosed received total =>
    "connection closed after " ++ toString received ++ " of " ++ toString total ++ " bytes"
  | .downloadCorrupted actual expected =>
    "MD5 signature doesn't match ETag (" ++ actual ++ " vs " ++ expected ++ ")"
  | .wrongPartLength index got expected =>
    "part " ++ toString index ++ " returned " ++ toString got ++ " bytes, expected " ++
      toString expected
  | .fetchersGone => "download workers exited before every part was fetched"
  | .uploadersGone => "upload workers exited before every part was stored"
  | .noS3Client => "no S3 client configured"
  | .invalidStorageClass name => "invalid storage class: " ++ Text.quoted name
  | .invalidMetadataKey key => "invalid metadata key: " ++ Text.quoted key
  | .partNumberOutside number =>
    "part number " ++ toString number ++ " is outside 1..=" ++ toString maxPartNumber
  | .noParts => "cannot complete a multipart upload without parts"
  | .partsNotContiguous expected found =>
    "parts are not contiguous: expected part " ++ toString expected ++ ", found " ++ toString found
  | .partSizeTooSmall size =>
    "part size " ++ toString size ++ " is below the " ++ toString minUploadPart ++ " byte minimum"
  | .tooManyParts size count partSize =>
    toString size ++ " bytes need " ++ toString count ++ " parts of " ++ toString partSize ++
      " bytes, more than " ++ toString maxPartNumber
  | .fileEndedEarly => "early eof"
  | .serviceRefused => "service error"
  | .notDispatched => "dispatch failure"
  | .notConstructed => "failed to construct request"
  | .notSatisfiable range => "range " ++ range.text ++ " not satisfiable"
  | .connectFailed url => "error sending request for url (" ++ url ++ ")"
  | .unusableUrl url => "builder error for url (" ++ url ++ ")"
  | .notUrl => "builder error"

/-- What an error was caused by: the kinds of the errors in between, outermost first, and the
reason. -/
structure Cause where
  kinds : List Kind
  reason : Reason
  deriving Repr, DecidableEq, Inhabited

structure Error where
  kind : Kind
  cause : Cause
  deriving Repr, DecidableEq, Inhabited

/-- What is shown for an error of this kind when its cause shows as `source`. -/
def Kind.message (source : String) : Kind → String
  | .inputInvalid => "invalid input"
  | .ioError => "I/O error"
  | .runtimeError => "runtime error"
  | .transport => "transport error"
  | .service code => "service error (" ++ code.text ++ ")"
  | .notFound => "resource not found"
  | .chunkFailed chunk => "failed to process chunk " ++ chunk.text
  | .resumable disposition =>
    "resumable transfer failed (" ++ disposition.name ++ "): " ++ source
  | .operationCancelled => "operation cancelled"

/-- What is shown for errors of these kinds, one around the next, with the reason innermost. -/
def Reason.messageUnder (reason : Reason) : List Kind → String
  | [] => reason.message
  | k :: ks => k.message (reason.messageUnder ks)

namespace Cause

def of (reason : Reason) : Cause := ⟨[], reason⟩

def message (c : Cause) : String := c.reason.messageUnder c.kinds

/-- The errors in a cause, outermost first, each with what it shows. -/
def layers (reason : Reason) : List Kind → List (Kind × String)
  | [] => []
  | k :: ks => (k, reason.messageUnder (k :: ks)) :: layers reason ks

end Cause

namespace Error

def of (kind : Kind) (reason : Reason) : Error := ⟨kind, .of reason⟩

def asCause (e : Error) : Cause := ⟨e.kind :: e.cause.kinds, e.cause.reason⟩

def around (kind : Kind) (e : Error) : Error := ⟨kind, e.asCause⟩

def message (e : Error) : String := e.kind.message e.cause.message

/-- What a transfer that can be resumed does about the error; `none` leaves it to the caller. -/
def disposition (e : Error) : Option Disposition :=
  match e.kind with
  | .resumable d => some d
  | .transport | .ioError => some .waitBeforeRetry
  | .service code => if code.isRetryable then some .waitBeforeRetry else none
  | _ => none

def isRetryable (e : Error) : Bool :=
  e.disposition = some .startOver || e.disposition = some .waitBeforeRetry

def invalid (reason : Reason) : Error := of .inputInvalid reason

def transport (reason : Reason) : Error := of .transport reason

def io (fault : Files.Fault) : Error := of .ioError (.file fault)

def resumable (d : Disposition) (reason : Reason) : Error := of (.resumable d) reason

def incomplete (field : String) : Error :=
  of (.service (.unknown "IncompleteResponse")) (.missingField field)

/-- A response whose status the operation does not expect. -/
def ofStatus (s : Http.Status) (reason : Reason) : Error :=
  if s.code = 404 then of .notFound reason else of (.service (.ofStatus s)) reason

end Error

end ObjectTransfer
