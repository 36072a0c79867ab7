import ObjectTransfer.Download.Concurrent
import ObjectTransfer.Download.Resumed
import ObjectTransfer.Rehearsal.MemoryObject
import ObjectTransfer.Rehearsal.S3Script
import ObjectTransfer.Rehearsal.Script
import ObjectTransfer.S3.Concurrent
import ObjectTransfer.S3.Object
import ObjectTransfer.Upload.Handler
/-!
Rehearsals. A client is put among peers whose behaviour is arranged for, and makes its transfers
step by step; what each step gave, and what the peers noted of it, can be looked at afterwards.
-/
namespace ObjectTransfer.Rehearsal

structure Peers where
  script : Script
  server : Server
  s3 : S3Script
  objects : List (String × MemoryObject)
  deriving Inhabited

/-- What the connection of the client leads to. -/
inductive Line where
  | script
  | server
  | nobody
  deriving Repr, DecidableEq, Inhabited

def Line.connection : Line → Connection Peers
  | .script => Script.connection.within (·.script) fun s p => { p with script := s }
  | .server => Server.connection.within (·.server) fun s p => { p with server := s }
  | .nobody => unreachable

def s3 : S3 Peers where
  call c p :=
    let (result, s) := S3Script.answer c p.s3
    (result, { p with s3 := s })

/-- An object to be downloaded. -/
inductive Target where
  | memory (name : String)
  | s3 (location : S3.Location)
  | http (uri : Uri)
  deriving Repr, DecidableEq, Inhabited

/-- Changes to the server; what is missing stays as it is. -/
structure ServerChange where
  scripted : List (Exchange × Http.Status)
  breaks : List Nat
  onBreak : Option (List Files.Edit)
  eTag : Option String
  omitLocation : Option Bool
  object : Option (String × ByteArray)
  deriving Inhabited

def ServerChange.apply (c : ServerChange) (s : Server) : Server :=
  { s with
    scripted := s.scripted ++ c.scripted
    breaks := s.breaks ++ c.breaks
    onBreak := c.onBreak <|> s.onBreak
    eTag := c.eTag <|> s.eTag
    omitLocation := c.omitLocation.getD s.omitLocation
    objects := c.object.elim s.objects fun (path, data) => Keyed.put path data s.objects }

inductive Step where
  | edit (change : Files.Edit)
  | respond (responses : List Answer) (routes : List (String × List Answer))
  | s3 (object : Option ByteArray) (eTag : Option String) (script : List (String × List S3Answer))
  /-- Changes the server, and then looks at an object if one is named. -/
  | server (change : ServerChange) (object : Option String)
  /-- Makes an object in memory if one is given, and arranges for failures. -/
  | memory (name : String) (made : Option MemoryObject) (failAt : List (Nat × Nat))
      (interrupts : List Nat)
  | uploadHandler (tracker : Option String) (retries : Option Nat) (policy : Option StalePolicy)
  | retrack (tracker : String)
  | send (task : Upload.Handler.Task)
  | downloadHandler (tracker : Option String) (retries : Option Nat)
  | get (target : Target) (destination : String) (progress : Option Progress.Reporter)
  | download (target : Target) (destination : String) (changes : List Download.Plan.Change)
  | objectMeta (target : Target)
  | range (target : Target) (range : Http.ByteRange)
  | initiate (description : S3.Description)
  | uploadPart (upload : S3.Upload) (number : Int) (data : ByteArray)
  | complete (upload : S3.Upload) (parts : List S3.UploadedPart)
  | abort (upload : S3.Upload)
  | listParts (upload : S3.Upload)
  | concurrentUpload (path : String) (description : S3.Description) (changes : List S3.Plan.Change)

/-- What a step gives. -/
inductive Result where
  | done
  | refused (fault : Files.Fault)
  | failed (e : Error)
  | found (data : Option ByteArray)
  | sent (output : Upload.Output)
  | downloaded (output : DownloadOutput)
  | objectMeta (data : ObjectMeta)
  | body (data : Except Cause ByteArray)
  | initiated (upload : S3.Upload)
  | part (part : S3.UploadedPart)
  | completed (output : S3.Completed)
  | aborted (upload : S3.Upload)
  | listed (parts : List S3.UploadedPart)
  /-- The object in memory was never made. -/
  | unknownObject
  | unfinished

/-- A client among its peers. -/
structure Session where
  line : Line
  config : Config
  world : World Peers
  upload : Option Upload.Handler
  download : Option Download.Handler

namespace Session

def initial (line : Line) (config : Config) (script : Script) (service : S3Script) : Session :=
  ⟨line, config, .initial ⟨script, .empty, service, []⟩ .besideFullDevice, none, none⟩

def setPeers (s : Session) (change : Peers → Peers) : Session :=
  { s with world := { s.world with peer := change s.world.peer } }

/-- Failures and answers that were arranged for and have not come yet. -/
def arranged (p : Peers) : Nat :=
  p.objects.foldl (fun n o => n + o.2.left)
    (p.script.left + p.server.scripted.length + p.server.breaks.length + p.s3.left)

/-- More attempts than a transfer can make: progress and changes of mind come only from what was
arranged for, and between two of them there are no more attempts than the retries allow. -/
def attemptLimit (s : Session) (retries : Nat) : Nat :=
  (arranged s.world.peer + 2) * (retries + 2) + 16

def source (s : Session) : Target → Except Result (RangeSource Peers)
  | .memory name =>
    match s.world.peer.objects.lookup name with
    | none => .error .unknownObject
    | some made =>
      .ok (MemoryObject.source.within (fun p => (p.objects.lookup name).getD made) fun o p =>
        { p with objects := Keyed.put name o p.objects })
  | .s3 location =>
    if s.config.hasS3 then .ok (location.source s3) else .error (.failed (.invalid .noS3Client))
  | .http uri => .ok (HttpObject.source ⟨uri⟩ s.line.connection)

/-- Whether there is an object, or a service, for the step to work with. -/
def isPossible (s : Session) : Step → Bool
  | .get target _ _ | .download target _ _ => (s.source target).toOption.isSome
  | .concurrentUpload _ _ _ => s.config.hasS3
  | _ => true

/-- The result of an operation, in the words of a step. -/
def resultOf {α : Type} (ok : α → Result) : Except Error α → Result
  | .ok a => ok a
  | .error e => .failed e

def onService {α : Type} (s : Session) (ok : α → Result)
    (call : World Peers → Option (Except Error α × World Peers)) : Result × Session :=
  if !s.config.hasS3 then (.failed (.invalid .noS3Client), s)
  else
    match call s.world with
    | none => (.unfinished, s)
    | some (result, world) => (resultOf ok result, { s with world })

def onObject {α : Type} (s : Session) (target : Target) (ok : α → Result)
    (work : RangeSource Peers → World Peers → Option (Except Error α × World Peers)) :
    Result × Session :=
  match s.source target with
  | .error result => (result, s)
  | .ok source =>
    match work source s.world with
    | none => (.unfinished, s)
    | some (result, world) => (resultOf ok result, { s with world })

def send (s : Session) (task : Upload.Handler.Task) : Result × Session :=
  let handler := s.upload.getD (.ofConfig s.config)
  let limit := s.attemptLimit handler.retries
  match handler.send s.line.connection s.config.bufferSize limit task s.world with
  | none => (.unfinished, s)
  | some (result, handler, world) =>
    (resultOf .sent result, { s with world, upload := some handler })

def perform (s : Session) : Step → Result × Session
  | .edit change =>
    let (result, files) := change.apply s.world.files
    let s := { s with world := s.world.withFiles files }
    match result with
    | .ok () => (.done, s)
    | .error fault => (.refused fault, s)
  | .respond responses routes =>
    (.done, s.setPeers fun p => { p with script := p.script.add responses routes })
  | .s3 object eTag script =>
    (.done, s.setPeers fun p =>
      let service := { p.s3 with object := object <|> p.s3.object, eTag := eTag <|> p.s3.eTag }
      { p with s3 := service.add script })
  | .server change object =>
    let s := s.setPeers fun p => { p with server := change.apply p.server }
    match object with
    | none => (.done, s)
    | some path => (.found (s.world.peer.server.objects.lookup path), s)
  | .memory name made failAt interrupts =>
    (.done, s.setPeers fun p =>
      match made <|> p.objects.lookup name with
      | none => p
      | some o =>
        let o := { o with
          failAt := failAt.foldl (fun all f => Keyed.put f.1 f.2 all) o.failAt
          interrupts := o.interrupts ++ interrupts }
        { p with objects := Keyed.put name o p.objects })
  | .uploadHandler tracker retries policy =>
    let h := Upload.Handler.ofConfig s.config
    let h := { h with retries := retries.getD h.retries, stalePolicy := policy.getD h.stalePolicy }
    (.done, { s with upload := some (tracker.elim h h.withTracker) })
  | .retrack tracker =>
    (.done, { s with upload := some ((s.upload.getD (.ofConfig s.config)).withTracker tracker) })
  | .send task => s.send task
  | .downloadHandler tracker retries =>
    let h := Download.Handler.ofConfig s.config
    (.done, { s with download := some ⟨tracker.map TrackerFile.mk, retries.getD h.retries⟩ })
  | .get target destination progress =>
    let h := s.download.getD (.ofConfig s.config)
    s.onObject target .downloaded fun source world =>
      h.get source destination s.config.bufferSize (s.attemptLimit h.retries) progress world
  | .download target destination changes =>
    s.onObject target .downloaded fun source world =>
      (Download.Plan.adjusted s.config changes).download source destination world
  | .objectMeta target =>
    s.onObject target .objectMeta fun source world => some (source.objectMeta world)
  | .range target range =>
    s.onObject target (fun body => .body body.collect) fun source world =>
      some (source.getRange range world)
  | .initiate description =>
    s.onService .initiated fun world => some (Rehearsal.s3.initiate description world)
  | .uploadPart upload number data =>
    s.onService .part fun world => some (Rehearsal.s3.uploadPart upload number data world)
  | .complete upload parts =>
    s.onService .completed fun world => some (Rehearsal.s3.complete upload parts world)
  | .abort upload =>
    s.onService (fun _ => .aborted upload) fun world => some (Rehearsal.s3.abort upload world)
  | .listParts upload =>
    s.onService .listed fun world => Rehearsal.s3.listParts upload (s.world.peer.s3.left + 2) world
  | .concurrentUpload path description changes =>
    s.onService .completed fun world =>
      (S3.Plan.adjusted s.config changes).upload Rehearsal.s3 path description world

inductive Noted where
  | script (request : ScriptRequest)
  | server (request : ServerRequest)
  | object (name : String) (range : Http.ByteRange)
  | s3 (request : S3Request)

def notedSince (before now : Peers) : List Noted :=
  let news {α : Type} (old new : Array α) : List α := (new.extract old.size new.size).toList
  (news before.script.requests now.script.requests).map .script ++
  (news before.server.requests now.server.requests).map .server ++
  (now.objects.flatMap fun (name, o) =>
    let old := (before.objects.lookup name).elim #[] (·.requests)
    (news old o.requests).map (Noted.object name)) ++
  (news before.s3.requests now.s3.requests).map .s3

end Session

end ObjectTransfer.Rehearsal
