import ObjectTransfer.Files.Content
import ObjectTransfer.Files.Fault
import ObjectTransfer.Files.Path
import ObjectTransfer.Keyed
/-!
A tree of files. Names lead to directories or to numbered contents; an opened file is the number of
its content, so what is done to a name later (removing it, giving it to a new file) leaves the
opened file as it is, while writing to the same content shows in it.
-/
namespace ObjectTransfer.Files

inductive Entry where
  | file (id : Nat)
  | directory
  deriving Repr, DecidableEq, Inhabited

structure Store where
  entries : List (Path × Entry)
  contents : List (Nat × Content)
  /-- Contents are numbered below this. -/
  fresh : Nat
  deriving Inhabited

def directorySize : Nat := 4096

/-- Files are shorter than two to the power of 63. -/
def maxLength : Nat := 0x7FFFFFFFFFFFFFFF

namespace Store

def empty : Store := ⟨[], [], 0⟩

/-- The working directory is empty, and outside of it there is a device without room. -/
def besideFullDevice : Store :=
  ⟨[(root ++ ["dev"], .directory), (root ++ ["dev", "full"], .file 0)], [(0, .device .noSpace)], 1⟩

def entry? (s : Store) (directory : Path) (name : String) : Except Fault (Option Entry) :=
  if maxName < name.utf8ByteSize then .error .nameTooLong
  else .ok (s.entries.lookup (directory ++ [name]))

def enter (s : Store) (here : Path) (name : String) : Except Fault Path :=
  if name = "." then .ok here
  else if name = ".." then .ok here.above
  else
    match s.entry? here name with
    | .error f => .error f
    | .ok none => .error .notFound
    | .ok (some (.file _)) => .error .notDirectory
    | .ok (some .directory) => .ok (here ++ [name])

def descend (s : Store) (here : Path) : List String → Except Fault Path
  | [] => .ok here
  | n :: rest =>
    match s.enter here n with
    | .error f => .error f
    | .ok there => s.descend there rest

def locate (s : Store) (path : String) : Except Fault Spot :=
  if path.toList.contains (Char.ofNat 0) then .error .zeroInName
  else if path = "" then .error .notFound
  else if maxPath < path.utf8ByteSize then .error .nameTooLong
  else
    let names := namesOf path
    match names.getLast? with
    | none => .ok ⟨start path, none⟩
    | some last =>
      if isDots last then (s.descend (start path) names).map fun d => ⟨d, none⟩
      else (s.descend (start path) names.dropLast).map fun d => ⟨d, some last⟩

def lookup (s : Store) (spot : Spot) : Except Fault (Option Entry) :=
  match spot.name with
  | none => .ok (some .directory)
  | some name => s.entry? spot.directory name

def find (s : Store) (path : String) : Except Fault (Path × Entry) :=
  match s.locate path with
  | .error f => .error f
  | .ok spot =>
    match s.lookup spot with
    | .error f => .error f
    | .ok none => .error .notFound
    | .ok (some .directory) => .ok (spot.place, .directory)
    | .ok (some (.file id)) =>
      if namesDirectory path then .error .notDirectory else .ok (spot.place, .file id)

def content (s : Store) (id : Nat) : Content := (s.contents.lookup id).getD .empty

def size (s : Store) (path : String) : Except Fault Nat :=
  (s.find path).map fun
    | (_, .directory) => directorySize
    | (_, .file id) => (s.content id).size

def openRead (s : Store) (path : String) : Except Fault Entry := (s.find path).map (·.2)

/-- At most `count` bytes from `offset` on of something opened; a directory cannot be read. -/
def readAt (s : Store) (e : Entry) (offset count : Nat) : Except Fault ByteArray :=
  match e with
  | .directory => .error .isDirectory
  | .file id => .ok ((s.content id).read offset count)

def readAll (s : Store) (path : String) : Except Fault ByteArray :=
  match s.openRead path with
  | .error f => .error f
  | .ok .directory => .error .isDirectory
  | .ok (.file id) => .ok (s.content id).bytes

def setContent (s : Store) (id : Nat) (c : Content) : Store :=
  { s with contents := Keyed.put id c s.contents }

/-- Why nothing can be written to an opened file, if so. -/
def refusal? (s : Store) (id : Nat) : Option Fault := (s.content id).refusal?

/-- Writes at the end of an opened file that takes it. -/
def append (s : Store) (id : Nat) (b : ByteArray) : Store :=
  { s with contents := Keyed.change id (·.append b) s.contents }

def writeAt (s : Store) (id offset : Nat) (b : ByteArray) : Store :=
  { s with contents := Keyed.change id (·.writeAt offset b) s.contents }

def add (s : Store) (p : Path) : Nat × Store :=
  (s.fresh, ⟨s.entries ++ [(p, .file s.fresh)], (s.fresh, .empty) :: s.contents, s.fresh + 1⟩)

/-- Opens the file at a path for writing, made when it is missing; `keep` leaves its content alone,
otherwise it is emptied. A path that ends with a slash is refused before its last name is looked
up. -/
def openWrite (s : Store) (path : String) (keep : Bool) : Except Fault (Nat × Store) :=
  match s.locate path with
  | .error f => .error f
  | .ok spot =>
    if namesDirectory path then .error .isDirectory
    else
      match s.lookup spot with
      | .error f => .error f
      | .ok none => .ok (s.add spot.place)
      | .ok (some .directory) => .error .isDirectory
      | .ok (some (.file id)) => .ok (id, if keep then s else s.setContent id (s.content id).cleared)

/-- Makes an empty file at a path, or empties the one there. -/
def create (s : Store) (path : String) : Except Fault (Nat × Store) := s.openWrite path false

def openAppend (s : Store) (path : String) : Except Fault Nat :=
  match s.find path with
  | .error f => .error f
  | .ok (_, .directory) => .error .isDirectory
  | .ok (_, .file id) => .ok id

def remove (s : Store) (path : String) : Except Fault Store :=
  match s.find path with
  | .error f => .error f
  | .ok (_, .directory) => .error .isDirectory
  | .ok (place, .file _) => .ok { s with entries := s.entries.filter fun e => e.1 != place }

/-- The refusal of these bytes by an opened file, or else the change. -/
def unlessRefused (s : Store) (id : Nat) (b : ByteArray) (t : Store) : Except Fault Store :=
  match s.refusal? id with
  | some fault => if b.isEmpty then .ok s else .error fault
  | none => .ok t

def write (s : Store) (path : String) (b : ByteArray) : Except Fault Store :=
  match s.create path with
  | .error f => .error f
  | .ok (id, t) => t.unlessRefused id b (t.setContent id (.ofBytes b))

/-- Sets the length of the file at a path, made when it is missing. A length that no file can have
is refused after the file was made, and so is any length of a device. -/
def setLength (s : Store) (path : String) (length : Nat) : Except Fault Unit × Store :=
  match s.openWrite path true with
  | .error f => (.error f, s)
  | .ok (id, t) =>
    if maxLength < length then (.error .lengthOutside, t)
    else if (t.refusal? id).isSome then (.error .invalidArgument, t)
    else (.ok (), t.setContent id ((t.content id).resize length))

def makeDirectory (s : Store) (path : String) : Except Fault Store :=
  match s.locate path with
  | .error f => .error f
  | .ok spot =>
    match s.lookup spot with
    | .error f => .error f
    | .ok (some _) => .error .exists
    | .ok none => .ok { s with entries := s.entries ++ [(spot.place, .directory)] }

/-- The first name in a directory that nothing has, made of the stem and a number from `n` on. -/
def unusedName (s : Store) (directory : Path) (stem : String) : (fuel n : Nat) → Path
  | 0, n => directory ++ [stem ++ toString n]
  | fuel + 1, n =>
    let p := directory ++ [stem ++ toString n]
    if (s.entries.lookup p).isNone then p else s.unusedName directory stem fuel (n + 1)

/-- Makes an empty file with a name of its own in a directory that was reached. Names made here are short
(`Store.addTemporary_short`), and a path that is too long is not known here, since that depends on how
the directory was named; one would refuse every try of a part alike. -/
def addTemporary (s : Store) (directory : Path) (stem : String) : Path × Nat × Store :=
  let p := s.unusedName directory stem s.entries.length s.fresh
  let (id, t) := s.add p
  (p, id, t)

/-- Deletes a file that nobody has opened, if it is there. -/
def forget (s : Store) (p : Path) : Store :=
  match s.entries.lookup p with
  | some (.file id) =>
    { s with
      entries := s.entries.filter fun e => e.1 != p
      contents := s.contents.filter fun c => c.1 != id }
  | _ => s

def files (s : Store) : List (String × Content) :=
  (s.entries.filterMap fun (p, e) =>
    match e with
    | .file id => if Path.isOutside p then none else some (Path.text p, s.content id)
    | .directory => none).mergeSort fun a b => a.1 ≤ b.1

/-- The new tree, or the old one when the change was refused. -/
def orKept (s : Store) : Except Fault Store → Except Fault Unit × Store
  | .ok t => (.ok (), t)
  | .error f => (.error f, s)

end Store

/-- What others do to the files. -/
inductive Edit where
  | write (path : String) (data : ByteArray)
  | append (path : String) (data : ByteArray)
  | resize (path : String) (length : Nat)
  | remove (path : String)
  | makeDirectory (path : String)
  deriving Inhabited

def Edit.apply (s : Store) : Edit → Except Fault Unit × Store
  | .write path data => s.orKept (s.write path data)
  | .append path data =>
    match s.openWrite path true with
    | .error f => (.error f, s)
    | .ok (id, t) => t.orKept (t.unlessRefused id data (t.append id data))
  | .resize path length => s.setLength path length
  | .remove path => s.orKept (s.remove path)
  | .makeDirectory path => s.orKept (s.makeDirectory path)

/-- Makes the edits one after the other, whether or not some are refused. -/
def Store.edit (s : Store) (edits : List Edit) : Store :=
  edits.foldl (fun s e => (e.apply s).2) s

end ObjectTransfer.Files
