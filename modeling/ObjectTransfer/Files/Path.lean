/-!
Paths. A path is written as names between slashes; what it leads to depends on the tree it is looked
up in, because every name but the last has to be a directory, also one that `..` leaves again.
-/
namespace ObjectTransfer.Files

/-- A place in the tree: the names from the working directory down, or from the root, which no name
in a written path can be. No name is `.` or `..`. -/
abbrev Path := List String

def Path.text (p : Path) : String := String.intercalate "/" p

def root : Path := ["/"]

/-- The place is not below the working directory. -/
def Path.isOutside (p : Path) : Bool := p.head? == some "/"

/-- The directory above one. The working directory is taken to stand in the root, which is the
highest there is. -/
def Path.above (p : Path) : Path := if p = [] ∨ p = root then root else p.dropLast

/-- Where a written path begins: at the root or in the working directory. -/
def start (path : String) : Path := if path.toList.head? == some '/' then root else []

/-- The longest name of a file, and the longest path, in bytes. -/
def maxName : Nat := 255

def maxPath : Nat := 4095

def namesOf (path : String) : List String :=
  ((path.toList.splitOn '/').filter (!·.isEmpty)).map String.ofList

/-- `.` and `..` stand for the directory itself and the one above it. -/
def isDots (name : String) : Bool := name == "." || name == ".."

/-- A path that ends with a slash can only name a directory. -/
def namesDirectory (path : String) : Bool := path.toList.getLast? == some '/'

/-- Where a written path ends: under a name in a directory, or, when its last name is `.` or `..` or
it has none, at a directory. -/
structure Spot where
  directory : Path
  name : Option String
  deriving Repr, DecidableEq, Inhabited

def Spot.place (p : Spot) : Path := p.directory ++ p.name.toList

end ObjectTransfer.Files
