import ObjectTransfer.Error
import ObjectTransfer.Files.Store
import ObjectTransfer.Text.Blank
import ObjectTransfer.Text.Pieces
/-!
Tracker files. A tracker file holds on its first line the token from which a later process goes on
with a transfer: the session of an upload, or the entity tag of a download.
-/
namespace ObjectTransfer

structure TrackerFile where
  path : String
  deriving Repr, DecidableEq, Inhabited

namespace TrackerFile

/-- The token in a text: its first line without the blanks around it, unless nothing is left. -/
def token? (text : String) : Option String :=
  let token := Text.trim (Text.firstLine text)
  if token = "" then none else some token

/-- The token in the file. A file that is missing, cannot be read or is not UTF-8 holds none. -/
def load (t : TrackerFile) (files : Files.Store) : Option String :=
  match files.readAll t.path with
  | .error _ => none
  | .ok data => (String.fromUTF8? data).bind token?

def save (t : TrackerFile) (token : String) (files : Files.Store) : Except Error Files.Store :=
  match files.write t.path (token ++ "\n").toUTF8 with
  | .ok after => .ok after
  | .error fault => .error (.resumable .abort (.trackerUnwritable t.path fault))

/-- Deletes the file. Nothing is done when there is none, or when it cannot be deleted. -/
def remove (t : TrackerFile) (files : Files.Store) : Files.Store :=
  match files.remove t.path with
  | .ok after => after
  | .error _ => files

end TrackerFile

end ObjectTransfer
