import ObjectTransfer.Error
import ObjectTransfer.Text.Blank
import ObjectTransfer.Uri
/-!
The targets of upload sessions: web addresses with a host, and with an upload's name in the query.
-/
namespace ObjectTransfer.Upload

structure SessionUri where
  uri : Uri
  deriving Repr, DecidableEq, Inhabited

namespace SessionUri

def namesUpload (query : String) : Bool :=
  (query.toList.splitOn '&').any fun pair => pair.takeWhile (· != '=') = "upload_id".toList

def isWeb (u : Uri) : Bool := u.scheme = some "http" || u.scheme = some "https"

/-- Whether a target can be that of a session. -/
def isUsable (u : Uri) : Bool :=
  isWeb u && u.host.any (· != "") && u.query.any namesUpload

/-- Reads the target of a session, with blanks around it. -/
def parse (s : String) : Except Error SessionUri :=
  match Uri.parse (Text.trim s) with
  | .ok u => if isUsable u then .ok ⟨u⟩ else .error (.invalid (.invalidSessionUri s))
  | .error _ => .error (.invalid (.invalidSessionUri s))

def text (s : SessionUri) : String := s.uri.text

end SessionUri

end ObjectTransfer.Upload
