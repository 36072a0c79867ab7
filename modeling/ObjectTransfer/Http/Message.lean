import ObjectTransfer.Http.Body
import ObjectTransfer.Http.Headers
import ObjectTransfer.Http.Status
import ObjectTransfer.Uri
/-!
The heads of requests, and responses.
-/
namespace ObjectTransfer.Http

inductive Method where
  | get
  | head
  | post
  | put
  | delete
  deriving Repr, DecidableEq, Inhabited

def Method.text : Method → String
  | .get => "GET"
  | .head => "HEAD"
  | .post => "POST"
  | .put => "PUT"
  | .delete => "DELETE"

structure Request where
  method : Method
  uri : Uri
  headers : Headers
  deriving Inhabited

structure Response where
  status : Status
  headers : Headers
  body : Body
  deriving Inhabited

def Response.bare (code : Nat) : Response := ⟨⟨code⟩, [], .empty⟩

end ObjectTransfer.Http
