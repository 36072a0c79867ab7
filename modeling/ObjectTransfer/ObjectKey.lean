import ObjectTransfer.Text.Percent
/-!
Keys of objects: a bucket at an endpoint and a name in it. In the target of a request the bytes of
the name that could be taken for something else than a part of the path are escaped.
-/
namespace ObjectTransfer

structure ObjectKey where
  endpoint : String
  bucket : String
  name : String
  deriving Repr, DecidableEq, Inhabited

namespace ObjectKey

def defaultEndpoint : String := "https://storage.googleapis.com"

def ofName (bucket name : String) : ObjectKey := ⟨defaultEndpoint, bucket, name⟩

def withEndpoint (k : ObjectKey) (endpoint : String) : ObjectKey :=
  { k with endpoint := String.ofList (endpoint.toList.reverse.dropWhile (· == '/')).reverse }

/-- Characters that are written as they are: ASCII letters, digits and five marks. -/
def isPlain (c : Char) : Bool :=
  c.isAlphanum || c == '/' || c == '-' || c == '_' || c == '.' || c == '~'

def encodeName (name : String) : String := Text.Percent.encode isPlain name

def uri (k : ObjectKey) : String := k.endpoint ++ "/" ++ k.bucket ++ "/" ++ encodeName k.name

def text (k : ObjectKey) : String := "gs://" ++ k.bucket ++ "/" ++ k.name

end ObjectKey

end ObjectTransfer
