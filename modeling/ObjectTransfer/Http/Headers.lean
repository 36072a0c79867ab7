/-!
Header fields. Names are lower case. A value is a text when all its bytes are visible ASCII, spaces
or tabs; a value with any other byte can be passed on but not read.
-/
namespace ObjectTransfer.Http

inductive HeaderValue where
  | text (s : String)
  | raw (bytes : ByteArray)
  deriving Inhabited

namespace HeaderValue

def isReadable (n : Nat) : Bool := (32 ≤ n && n < 127) || n == 9

def ofBytes (b : ByteArray) : HeaderValue :=
  if b.data.toList.all fun x => isReadable x.toNat then
    .text (String.ofList (b.data.toList.map fun x => Char.ofNat x.toNat))
  else .raw b

def ofText (s : String) : HeaderValue :=
  if s.toList.all fun c => isReadable c.toNat then .text s else .raw s.toUTF8

def text? : HeaderValue → Option String
  | .text s => some s
  | .raw _ => none

end HeaderValue

/-- The fields of a message, in the order they were added. -/
abbrev Headers := List (String × HeaderValue)

namespace Headers

/-- The text of the first field of this name; `none` also when it cannot be read. -/
def text? (h : Headers) (name : String) : Option String := (h.lookup name).bind (·.text?)

def has (h : Headers) (name : String) : Bool := h.any fun field => field.1 == name

def set (h : Headers) (name : String) (value : HeaderValue) : Headers :=
  h.filter (fun field => field.1 != name) ++ [(name, value)]

/-- The fields in the order of their names; fields of one name keep their order. -/
def sorted (h : Headers) : Headers := h.mergeSort fun a b => a.1 ≤ b.1

end Headers

end ObjectTransfer.Http
