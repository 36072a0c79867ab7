/-!
Text in XML documents: the characters that it may hold, and how it is written between two tags.
-/
namespace ObjectTransfer.Text.Xml

/-- Every character but most of the controls and the last two of the first plane. -/
def isChar (c : Char) : Bool :=
  c == '\t' || c == '\n' || c == '\r' ||
    (0x20 ≤ c.toNat && c.toNat != 0xFFFE && c.toNat != 0xFFFF)

/-- Whether a document that holds the text can be read. -/
def isText (s : String) : Bool := s.toList.all isChar

def escape (c : Char) : List Char :=
  if c = '&' then "&amp;".toList
  else if c = '<' then "&lt;".toList
  else if c = '>' then "&gt;".toList
  else [c]

/-- The text as it stands between two tags. -/
def encode (s : String) : String := String.ofList (s.toList.flatMap escape)

def element (tag content : String) : String :=
  "<" ++ tag ++ ">" ++ content ++ "</" ++ tag ++ ">"

end ObjectTransfer.Text.Xml
