/-!
White space. A character is blank when Unicode gives it the property `White_Space`; trimming drops
the blanks at both ends of a text and nothing else.
-/
namespace ObjectTransfer.Text

/-- The characters of the property `White_Space`. U+200B and U+FEFF are not among them. -/
def isBlank (c : Char) : Bool :=
  (0x09 ≤ c.toNat && c.toNat ≤ 0x0D) || c.toNat == 0x20 || c.toNat == 0x85 || c.toNat == 0xA0 ||
  c.toNat == 0x1680 || (0x2000 ≤ c.toNat && c.toNat ≤ 0x200A) || c.toNat == 0x2028 ||
  c.toNat == 0x2029 || c.toNat == 0x202F || c.toNat == 0x205F || c.toNat == 0x3000

def isBlankText (s : String) : Bool := s.toList.all isBlank

def trimLeft (cs : List Char) : List Char := cs.dropWhile isBlank

def trimRight (cs : List Char) : List Char := (cs.reverse.dropWhile isBlank).reverse

/-- The characters without the blanks at either end. -/
def strip (cs : List Char) : List Char := trimRight (trimLeft cs)

/-- The text without the blanks at either end. -/
def trim (s : String) : String := String.ofList (strip s.toList)

end ObjectTransfer.Text
