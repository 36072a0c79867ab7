import ObjectTransfer.Text.Percent
/-!
Paths in the form in which URLs show them: no dot segments are left, and what may not stand in a
path is escaped.
-/
namespace ObjectTransfer.Url

/-- Printable ASCII characters other than these stand for themselves. -/
def isPlainBut (others : String) (c : Char) : Bool :=
  33 ≤ c.toNat && c.toNat < 127 && !others.toList.contains c

def isPathChar (c : Char) : Bool := isPlainBut "\"#<>?`\x7b\x7d" c

namespace Path

/-- A segment with the escaped dots in it written out. -/
def dotsOf : List Char → List Char
  | '%' :: '2' :: e :: rest =>
    if e == 'e' || e == 'E' then '.' :: dotsOf rest else '%' :: '2' :: e :: rest
  | '.' :: rest => '.' :: dotsOf rest
  | cs => cs

/-- A segment that is one dot, escaped or not: it stays where it is. -/
def isHere (segment : List Char) : Bool := dotsOf segment == ['.']

/-- A segment that is two dots, escaped or not: it takes the segment before it away. -/
def isUp (segment : List Char) : Bool := dotsOf segment == ['.', '.']

/-- A letter and a colon or a bar name a drive, which is never left. -/
def isDrive : List Char → Bool
  | [letter, mark] => letter.isAlpha && (mark == ':' || mark == '|')
  | _ => false

/-- Goes up from the segments passed so far, the last of which comes first. -/
def leave : List (List Char) → List (List Char)
  | [] => []
  | s :: rest => if isDrive s then s :: rest else rest

/-- Follows the segments behind those passed so far. A dot segment at the end leaves an empty
one. -/
def follow (passed : List (List Char)) : List (List Char) → List (List Char)
  | [] => passed.reverse
  | s :: rest =>
    if isUp s then
      follow (if rest.isEmpty then [] :: leave passed else leave passed) rest
    else if isHere s then follow (if rest.isEmpty then [] :: passed else passed) rest
    else follow (s :: passed) rest

/-- The form of a path that begins with a slash; on the web a backslash is one too. -/
def standard (web : Bool) (cs : List Char) : String :=
  let cs := if web then cs.map fun c => if c = '\\' then '/' else c else cs
  let segments := follow [] ((cs.splitOn '/').drop 1)
  Text.Percent.encode isPathChar
    (String.ofList (segments.flatMap fun segment => '/' :: segment))

end Path

end ObjectTransfer.Url
