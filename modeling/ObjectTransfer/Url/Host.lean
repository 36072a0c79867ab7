import ObjectTransfer.Text.Hex
/-!
Hosts in the form in which URLs show them. Numeric addresses have many spellings and one form: four
decimal bytes, or eight hexadecimal pieces with the longest run of zeros left out. Web hosts that
are no addresses are domains in lower case.
-/
namespace ObjectTransfer.Url

/-- The number that digits stand for, if all of them are digits of the base. -/
def numberIn? (base : Nat) (cs : List Char) : Option Nat :=
  cs.foldlM (fun n c => ((Text.Hex.value? c).filter (· < base)).map (base * n + ·)) 0

namespace Ipv4

/-- One number of an address: hexadecimal behind `0x`, octal behind another zero, or decimal. -/
def part? : List Char → Option Nat
  | [] => none
  | '0' :: 'x' :: cs => numberIn? 16 cs
  | '0' :: c :: cs => numberIn? 8 (c :: cs)
  | cs => numberIn? 10 cs

/-- The parts between the dots; a dot at the end does not count. -/
def parts (cs : List Char) : List (List Char) :=
  let all := cs.splitOn '.'
  if all.getLast? = some [] then all.dropLast else all

/-- A host whose last part is a number is meant as an address. -/
def isMeant (cs : List Char) : Bool :=
  (parts cs).getLast?.any fun p => !p.isEmpty && (p.all Char.isDigit || (part? p).isSome)

/-- The last `count` bytes of a number. -/
def bytesOf : (count n : Nat) → List Nat
  | 0, _ => []
  | count + 1, n => bytesOf count (n / 256) ++ [n % 256]

/-- The four bytes of an address of up to four numbers, the last of which fills the bytes that the
others leave. -/
def bytes? (cs : List Char) : Option (List Nat) :=
  match (parts cs).mapM part? with
  | none => none
  | some numbers =>
    let front := numbers.dropLast
    match numbers.getLast? with
    | none => none
    | some last =>
      if front.any (255 < ·) || 4 ≤ front.length || Nat.pow 256 (4 - front.length) ≤ last then none
      else some (front ++ bytesOf (4 - front.length) last)

def text (bytes : List Nat) : String := String.intercalate "." (bytes.map toString)

end Ipv4

namespace Ipv6

/-- A piece of one to four hexadecimal digits. -/
def piece? (cs : List Char) : Option Nat :=
  if 1 ≤ cs.length && cs.length ≤ 4 then numberIn? 16 cs else none

def byte? (cs : List Char) : Option Nat :=
  match cs with
  | [] => none
  | '0' :: _ :: _ => none
  | cs => (numberIn? 10 cs).filter (· < 256)

/-- Four decimal bytes, which are the last two pieces of an address. -/
def dotted? (cs : List Char) : Option (List Nat) :=
  match (cs.splitOn '.').mapM byte? with
  | some [a, b, c, d] => some [256 * a + b, 256 * c + d]
  | _ => none

/-- The pieces between colons; the last of them may be dotted where the address ends. -/
def pieces? (atEnd : Bool) : List (List Char) → Option (List Nat)
  | [] => some []
  | [p] => if atEnd && p.contains '.' then dotted? p else (piece? p).map fun n => [n]
  | p :: ps =>
    match piece? p, pieces? atEnd ps with
    | some n, some ns => some (n :: ns)
    | _, _ => none

def side? (atEnd : Bool) (cs : List Char) : Option (List Nat) :=
  if cs.isEmpty then some [] else pieces? atEnd (cs.splitOn ':')

def splitGap : List Char → Option (List Char × List Char)
  | ':' :: ':' :: rest => some ([], rest)
  | c :: cs => (splitGap cs).map fun p => (c :: p.1, p.2)
  | [] => none

/-- The eight pieces of an address. A double colon stands for one zero or more. -/
def read? (cs : List Char) : Option (List Nat) :=
  match splitGap cs with
  | none => (pieces? true (cs.splitOn ':')).filter (·.length = 8)
  | some (before, behind) =>
    match side? false before, side? true behind with
    | some a, some b =>
      if a.length + b.length < 8 then
        some (a ++ List.replicate (8 - a.length - b.length) 0 ++ b)
      else none
    | _, _ => none

/-- How many zeros stand together from a position on. -/
def zerosAt (pieces : List Nat) (i : Nat) : Nat := ((pieces.drop i).takeWhile (· == 0)).length

def longestZeros (pieces : List Nat) : Nat × Nat :=
  (List.range pieces.length).foldl
    (fun best i => if best.2 < zerosAt pieces i then (i, zerosAt pieces i) else best) (0, 0)

/-- The pieces with colons between them; a double colon for the longest run of zeros, unless it is
a single one. -/
def text (pieces : List Nat) : String :=
  let joined (ps : List Nat) := String.intercalate ":" (ps.map Text.Hex.ofNat)
  let (start, count) := longestZeros pieces
  if count < 2 then joined pieces
  else joined (pieces.take start) ++ "::" ++ joined (pieces.drop (start + count))

end Ipv6

namespace Host

def isForbidden (c : Char) : Bool := c.toNat ≤ 32 || "#/:<>?@[\\]^|".toList.contains c

def isForbiddenInDomain (c : Char) : Bool :=
  isForbidden c || c.toNat = 127 || c == '%' || c == '`' || c == '\x7b' || c == '\x7d'

def bracketed? (cs : List Char) : Option String :=
  if cs.getLast? = some ']' then
    (Ipv6.read? cs.dropLast).map fun pieces => "[" ++ Ipv6.text pieces ++ "]"
  else none

def domain? (cs : List Char) : Option String :=
  match cs with
  | [] => none
  | '[' :: rest => bracketed? rest
  | cs =>
    let lower := cs.map Char.toLower
    if lower.any isForbiddenInDomain then none
    else if Ipv4.isMeant lower then (Ipv4.bytes? lower).map Ipv4.text
    else some (String.ofList lower)

def opaque? (cs : List Char) : Option String :=
  match cs with
  | '[' :: rest => bracketed? rest
  | cs => if cs.any isForbidden then none else some (String.ofList cs)

end Host

end ObjectTransfer.Url
