/-!
Hexadecimal digits. Bytes are written as two lower-case digits each, numbers without leading zeros.
-/
namespace ObjectTransfer.Text.Hex

def digit (n : Nat) : Char :=
  if n < 10 then Char.ofNat (48 + n) else Char.ofNat (87 + n)

/-- The digit of a value below 16, with `A` to `F` above nine. -/
def upperDigit (n : Nat) : Char :=
  if n < 10 then Char.ofNat (48 + n) else Char.ofNat (55 + n)

def ofBytes (b : ByteArray) : String :=
  String.ofList (b.data.toList.flatMap fun x => [digit (x.toNat / 16), digit (x.toNat % 16)])

def digitsBefore : (fuel n : Nat) → (rest : List Char) → List Char
  | 0, _, rest => rest
  | fuel + 1, n, rest =>
    if n < 16 then digit n :: rest else digitsBefore fuel (n / 16) (digit (n % 16) :: rest)

def ofNat (n : Nat) : String := String.ofList (digitsBefore (n + 1) n [])

/-- The last `width` digits of a number, with leading zeros. -/
def padded : (width n : Nat) → List Char
  | 0, _ => []
  | width + 1, n => padded width (n / 16) ++ [digit (n % 16)]

def value? (c : Char) : Option Nat :=
  if c.isDigit then some (c.toNat - 48)
  else if 'a' ≤ c && c ≤ 'f' then some (c.toNat - 87)
  else if 'A' ≤ c && c ≤ 'F' then some (c.toNat - 55)
  else none

def isHexDigit (c : Char) : Bool := (value? c).isSome

end ObjectTransfer.Text.Hex
