import ObjectTransfer.Text.Decimal
import ObjectTransfer.Text.Hex
/-!
Binary units for amounts of bytes. An amount is shown in the largest unit that is not bigger than
it: as a whole number where it is one, otherwise as the nearest double-precision quotient with a
fixed number of places.
-/
namespace ObjectTransfer

inductive ByteUnit where
  | byte
  | kibibyte
  | mebibyte
  | gibibyte
  deriving Repr, DecidableEq

namespace ByteUnit

def power : ByteUnit → Nat
  | .byte => 0
  | .kibibyte => 10
  | .mebibyte => 20
  | .gibibyte => 30

def symbol : ByteUnit → String
  | .byte => "B"
  | .kibibyte => "KiB"
  | .mebibyte => "MiB"
  | .gibibyte => "GiB"

def bytes (u : ByteUnit) : Nat := Nat.pow 2 u.power

def largestWithin (amount : Nat) : ByteUnit :=
  (([gibibyte, mebibyte, kibibyte] : List ByteUnit).find? fun u => u.bytes ≤ amount).getD .byte

/-- The nearest number with at most 53 significant binary digits, a tie to the even one. -/
def nearestDouble (n : Nat) : Nat :=
  let step := Nat.pow 2 (n.log2 + 1 - 53)
  Text.Decimal.roundDiv n step * step

/-- The place of the leading binary digit of a double, which is not stored: two to the power of
52. -/
def hiddenBit : Nat := 4503599627370496

/-- The bits of the double-precision quotient of the amount by the unit: a power of two divides the
nearest double of the amount without any further rounding. -/
def quotientBits (u : ByteUnit) (amount : Nat) : Nat :=
  let n := nearestDouble amount
  if n = 0 then 0
  else
    let lead := n.log2
    (1023 + lead - u.power) * hiddenBit + (n * hiddenBit / Nat.pow 2 lead - hiddenBit)

def quotientHex (u : ByteUnit) (amount : Nat) : String :=
  String.ofList (Text.Hex.padded 16 (u.quotientBits amount))

def defaultPlaces : Nat := 3

/-- Shows an amount in its largest unit; a quotient that is not whole has `places` digits. -/
def describe (amount places : Nat) : String :=
  let u := largestWithin amount
  let count :=
    if amount % u.bytes = 0 then toString (amount / u.bytes)
    else Text.Decimal.fixed (nearestDouble amount) u.bytes places
  count ++ " " ++ u.symbol

end ByteUnit

end ObjectTransfer
