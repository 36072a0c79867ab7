/-!
Decimal numbers below `2 ^ 64`. A number is an optional single `+` and then ASCII digits; the first
character that is no digit, or the first digit that takes the value past the limit, decides the
fault.
-/
namespace ObjectTransfer.Text.Unsigned

/-- Why a text is no number. -/
inductive Fault where
  | empty
  | invalidDigit
  | tooLarge
  deriving Repr, DecidableEq, Inhabited

def Fault.message : Fault → String
  | .empty => "cannot parse integer from empty string"
  | .invalidDigit => "invalid digit found in string"
  | .tooLarge => "number too large to fit in target type"

/-- Numbers are below this, which is two to the power of 64. -/
def limit : Nat := 18446744073709551616

/-- Reads digits behind the value `n` read so far. -/
def digits (n : Nat) : List Char → Except Fault Nat
  | [] => .ok n
  | c :: cs =>
    if c.isDigit then
      let m := 10 * n + (c.toNat - 48)
      if m < limit then digits m cs else .error .tooLarge
    else .error .invalidDigit

/-- Reads a whole number, with no blanks around it. -/
def parse : List Char → Except Fault Nat
  | [] => .error .empty
  | '+' :: cs => if cs.isEmpty then .error .invalidDigit else digits 0 cs
  | cs => digits 0 cs

end ObjectTransfer.Text.Unsigned
