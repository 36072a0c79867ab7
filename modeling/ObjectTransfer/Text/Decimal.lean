/-!
Decimal text of exact fractions with a fixed number of places. The last place is rounded to the
nearest value, and a tie goes to the even neighbour.
-/
namespace ObjectTransfer.Text.Decimal

/-- The quotient rounded to the nearest natural, a tie to the even one. -/
def roundDiv (num den : Nat) : Nat :=
  let q := num / den
  let twice := 2 * (num % den)
  if den < twice || (twice == den && q % 2 == 1) then q + 1 else q

/-- The last `width` decimal digits of a number, with leading zeros. -/
def padded : (width n : Nat) → List Char
  | 0, _ => []
  | width + 1, n => padded width (n / 10) ++ [Char.ofNat (48 + n % 10)]

/-- The fraction `num / den` with `places` digits behind the point. -/
def fixed (num den places : Nat) : String :=
  let unit := Nat.pow 10 places
  let scaled := roundDiv (num * unit) den
  let whole := toString (scaled / unit)
  if places = 0 then whole else whole ++ "." ++ String.ofList (padded places scaled)

end ObjectTransfer.Text.Decimal
