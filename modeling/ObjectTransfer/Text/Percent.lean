import ObjectTransfer.Text.Hex
/-!
Percent escapes: a byte that may not stand for itself is written as a percent sign and its two
hexadecimal digits.
-/
namespace ObjectTransfer.Text.Percent

def escape (x : UInt8) : List Char :=
  ['%', Hex.upperDigit (x.toNat / 16), Hex.upperDigit (x.toNat % 16)]

/-- The UTF-8 bytes of a text. Those of plain ASCII characters stand for themselves, all others are
escaped. -/
def encode (isPlain : Char → Bool) (s : String) : String :=
  String.ofList (s.toUTF8.data.toList.flatMap fun x =>
    let c := Char.ofNat x.toNat
    if x.toNat < 128 && isPlain c then [c] else escape x)

/-- The bytes that are meant. A percent sign without two digits behind it stands for itself. -/
def decode : List Char → List UInt8
  | '%' :: a :: b :: rest =>
    match Hex.value? a, Hex.value? b with
    | some m, some n => UInt8.ofNat (16 * m + n) :: decode rest
    | _, _ => '%'.toUInt8 :: decode (a :: b :: rest)
  | c :: rest => (String.singleton c).toUTF8.data.toList ++ decode rest
  | [] => []

end ObjectTransfer.Text.Percent
