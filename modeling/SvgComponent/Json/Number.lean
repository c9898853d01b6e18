import SvgComponent.Decimal.Shortest

/-!
# Numbers of JSON

A number is a natural number, the negative of one, or a double. A double is written with the
fewest digits that read back, always with a point or an exponent, so that it stays
distinguishable from a whole number : positionally from `1e-5` up to below `1e16`, else with an
exponent that has its sign.
-/

namespace SvgComponent.Json

/-- A number as it was written : without a sign, with one, or as a double. -/
inductive Number where
  | natural (value : Nat)
  | negative (magnitude : Nat)
  | double (value : Float)
  deriving Inhabited

namespace Number

/-- The magnitude of a finite double that is not zero. -/
def binaryOfBits (bits : UInt64) : Decimal.Binary :=
  let fraction : Nat := bits.toNat % Nat.pow 2 52
  let exponent : Nat := bits.toNat / Nat.pow 2 52 % Nat.pow 2 11
  if exponent = 0 then ⟨fraction, -1074, false⟩
  else ⟨Nat.pow 2 52 + fraction, (exponent : Int) - 1075, fraction = 0 && exponent > 1⟩

/-- The digits of a decimal with a point behind the first `n` of them. -/
def pointAfter (n : Nat) (digits : List Char) : List Char :=
  if digits.length ≤ n then digits ++ List.replicate (n - digits.length) '0' ++ ['.', '0']
  else digits.take n ++ '.' :: digits.drop n

/-- The exponents that are written positionally are those from the first to the second. -/
def positional : Int × Int := (-5, 15)

/-- The text of a decimal. -/
def textOfDecimal (d : Decimal.Scientific) : List Char :=
  let digits := Nat.toDigits 10 d.digits
  let leading : Int := d.exponent + digits.length - 1
  if leading < positional.1 ∨ positional.2 < leading then
    let mantissa := match digits with
      | [c] => [c]
      | cs => pointAfter 1 cs
    mantissa ++ 'e' :: (if leading < 0 then '-' else '+') :: Nat.toDigits 10 leading.natAbs
  else if leading < 0 then
    '0' :: '.' :: List.replicate (leading.natAbs - 1) '0' ++ digits
  else pointAfter (leading.toNat + 1) digits

/-- The text of a finite double. -/
def textOfDouble (x : Float) : List Char :=
  let bits := x.toBits
  let sign := if bits.toNat / Nat.pow 2 63 = 1 then ['-'] else []
  if bits.toNat % Nat.pow 2 63 = 0 then sign ++ ['0', '.', '0']
  else sign ++ textOfDecimal (binaryOfBits bits).shortest

/-- The text of a number. -/
def text : Number → List Char
  | natural n => Nat.toDigits 10 n
  | negative n => '-' :: Nat.toDigits 10 n
  | double x => textOfDouble x

end Number

end SvgComponent.Json
