/-!
# The shortest decimal of a binary number

A binary number `m * 2 ^ q` is the one that is read from every decimal of an interval around
it. `shortest` finds the decimal of fewest digits in that interval, and of those the nearest,
a tie going to the even digit. It tries one digit, then two, and so on up to seventeen, which
always suffice for 53 bits; for each count the two neighbours of the number on that decimal
grid are the only candidates.

All arithmetic is exact : numbers are quotients of natural numbers.
-/

namespace SvgComponent.Decimal

/-- A positive binary number `mantissa * 2 ^ exponent`; `narrow` says that the next smaller
number is at half the distance of the next larger one. -/
structure Binary where
  mantissa : Nat
  exponent : Int
  narrow : Bool
  deriving DecidableEq, Repr

/-- A decimal `digits * 10 ^ exponent`. -/
structure Scientific where
  digits : Nat
  exponent : Int
  deriving DecidableEq, Repr

/-- A quotient of natural numbers. -/
structure Ratio where
  num : Nat
  den : Nat

namespace Ratio

/-- `n * 2 ^ q` -/
def ofBinary (n : Nat) (q : Int) : Ratio :=
  if 0 ≤ q then ⟨n * Nat.pow 2 q.toNat, 1⟩ else ⟨n, Nat.pow 2 (-q).toNat⟩

/-- `n * 10 ^ e` -/
def ofDecimal (n : Nat) (e : Int) : Ratio :=
  if 0 ≤ e then ⟨n * Nat.pow 10 e.toNat, 1⟩ else ⟨n, Nat.pow 10 (-e).toNat⟩

/-- Whether the first is less than the second. -/
def lt (a b : Ratio) : Bool := a.num * b.den < b.num * a.den

/-- Whether the first is at most the second. -/
def le (a b : Ratio) : Bool := a.num * b.den ≤ b.num * a.den

/-- The distance of two quotients. -/
def dist (a b : Ratio) : Ratio :=
  ⟨max (a.num * b.den) (b.num * a.den) - min (a.num * b.den) (b.num * a.den), a.den * b.den⟩

/-- The number of whole units of `10 ^ e` in a quotient. -/
def unitsOf (a : Ratio) (e : Int) : Nat :=
  if 0 ≤ e then a.num / (a.den * Nat.pow 10 e.toNat) else a.num * Nat.pow 10 (-e).toNat / a.den

end Ratio

/-- The number of decimal digits, none for zero. -/
def digitCount (n : Nat) : Nat :=
  if n = 0 then 0 else (Nat.toDigits 10 n).length

/-- The exponent of the first digit of a positive quotient. -/
def leadingExponent (a : Ratio) : Int :=
  if a.den ≤ a.num then (digitCount (a.num / a.den) : Int) - 1
  else - (digitCount ((a.den + a.num - 1) / a.num - 1) : Int)

namespace Binary

/-- The number itself. -/
def value (b : Binary) : Ratio := .ofBinary b.mantissa b.exponent

/-- The lower end of the interval that is read as the number. -/
def lower (b : Binary) : Ratio :=
  if b.narrow then .ofBinary (4 * b.mantissa - 1) (b.exponent - 2)
  else .ofBinary (2 * b.mantissa - 1) (b.exponent - 1)

/-- The upper end of the interval that is read as the number. -/
def upper (b : Binary) : Ratio := .ofBinary (2 * b.mantissa + 1) (b.exponent - 1)

/-- Whether a decimal is read as the number; the ends are, if the mantissa is even. -/
def reads (b : Binary) (d : Scientific) : Bool :=
  let r := Ratio.ofDecimal d.digits d.exponent
  if b.mantissa % 2 = 0 then b.lower.le r && r.le b.upper else b.lower.lt r && r.lt b.upper

/-- The nearer of the two neighbours on the grid of `10 ^ e` that are read as the number. -/
def onGrid? (b : Binary) (e : Int) : Option Scientific :=
  let below : Scientific := ⟨b.value.unitsOf e, e⟩
  let above : Scientific := ⟨below.digits + 1, e⟩
  match b.reads below, b.reads above with
  | true, false => some below
  | false, true => some above
  | false, false => none
  | true, true =>
    let toBelow := b.value.dist (.ofDecimal below.digits e)
    let toAbove := b.value.dist (.ofDecimal above.digits e)
    if toBelow.lt toAbove then some below
    else if toAbove.lt toBelow then some above
    else if below.digits % 2 = 0 then some below
    else some above

/-- The first grid with a decimal that is read as the number, from `count` digits on. -/
def firstGrid (b : Binary) (leading : Int) : (tries count : Nat) → Scientific
  | 0, count => ⟨b.value.unitsOf (leading + 1 - count), leading + 1 - count⟩
  | tries + 1, count =>
    match b.onGrid? (leading + 1 - count) with
    | some d => d
    | none => firstGrid b leading tries (count + 1)

/-- Drops the zeros at the end of the digits. -/
def dropZeros : (steps : Nat) → Scientific → Scientific
  | 0, d => d
  | n + 1, d =>
    if d.digits ≠ 0 ∧ d.digits % 10 = 0 then dropZeros n ⟨d.digits / 10, d.exponent + 1⟩ else d

/-- The shortest decimal that is read as the number. -/
def shortest (b : Binary) : Scientific :=
  dropZeros 20 (b.firstGrid (leadingExponent b.value) 17 1)

end Binary

end SvgComponent.Decimal
