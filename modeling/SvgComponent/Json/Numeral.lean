import SvgComponent.Json.Fault
import SvgComponent.Json.Number

/-!
# Reading numbers

A number is read digit by digit into a 64 bit significand; digits that no longer fit count
for the exponent only. A whole number that fits stays one; every other number is the
double that comes out of the significand by one multiplication with, or division by, a power
of ten. `-0` is a double.

Faults carry the number of bytes read up to the place that they are reported at.
`skip` passes over a number without taking its value.
-/

namespace SvgComponent.Json.Numeral

/-- A fault and how many bytes behind the start it is reported. -/
abbrev Located (α : Type) := Except (Fault × Nat) α

/-- The value of a digit. -/
def digitValue (c : Char) : Nat := c.toNat - '0'.toNat

/-- What fits into 64 bits. -/
def fits (n : Nat) : Bool := n < Nat.pow 2 64

/-- Takes digits into the significand until one does not fit; gives the digits left. -/
def accumulate (significand : Nat) : List Char → Nat × List Char
  | [] => (significand, [])
  | c :: cs =>
    if fits (significand * 10 + digitValue c) then
      accumulate (significand * 10 + digitValue c) cs
    else (significand, c :: cs)

/-- A power of ten as a double. -/
def powerOfTen (n : Nat) : Float := Float.ofScientific 1 false n

/-- The largest exponent of a power of ten that is a double. -/
def maxPower : Nat := 308

/-- The double `significand * 10 ^ exponent`, if it is finite. -/
def doubleOf? (significand : Nat) (exponent : Int) : Option Float :=
  let x := significand.toUInt64.toFloat
  if 0 ≤ exponent then
    if significand = 0 then some x
    else if exponent.toNat ≤ maxPower then
      let y := x * powerOfTen exponent.toNat
      if y.isInf then none else some y
    else none
  else
    let n := exponent.natAbs
    if n ≤ maxPower then some (x / powerOfTen n)
    else if n ≤ 2 * maxPower then some (x / powerOfTen maxPower / powerOfTen (n - maxPower))
    else some 0.0

/-- A double with a sign. -/
def signed (positive : Bool) (x : Float) : Number :=
  .double (if positive then x else -x)

/-- A number with its length in bytes and what follows. -/
abbrev Scanned := Number × Nat × List Char

/-- Finishes a double after `read` bytes. -/
def finish (positive : Bool) (significand : Nat) (exponent : Int) (read : Nat) (rest : List Char) :
    Located Scanned :=
  match doubleOf? significand exponent with
  | some x => .ok (signed positive x, read, rest)
  | none => .error (.hugeNumber, read)

/-- The largest exponent that is taken in. -/
def maxExponent : Nat := Nat.pow 2 31 - 1

/-- Takes the digits of an exponent in until it is too large; gives how many were read. -/
def accumulateExponent (value read : Nat) : List Char → Option Nat × Nat
  | [] => (some value, read)
  | c :: cs =>
    if value * 10 + digitValue c ≤ maxExponent then
      accumulateExponent (value * 10 + digitValue c) (read + 1) cs
    else (none, read + 1)

/-- Whether the text goes on with a digit. -/
def startsWithDigit : List Char → Bool
  | c :: _ => c.isDigit
  | [] => false

/-- The sign of an exponent, its length, and what follows. -/
def exponentSign : List Char → Bool × Nat × List Char
  | '+' :: cs => (true, 1, cs)
  | '-' :: cs => (false, 1, cs)
  | cs => (true, 0, cs)

/-- Reads an exponent, `read` bytes including its letter being read already. -/
def readExponent (positive : Bool) (significand : Nat) (start : Int) (read : Nat) (cs : List Char) :
    Located Scanned :=
  let (up, signLength, cs) := exponentSign cs
  let read := read + signLength
  match cs with
  | [] => .error (.endInValue, read)
  | _ =>
    if startsWithDigit cs then
      let digits := cs.takeWhile Char.isDigit
      let rest := cs.dropWhile Char.isDigit
      match accumulateExponent 0 0 digits with
      | (some e, n) =>
        finish positive significand (if up then start + e else start - e) (read + n) rest
      | (none, n) =>
        if significand ≠ 0 ∧ up then .error (.hugeNumber, read + n)
        else .ok (signed positive 0.0, read + digits.length, rest)
    else .error (.badNumber, read + 1)

/-- Reads what follows the digits of a double. -/
def readTail (positive : Bool) (significand : Nat) (exponent : Int) (read : Nat) (cs : List Char) :
    Located Scanned :=
  match cs with
  | c :: rest =>
    if c = 'e' ∨ c = 'E' then readExponent positive significand exponent (read + 1) rest
    else finish positive significand exponent read cs
  | [] => finish positive significand exponent read []

/-- Reads the digits behind the point. -/
def readFraction (positive : Bool) (significand : Nat) (exponent : Int) (read : Nat)
    (cs : List Char) : Located Scanned :=
  let digits := cs.takeWhile Char.isDigit
  let rest := cs.dropWhile Char.isDigit
  match digits, rest with
  | [], [] => .error (.endInValue, read)
  | [], _ => .error (.badNumber, read + 1)
  | _, _ =>
    let (significand, left) := accumulate significand digits
    readTail positive significand (exponent - (digits.length - left.length : Nat))
      (read + digits.length) rest

/-- A number without point and exponent. -/
def whole (positive : Bool) (n : Nat) : Number :=
  if positive then .natural n
  else if n = 0 ∨ Nat.pow 2 63 < n then .double (-n.toUInt64.toFloat)
  else .negative n

/-- Reads a number behind its sign, `read` bytes being read already. -/
def read (positive : Bool) (read : Nat) (cs : List Char) : Located Scanned :=
  let digits := cs.takeWhile Char.isDigit
  let rest := cs.dropWhile Char.isDigit
  match cs, digits with
  | [], _ => .error (.endInValue, read)
  | _, [] => .error (.badNumber, read + 1)
  | _, '0' :: _ :: _ => .error (.badNumber, read + 2)
  | _, _ =>
    let (significand, left) := accumulate 0 digits
    let read := read + digits.length
    match rest with
    | '.' :: r => readFraction positive significand left.length (read + 1) r
    | 'e' :: r => readExponent positive significand left.length (read + 1) r
    | 'E' :: r => readExponent positive significand left.length (read + 1) r
    | _ =>
      if left.isEmpty then .ok (whole positive significand, read, rest)
      else finish positive significand left.length read rest

/-! ## Passing over a number -/

/-- Passes over an exponent behind its letter; gives the length in bytes too. -/
def skipExponent (read : Nat) (cs : List Char) : Located (Nat × List Char) :=
  let (_, signLength, cs) := exponentSign cs
  let read := read + signLength
  match cs with
  | [] => .error (.badNumber, read)
  | _ =>
    if startsWithDigit cs then
      .ok (read + (cs.takeWhile Char.isDigit).length, cs.dropWhile Char.isDigit)
    else .error (.badNumber, read + 1)

/-- Passes over a number behind its sign; gives its length in bytes too. -/
def skip (read : Nat) (cs : List Char) : Located (Nat × List Char) :=
  let digits := cs.takeWhile Char.isDigit
  let rest := cs.dropWhile Char.isDigit
  match cs, digits with
  | [], _ => .error (.badNumber, read)
  | _, [] => .error (.badNumber, read + 1)
  | _, '0' :: _ :: _ => .error (.badNumber, read + 2)
  | _, _ =>
    let read := read + digits.length
    match rest with
    | '.' :: r =>
      let fraction := r.takeWhile Char.isDigit
      match fraction, r with
      | [], [] => .error (.badNumber, read + 1)
      | [], _ => .error (.badNumber, read + 2)
      | _, _ =>
        let read := read + 1 + fraction.length
        match r.dropWhile Char.isDigit with
        | 'e' :: r => skipExponent (read + 1) r
        | 'E' :: r => skipExponent (read + 1) r
        | r => .ok (read, r)
    | 'e' :: r => skipExponent (read + 1) r
    | 'E' :: r => skipExponent (read + 1) r
    | _ => .ok (read, rest)

end SvgComponent.Json.Numeral
