import SvgComponent.Json.Fault
import SvgComponent.Json.Numeral
import SvgComponent.Text.Position

/-!
# Reading quoted strings

`unquote` reads a string behind its opening quote and gives the text behind the closing one.
An escape names a character by a letter or by four hexadecimal digits; two such codes that
form a surrogate pair stand for one character, and half a pair for none. Control characters
must be escaped. `skipQuoted` passes over a string without asking which characters it stands for.

Faults carry the number of bytes up to the place that they are reported at.
-/

namespace SvgComponent.Json

open Text Numeral

/-- The value of a hexadecimal digit. -/
def hexValue? (c : Char) : Option Nat :=
  if '0' ≤ c ∧ c ≤ '9' then some (c.toNat - '0'.toNat)
  else if 'a' ≤ c ∧ c ≤ 'f' then some (c.toNat - 'a'.toNat + 10)
  else if 'A' ≤ c ∧ c ≤ 'F' then some (c.toNat - 'A'.toNat + 10)
  else none

/-- The number that four hexadecimal digits stand for. -/
def hexCode? (a b c d : Char) : Option Nat := do
  return ((← hexValue? a) * 16 + (← hexValue? b)) * 256 + (← hexValue? c) * 16 + (← hexValue? d)

/-- Reads four hexadecimal digits, `read` bytes being read already. -/
def readCode (read : Nat) (cs : List Char) : Located (Nat × List Char) :=
  match cs with
  | a :: b :: c :: d :: rest =>
    match hexCode? a b c d with
    | some n => .ok (n, rest)
    | none => .error (.badEscape, read + 4)
  | cs =>
    if width cs < 4 then .error (.endInString, read + width cs) else .error (.badEscape, read + 4)

/-- Whether a code is the first half of a surrogate pair. -/
def isLeading (n : Nat) : Bool := 0xD800 ≤ n && n ≤ 0xDBFF

/-- Whether a code is the second half of a surrogate pair. -/
def isTrailing (n : Nat) : Bool := 0xDC00 ≤ n && n ≤ 0xDFFF

/-- The character of a surrogate pair. -/
def pairChar (first second : Nat) : Char :=
  Char.ofNat ((first - 0xD800) * 0x400 + (second - 0xDC00) + 0x10000)

/-- Reads the character of a code behind its letter, with the number of bytes read then. -/
def readCoded (read : Nat) (cs : List Char) : Located (Char × Nat × List Char) := do
  let (first, rest) ← readCode read cs
  let read := read + 4
  if isTrailing first then .error (.loneSurrogate, read)
  else if isLeading first then
    match rest with
    | [] => .error (.endInString, read)
    | '\\' :: [] => .error (.endInString, read + 1)
    | '\\' :: 'u' :: rest => do
      let (second, rest) ← readCode (read + 2) rest
      if isTrailing second then return (pairChar first second, read + 6, rest)
      else .error (.loneSurrogate, read + 6)
    | '\\' :: _ :: _ => .error (.brokenPair, read + 2)
    | _ => .error (.brokenPair, read + 1)
  else return (Char.ofNat first, read, rest)

/-- The character that an escape by a letter stands for. -/
def letterEscape? (c : Char) : Option Char :=
  if c = '"' ∨ c = '\\' ∨ c = '/' then some c
  else if c = 'b' then some '\x08'
  else if c = 'f' then some '\x0c'
  else if c = 'n' then some '\n'
  else if c = 'r' then some '\r'
  else if c = 't' then some '\t'
  else none

theorem length_rest_readCode {read n : Nat} {cs rest : List Char}
    (h : readCode read cs = .ok (n, rest)) : rest.length + 4 = cs.length := by
  unfold readCode at h
  split at h
  · split at h
    · cases h
      rfl
    · simp at h
  · split at h <;> simp at h

theorem length_rest_readCoded {read next : Nat} {cs rest : List Char} {c : Char}
    (h : readCoded read cs = .ok (c, next, rest)) : rest.length < cs.length := by
  simp only [readCoded, bind, Except.bind, pure, Except.pure] at h
  split at h
  · simp at h
  · rename_i v hv
    have h1 := length_rest_readCode hv
    split at h
    · simp at h
    · split at h
      · split at h
        · simp at h
        · simp at h
        · rename_i r hr
          rw [hr] at h1
          split at h
          · simp at h
          · rename_i w hw
            have h2 := length_rest_readCode hw
            split at h
            · simp only [Except.ok.injEq, Prod.mk.injEq] at h
              obtain ⟨_, _, rfl⟩ := h
              simp only [List.length_cons] at h1
              omega
            · simp at h
        · simp at h
        · simp at h
      · simp only [Except.ok.injEq, Prod.mk.injEq] at h
        obtain ⟨_, _, rfl⟩ := h
        omega

/-- Reads a string up to its closing quote, `read` bytes being read already; gives the
number of bytes read at last too. -/
def unquoteFrom (read : Nat) (cs : List Char) : Located (List Char × Nat × List Char) :=
  match cs with
  | [] => .error (.endInString, read)
  | '\\' :: [] => .error (.endInString, read + 1)
  | '\\' :: 'u' :: r =>
    match h : readCoded (read + 2) r with
    | .error fault => .error fault
    | .ok (c, next, rest) => do
      let (cs, next, rest) ← unquoteFrom next rest
      return (c :: cs, next, rest)
  | '\\' :: e :: r =>
    match letterEscape? e with
    | some c => do
      let (cs, next, rest) ← unquoteFrom (read + 2) r
      return (c :: cs, next, rest)
    | none => .error (.badEscape, read + 2)
  | c :: r =>
    if c = '"' then .ok ([], read + 1, r)
    else if c.toNat < 0x20 then .error (.controlCharacter, read + 1)
    else do
      let (cs, next, rest) ← unquoteFrom (read + c.utf8Size) r
      return (c :: cs, next, rest)
termination_by cs.length
decreasing_by
  · have := length_rest_readCoded h
    simp only [List.length_cons]
    omega
  · simp only [List.length_cons]
    omega
  · simp

/-- Reads a string behind its opening quote; gives its length in bytes too. -/
def unquote (cs : List Char) : Located (List Char × Nat × List Char) :=
  unquoteFrom 0 cs

/-- Passes over a string up to its closing quote, `read` bytes being read already. -/
def skipQuotedFrom (read : Nat) (cs : List Char) : Located (Nat × List Char) :=
  match cs with
  | [] => .error (.endInString, read)
  | '\\' :: [] => .error (.endInString, read + 1)
  | '\\' :: 'u' :: r =>
    match h : readCode (read + 2) r with
    | .error fault => .error fault
    | .ok (_, rest) => skipQuotedFrom (read + 6) rest
  | '\\' :: e :: r =>
    if (letterEscape? e).isSome then skipQuotedFrom (read + 2) r else .error (.badEscape, read + 2)
  | c :: r =>
    if c = '"' then .ok (read + 1, r)
    else if c.toNat < 0x20 then .error (.controlCharacter, read)
    else skipQuotedFrom (read + c.utf8Size) r
termination_by cs.length
decreasing_by
  · have := length_rest_readCode h
    simp only [List.length_cons]
    omega
  · simp only [List.length_cons]
    omega
  · simp

/-- Passes over a string behind its opening quote; gives its length in bytes. -/
def skipQuoted (cs : List Char) : Located (Nat × List Char) :=
  skipQuotedFrom 0 cs

end SvgComponent.Json
