import SvgComponent.Text.Position

/-!
# Character references

In text and in attribute values `&name;` stands for a character : one of the five predefined
names, `&#` with a decimal and `&#x` with a hexadecimal number. `expand` replaces the
references of a text, the first that is wrong being reported (`ReferenceFault`). Places are
byte ranges of the text that is expanded.

`expand_of_no_ampersand` : a text without `&` is left as it is.
-/

namespace SvgComponent.Markup

open Text

/-- Why a number is no character. -/
inductive NumberFault where
  | signed
  | empty
  | badDigit
  | tooLarge
  | zero
  | notScalar (code : Nat)
  deriving DecidableEq, Repr

/-- The wording of a wrong number. -/
def NumberFault.message : NumberFault → String
  | signed => "unexpected number sign"
  | empty => "cannot parse integer from empty string"
  | badDigit => "invalid digit found in string"
  | tooLarge => "number too large to fit in target type"
  | zero => "0x0 character is not permitted in XML"
  | notScalar code => s!"`{code}` is not a valid codepoint"

/-- Why a reference stands for no character. -/
inductive ReferenceFault where
  | unterminated (start stop : Nat)
  | unknownName (start stop : Nat) (name : String)
  | badNumber (fault : NumberFault)
  deriving DecidableEq, Repr

/-- The wording of a wrong reference. -/
def ReferenceFault.message : ReferenceFault → String
  | unterminated start stop =>
    s!"Error while escaping character at range {start}..{stop}: Cannot find ';' after '&'"
  | unknownName start stop name => s!"at {start}..{stop}: unrecognized entity `{name}`"
  | badNumber fault => "invalid character reference: " ++ fault.message

namespace Reference

/-- The value of a digit in a base up to sixteen. -/
def digit? (base : Nat) (c : Char) : Option Nat :=
  let value? :=
    if '0' ≤ c ∧ c ≤ '9' then some (c.toNat - '0'.toNat)
    else if 'a' ≤ c ∧ c ≤ 'f' then some (c.toNat - 'a'.toNat + 10)
    else if 'A' ≤ c ∧ c ≤ 'F' then some (c.toNat - 'A'.toNat + 10)
    else none
  value?.filter (· < base)

/-- Reads digits into a number below 2^32, from the left. -/
def readDigits (base value : Nat) : List Char → Except NumberFault Nat
  | [] => .ok value
  | c :: cs =>
    match digit? base c with
    | none => .error .badDigit
    | some d =>
      if value * base + d < Nat.pow 2 32 then readDigits base (value * base + d) cs
      else .error .tooLarge

/-- Reads a number that may not have a sign. -/
def readNumber (base : Nat) : List Char → Except NumberFault Nat
  | [] => .error .empty
  | c :: cs => if c = '+' ∨ c = '-' then .error .signed else readDigits base 0 (c :: cs)

/-- The character with a code. -/
def ofCode (code : Nat) : Except NumberFault Char :=
  if code = 0 then .error .zero
  else if h : code.isValidChar then .ok (Char.ofNatAux code h)
  else .error (.notScalar code)

/-- The character of a reference by number, without the mark `#`. -/
def ofNumber (cs : List Char) : Except NumberFault Char := do
  match cs with
  | 'x' :: digits => ofCode (← readNumber 16 digits)
  | digits => ofCode (← readNumber 10 digits)

/-- The predefined names. -/
def named? (name : List Char) : Option Char :=
  if name = ['l', 't'] then some '<'
  else if name = ['g', 't'] then some '>'
  else if name = ['a', 'm', 'p'] then some '&'
  else if name = ['a', 'p', 'o', 's'] then some '\''
  else if name = ['q', 'u', 'o', 't'] then some '"'
  else none

/-- The character of a reference whose name stands at byte `start`. -/
def resolve (start : Nat) (name : List Char) : Except ReferenceFault Char :=
  match name with
  | '#' :: number =>
    match ofNumber number with
    | .ok c => .ok c
    | .error fault => .error (.badNumber fault)
  | _ =>
    match named? name with
    | some c => .ok c
    | none => .error (.unknownName start (start + width name) (String.ofList name))

/-- A character that no name of a reference holds. -/
def isNameEnd (c : Char) : Bool := c = '&' || c = ';'

/-- Expands the text from byte `pos` on, out of `total`. -/
def expandFrom (total pos : Nat) (cs : List Char) : Except ReferenceFault (List Char) :=
  match cs with
  | [] => .ok []
  | c :: r =>
    if c = '&' then
      let name := r.takeWhile (!isNameEnd ·)
      match h : r.dropWhile (!isNameEnd ·) with
      | ';' :: rest => do
        let c ← resolve (pos + 1) name
        let cs ← expandFrom total (pos + 2 + width name) rest
        return c :: cs
      | _ => .error (.unterminated pos total)
    else do
      let cs ← expandFrom total (pos + c.utf8Size) r
      return c :: cs
termination_by cs.length
decreasing_by
  · have := (List.dropWhile_suffix (l := r) (!isNameEnd ·)).length_le
    rw [h] at this
    simp only [List.length_cons] at this ⊢
    omega
  · simp

/-- Replaces the references of a text by the characters they stand for. -/
def expand (cs : List Char) : Except ReferenceFault (List Char) :=
  expandFrom (width cs) 0 cs

theorem expandFrom_of_no_ampersand (total pos : Nat) {cs : List Char} (h : '&' ∉ cs) :
    expandFrom total pos cs = .ok cs := by
  induction cs generalizing pos with
  | nil => rw [expandFrom]
  | cons c cs ih =>
    have hc : '&' ≠ c := fun e => h (e ▸ List.mem_cons_self)
    have hcs : '&' ∉ cs := fun hm => h (List.mem_cons_of_mem c hm)
    rw [expandFrom, if_neg (Ne.symm hc), ih _ hcs]
    rfl

theorem expand_of_no_ampersand {cs : List Char} (h : '&' ∉ cs) : expand cs = .ok cs :=
  expandFrom_of_no_ampersand _ _ h

end Reference

end SvgComponent.Markup
