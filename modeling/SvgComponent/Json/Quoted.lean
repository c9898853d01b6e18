/-!
# Quoted strings

`quote` writes a text as a JSON string, which is also a string literal of a script : quotes
and backslashes are escaped, and so are the characters below the blank, by a letter where
there is one and else by their code. Nothing else is.

`flatMap_escape_of_isPlain` : a text in which no character is escaped stands in quotes as it is.
-/

namespace SvgComponent.Json

/-- A hexadecimal digit in lower case. -/
def hexDigit (n : Nat) : Char :=
  Nat.digitChar (n % 16)

/-- The form of a character inside quotes. -/
def escape (c : Char) : List Char :=
  if c = '"' then ['\\', '"']
  else if c = '\\' then ['\\', '\\']
  else if c = '\n' then ['\\', 'n']
  else if c = '\r' then ['\\', 'r']
  else if c = '\t' then ['\\', 't']
  else if c = '\x08' then ['\\', 'b']
  else if c = '\x0c' then ['\\', 'f']
  else if c.toNat < 0x20 then
    ['\\', 'u', '0', '0', hexDigit (c.toNat / 16), hexDigit c.toNat]
  else [c]

/-- The text in quotes. -/
def quote (cs : List Char) : List Char :=
  '"' :: cs.flatMap escape ++ ['"']

/-- Whether a text stands in quotes as it is. -/
def isPlain (cs : List Char) : Bool :=
  cs.all fun c => escape c = [c]

theorem flatMap_escape_of_isPlain {cs : List Char} (h : isPlain cs = true) :
    cs.flatMap escape = cs := by
  induction cs with
  | nil => rfl
  | cons c cs ih =>
    simp only [isPlain, List.all_cons, Bool.and_eq_true, decide_eq_true_eq] at h
    rw [List.flatMap_cons, h.1, ih h.2, List.singleton_append]

end SvgComponent.Json
