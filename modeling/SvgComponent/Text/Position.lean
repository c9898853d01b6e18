/-!
# Byte offsets, lines and columns

Places in a text are byte offsets of its UTF-8 form. A message shows a place as a line and
a column, both counted from one : the line by the line feeds in front of it, the column by
the characters since the last of them. An offset past the end stands for the end.

An offset inside a character has no column of its own; `Position.ofOffset` then counts the
bytes since the start of the line.
-/

namespace SvgComponent.Text

/-- The number of bytes of a text. -/
def width : List Char → Nat
  | [] => 0
  | c :: cs => c.utf8Size + width cs

@[simp] theorem width_nil : width [] = 0 := rfl

@[simp] theorem width_cons (c : Char) (cs : List Char) :
    width (c :: cs) = c.utf8Size + width cs := rfl

@[simp] theorem width_append (a b : List Char) : width (a ++ b) = width a + width b := by
  induction a with
  | nil => simp
  | cons c cs ih => simp [ih, Nat.add_assoc]

end SvgComponent.Text

namespace SvgComponent

/-- A line and a column, both counted from one. -/
structure Position where
  line : Nat
  column : Nat
  deriving DecidableEq, Repr

namespace Position

/-- The place `n` bytes further on, from the start of a character `bytes` bytes into its line. -/
def advance (place : Position) (bytes : Nat) : List Char → Nat → Position
  | [], _ => place
  | c :: cs, n =>
    if n = 0 then place
    else if n < c.utf8Size then ⟨place.line, bytes + n + 1⟩
    else if c = '\n' then advance ⟨place.line + 1, 1⟩ 0 cs (n - c.utf8Size)
    else advance ⟨place.line, place.column + 1⟩ (bytes + c.utf8Size) cs (n - c.utf8Size)

/-- The line and column of a byte offset. -/
def ofOffset (text : List Char) (offset : Nat) : Position :=
  advance ⟨1, 1⟩ 0 text offset

end Position

end SvgComponent
