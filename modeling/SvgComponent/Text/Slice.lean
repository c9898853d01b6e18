import SvgComponent.Text.Position

/-!
# Slices of a text

`slice?` is the part of a text between two byte offsets; there is none unless both are offsets
of characters (or of the end), in order.
-/

namespace SvgComponent.Text

/-- The first `n` bytes of a text and what follows them, if no character is cut. -/
def splitBytes? : Nat → List Char → Option (List Char × List Char)
  | 0, cs => some ([], cs)
  | _ + 1, [] => none
  | n + 1, c :: cs =>
    if c.utf8Size ≤ n + 1 then
      (splitBytes? (n + 1 - c.utf8Size) cs).map fun p => (c :: p.1, p.2)
    else none

/-- The text between two byte offsets. -/
def slice? (start stop : Nat) (cs : List Char) : Option (List Char) :=
  if start ≤ stop then
    (splitBytes? start cs).bind fun p => (splitBytes? (stop - start) p.2).map (·.1)
  else none

end SvgComponent.Text
