/-!
# Ranges of characters

A class of characters is given by the ranges of codes in it, in ascending order (`inRanges`).
-/

namespace SvgComponent.Text

/-- Whether a code is in one of the ranges, which ascend. -/
def inRanges (n : Nat) : List (Nat × Nat) → Bool
  | [] => false
  | (first, last) :: rest =>
    if n < first then false else if n ≤ last then true else inRanges n rest

end SvgComponent.Text
