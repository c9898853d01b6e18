/-!
# Blank characters

Two classes of blanks are in use. `isBlank` is Unicode's White_Space : values are cut at
both ends of it (`trim`), and a name that holds one cannot be written as an attribute.
`isGap` is the class of the formats themselves (space, tab, carriage return, line feed) :
it separates the parts of a tag and the tokens of a configuration text.

`isBlank_of_isGap` : the second class is part of the first.
-/

namespace SvgComponent.Text

/-- Space, tab, carriage return and line feed. -/
def isGap (c : Char) : Bool :=
  c = ' ' || c = '\t' || c = '\r' || c = '\n'

/-- The characters with Unicode's White_Space property. -/
def isBlank (c : Char) : Bool :=
  let n := c.toNat
  (9 ≤ n && n ≤ 13) || n = 0x20 || n = 0x85 || n = 0xA0 || n = 0x1680 ||
    (0x2000 ≤ n && n ≤ 0x200A) || n = 0x2028 || n = 0x2029 || n = 0x202F || n = 0x205F ||
    n = 0x3000

/-- Cuts the blanks at the end. -/
def trimEnd (cs : List Char) : List Char :=
  (cs.reverse.dropWhile isBlank).reverse

/-- Cuts the blanks at both ends. -/
def trim (cs : List Char) : List Char :=
  trimEnd (cs.dropWhile isBlank)

/-- Drops the gap in front. -/
def skipGap (cs : List Char) : List Char :=
  cs.dropWhile isGap

theorem isBlank_of_isGap {c : Char} (h : isGap c = true) : isBlank c = true := by
  simp only [isGap, Bool.or_eq_true, decide_eq_true_eq] at h
  rcases h with ((rfl | rfl) | rfl) | rfl <;> decide

theorem length_skipGap_le (cs : List Char) : (skipGap cs).length ≤ cs.length :=
  (List.dropWhile_suffix _).length_le

end SvgComponent.Text
