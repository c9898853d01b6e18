import SvgComponent.OrderedMap

/-!
# Document trees

A document is a list of nodes : elements, which hold further nodes, and five kinds of
leaves. What an element says of itself, its name and its attributes, is its `Tag`; changing a tag
leaves the children alone.
-/

namespace SvgComponent

/-- A range of byte offsets, from `start` up to but without `stop`. Nodes that were not read
from a text have the range `0, 0`. -/
structure Span where
  start : Nat := 0
  stop : Nat := 0
  deriving DecidableEq, Repr, Inhabited

/-- Attributes by name, in order of declaration. -/
abbrev Attributes := OrderedMap String String

/-- The name and the attributes of an element. -/
structure Tag where
  name : String
  attributes : Attributes := .empty
  deriving Inhabited

/-- The node kinds. -/
inductive Node where
  | element (span : Span) (tag : Tag) (children : List Node)
  | text (span : Span) (value : String)
  | cdata (span : Span) (value : String)
  | comment (span : Span) (value : String)
  | doctype (span : Span) (value : String)
  | instruction (span : Span) (name value : String)
  deriving Inhabited

/-- The nodes at the top level, in order. -/
abbrev Document := List Node

namespace Node

/-- The source range of a node. -/
def span : Node → Span
  | element s .. | text s _ | cdata s _ | comment s _ | doctype s _ | instruction s .. => s

/-- Whether the node can hold further nodes. -/
def isElement : Node → Bool
  | element .. => true
  | _ => false

end Node

end SvgComponent
