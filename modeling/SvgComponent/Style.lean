import SvgComponent.Css.Declaration
import SvgComponent.Json.Quoted
import SvgComponent.OrderedMap
import SvgComponent.Text.Casing

/-!
# Style objects

A `style` attribute becomes an object whose keys are the property names in camel case (`keyOf`). Of
a property that is declared twice the first place and the last value remain. The object is written
as an expression (`expression`) with its keys and values as strings.
-/

namespace SvgComponent.Style

open Text

/-- Whether a character can take the place of the hyphen in front of it. -/
def isJoint (c : Char) : Bool :=
  c.isAlphanum || c = '_'

/-- Replaces each hyphen in front of a letter, digit or underscore by the capital form of
that; a hyphen at the end is dropped. -/
def camelCase : List Char → List Char
  | [] => []
  | '-' :: [] => []
  | '-' :: c :: cs =>
    if isJoint c then c.toUpper :: camelCase cs else '-' :: camelCase (c :: cs)
  | c :: cs => c :: camelCase cs

/-- The key of a property name : custom properties keep their name; the hyphen in front of
`ms-` is dropped, so that it does not start with a capital. -/
def keyOf (name : List Char) : List Char :=
  if (stripMark? ['-', '-'] name).isSome then name
  else
    camelCase
      (lowercase (if (stripMark? ['-', 'm', 's', '-'] name).isSome then name.tail else name))

/-- The object of a style text. -/
def object (css : List Char) : OrderedMap String String :=
  .ofPairs ((Css.declarations css).map fun d =>
    (String.ofList (keyOf d.name), String.ofList d.value))

/-- Joins texts with a separator. -/
def separated (separator : List Char) : List (List Char) → List Char
  | [] => []
  | [text] => text
  | text :: rest => text ++ separator ++ separated separator rest

/-- One entry of an object. -/
def entry (key value : String) : List Char :=
  Json.quote key.toList ++ ':' :: Json.quote value.toList

/-- The expression of a style text : the object in braces. -/
def expression (css : List Char) : List Char :=
  '{' :: '{' :: separated [','] ((object css).entries.map fun p => entry p.1 p.2) ++ ['}', '}']

end SvgComponent.Style
