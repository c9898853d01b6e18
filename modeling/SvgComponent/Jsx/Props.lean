import SvgComponent.Json.Quoted
import SvgComponent.Style
import SvgComponent.Tree.Basic

/-!
# Attribute lists

An element is written with a list of names, each with or without a value (`Emission`). A
value is a string in quotes, which knows no escapes, or an expression in braces; a string
that needs escapes is therefore written as an expression.

`compose` lists the attributes of an element and then the overrides of the caller; an
override takes the place of the attribute of its name, at the end of the list.
-/

namespace SvgComponent.Jsx

/-- What is written behind a name. -/
inductive Emission where
  | bare
  | quoted (text : String)
  | expression (text : String)
  deriving DecidableEq, Repr

/-- Overrides of the caller : a name without a value, or with one. -/
abbrev Overrides := OrderedMap String (Option String)

namespace Emission

/-- A string as a value. -/
def literal (value : String) : Emission :=
  let text := Json.quote value.toList
  if Json.isPlain value.toList then quoted (String.ofList text)
  else expression (String.ofList ('{' :: text ++ ['}']))

/-- An override : a name alone, an expression if it starts with a brace, else a string. -/
def ofOverride : Option String → Emission
  | none => bare
  | some value => if value.toList.head? = some '{' then expression value else literal value

/-- The value of an attribute. -/
def ofAttribute (name value : String) : Emission :=
  if name = "style" then expression (String.ofList (Style.expression value.toList))
  else literal value

/-- What is written behind the name. -/
def text : Emission → String
  | bare => ""
  | quoted value => "=" ++ value
  | expression value => "=" ++ value

end Emission

/-- Names with their values, in order. A name may come more than once. -/
abbrev Props := List (String × Emission)

namespace Props

/-- Appends an entry. -/
def push (props : Props) (name : String) (value : Emission) : Props :=
  props ++ [(name, value)]

/-- Removes every entry of a name and appends a new one. -/
def moveToEnd (props : Props) (name : String) (value : Emission) : Props :=
  props.filter (·.1 ≠ name) ++ [(name, value)]

/-- The attributes of an element. -/
def ofAttributes (attributes : Attributes) : Props :=
  attributes.entries.map fun p => (p.1, Emission.ofAttribute p.1 p.2)

/-- The attributes of an element with overrides behind them. -/
def compose (attributes : Attributes) (overrides : Option Overrides) : Props :=
  ((overrides.getD .empty).entries).foldl
    (fun props p => props.moveToEnd p.1 (.ofOverride p.2)) (ofAttributes attributes)

/-- The list as written, each entry with a blank in front. -/
def text (props : Props) : String :=
  String.join (props.map fun p => " " ++ p.1 ++ p.2.text)

end Props

end SvgComponent.Jsx
