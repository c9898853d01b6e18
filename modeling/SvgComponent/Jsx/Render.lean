import SvgComponent.Jsx.Props
import SvgComponent.Text.Replace
import SvgComponent.Text.Visible
import SvgComponent.Tree.Basic

/-!
# Writing a document

A document is written as one expression : its only part, or all its parts in a fragment. Text
is written as a string in braces, a comment as a comment in braces in which nothing ends it
early; doctypes and instructions are not written.

`render` also lists the components it uses (`Rendered.components`) : the names that start with a
capital, each once, in the order of first use. A document is refused if an element has no
name or an attribute has one that cannot be written (`RenderFault`).
-/

namespace SvgComponent.Jsx

/-- Why a document cannot be written. -/
inductive RenderFault where
  | emptyName
  | badAttribute (element name : String)
  deriving DecidableEq, Repr

/-- The wording of a fault. -/
def RenderFault.message : RenderFault → String
  | emptyName => "Element has an empty tag name"
  | badAttribute element name =>
    let shown := String.ofList (Text.quoteVisible name.toList)
    s!"Attribute name {shown} on <{element}> cannot be written in JSX"

/-- A document as written, and the components it uses. -/
structure Rendered where
  text : String
  components : List String
  deriving DecidableEq, Repr

/-! ## Names -/

/-- The characters that no attribute name may hold, besides blanks. -/
def isDelimiter (c : Char) : Bool :=
  c = '"' || c = '\'' || c = '=' || c = '<' || c = '>' || c = '/' || c = '{' || c = '}'

/-- Whether an attribute name can be written. -/
def isWritable (name : String) : Bool :=
  name.toList ≠ [] && name.toList.all fun c => !Text.isBlank c && !isDelimiter c

/-- Whether a name is that of a component. -/
def isComponent (name : String) : Bool :=
  match name.toList with
  | c :: _ => c.isUpper
  | [] => false

/-- What is wrong with a tag. -/
def tagFault? (tag : Tag) : Option RenderFault :=
  if tag.name = "" then some .emptyName
  else (tag.attributes.keys.find? (!isWritable ·)).map (.badAttribute tag.name)

/-- Adds a name to the components used so far. -/
def noteComponent (used : List String) (name : String) : List String :=
  if isComponent name ∧ !used.contains name then used ++ [name] else used

/-! ## Leaves -/

/-- A string in braces. -/
def literal (value : String) : String :=
  String.ofList ('{' :: Json.quote value.toList ++ ['}'])

/-- A comment in braces. -/
def comment (value : String) : String :=
  "\x7b/* " ++ String.ofList (Text.replaceAll ['*', '/'] ['*', ' ', '/'] value.toList) ++ " */\x7d"

/-! ## Nodes -/

mutual

/-- Writes a node, the components used so far being known. -/
def renderNode (overrides : Option Overrides) (used : List String) :
    Node → Except RenderFault (String × List String)
  | .element _ tag children =>
    match tagFault? tag with
    | some fault => .error fault
    | none =>
      let used := noteComponent used tag.name
      let start := "<" ++ tag.name ++ (Props.compose tag.attributes overrides).text
      match children with
      | [] => .ok (start ++ " />", used)
      | child :: rest => do
        let (text, used) ← renderNode none used child
        let (more, used) ← renderNodes used rest
        return (start ++ ">" ++ text ++ more ++ "</" ++ tag.name ++ ">", used)
  | .text _ value => .ok (literal value, used)
  | .cdata _ value => .ok (literal value, used)
  | .comment _ value => .ok (comment value, used)
  | .doctype .. => .ok ("", used)
  | .instruction .. => .ok ("", used)

/-- Writes nodes one behind the other, without overrides. -/
def renderNodes (used : List String) : List Node → Except RenderFault (String × List String)
  | [] => .ok ("", used)
  | node :: rest => do
    let (text, used) ← renderNode none used node
    let (more, used) ← renderNodes used rest
    return (text ++ more, used)

end

/-- Writes the nodes of the top level each by itself, without those that say nothing. -/
def renderParts (overrides : Option Overrides) (used : List String) :
    Document → Except RenderFault (List String × List String)
  | [] => .ok ([], used)
  | node :: rest => do
    let (text, used) ← renderNode overrides used node
    let (parts, used) ← renderParts overrides used rest
    return (if text = "" then parts else text :: parts, used)

/-- One expression out of the parts of a document. -/
def wrap : List String → String
  | [text] => text
  | parts => "<>" ++ String.join parts ++ "</>"

/-- Writes a document; the overrides go to the elements of the top level. -/
def render (document : Document) (overrides : Option Overrides) : Except RenderFault Rendered := do
  let (parts, components) ← renderParts overrides [] document
  return ⟨wrap parts, components⟩

end SvgComponent.Jsx
