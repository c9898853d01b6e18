import SvgComponent.Target.Basic
import SvgComponent.Text.Cut

/-!
# Component files

The text of a component file is a template with values in place of its placeholders, which are
names in braces (`Template.fill`). A brace is looked at together with the nearest one that closes
it : if there is a name with a value between them, the value is written and filling goes on behind
them; else the brace stays and filling goes on with the next character. What is written in place of
a placeholder is not looked at again.
-/

namespace SvgComponent.Component

/-- What a component file is made from. -/
structure Content where
  target : Target
  sourceFile : String
  targetFile : String
  componentName : String
  jsx : String
  components : List String

/-- The names that stand for something in braces, with their values. -/
def Content.values (content : Content) : List (List Char × List Char) :=
  [("sourceFile", content.sourceFile), ("targetFile", content.targetFile),
    ("componentName", content.componentName), ("jsx", content.jsx),
    ("components", ", ".intercalate content.components)].map
    fun p => (p.1.toList, p.2.toList)

namespace Template

/-- The name in the braces that a text starts with, up to the nearest closing brace, and its
value. -/
def front? (values : List (List Char × List Char)) : List Char → Option (List Char × List Char)
  | '{' :: cs => do
    let (name, _) ← Text.cutAt? ['}'] cs
    let value ← values.lookup name
    return (name, value)
  | _ => none

/-- Fills in values, `skip` characters of the last placeholder being left to pass over. -/
def fillFrom (values : List (List Char × List Char)) : (skip : Nat) → List Char → List Char
  | _, [] => []
  | n + 1, _ :: cs => fillFrom values n cs
  | 0, c :: cs =>
    match front? values (c :: cs) with
    | some (name, value) => value ++ fillFrom values (name.length + 1) cs
    | none => c :: fillFrom values 0 cs

/-- Writes values in place of their names in braces. -/
def fill (values : List (List Char × List Char)) (template : List Char) : List Char :=
  fillFrom values 0 template

/-- What a component file says unless told otherwise. -/
def standard (imports : String) : String :=
  "// Generated from \x7bsourceFile\x7d\n\n" ++ imports ++
  "export const \x7bcomponentName\x7d = (props) => \x7b\n  return (\n    \x7bjsx\x7d\n  );\n\x7d\n"

/-- The template for a target if none is given; native components have to be imported. -/
def default : Target → String
  | .reactNative => standard "import \x7b\x7bcomponents\x7d\x7d from 'react-native-svg'\n\n"
  | _ => standard ""

end Template

/-- The text of a component file. -/
def Content.text (content : Content) (template : Option String) : String :=
  String.ofList
    (Template.fill content.values (template.getD (Template.default content.target)).toList)

end SvgComponent.Component
