import SvgComponent.Path

/-!
# Names of components and files

A component is named after its source file : the letters and digits of the stem (`componentName`),
with a capital at the start and behind everything that was left out. It is written to a file
with the same stem and another extension (`outputFile`).
-/

namespace SvgComponent.Component

/-- Keeps the letters and digits, in capital form behind what is dropped and, if `raise`
says so, at the start. -/
def joinWords (raise : Bool) : List Char → List Char
  | [] => []
  | c :: cs =>
    if c.isAlphanum then (if raise then c.toUpper else c) :: joinWords false cs
    else joinWords true cs

/-- A name must not start with a digit. -/
def guardDigit (name : List Char) : List Char :=
  match name with
  | c :: _ => if c.isDigit then '_' :: name else name
  | [] => []

/-- The name of the component made from a file. -/
def componentName (file : String) : String :=
  String.ofList (guardDigit (joinWords true (Path.stem file).toList))

/-- The name of the file that the component is written to. -/
def outputFile (file extension : String) : String :=
  Path.stem file ++ "." ++ extension

end SvgComponent.Component
