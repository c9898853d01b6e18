import SvgComponent.Script.Grammar.Basic

/-!
# Patterns, parameters and bodies

What a declaration or a parameter binds is a name or a pattern of names. A function has parameters
in parentheses and a body in braces.
-/

namespace SvgComponent.Script.Grammar

open Script.Parser

/-- An expression, with commas between its parts. -/
def expression (g : Grammar) (mode : Mode) : Parser Expression := do
  let first ← g.assignment mode
  if ← at? "," then
    loop (eat ",") (do let _ ← g.assignment mode)
    return .other
  else return first

/-- A value after an equals sign, if there is one. -/
def defaultValue (g : Grammar) (mode : Mode) : Parser Unit := do
  if ← eat "=" then
    let _ ← g.assignment mode.full

/-- What is bound, with a value for when it is missing. -/
def bindingElement (g : Grammar) (mode : Mode) : Parser Unit := do
  let _ ← g.binding mode
  g.defaultValue mode

/-! ## Names of properties -/

/-- The name of a property : its text, and whether it is a plain word. -/
structure Key where
  text : Option String
  isWord : Bool

/-- The name of a property. -/
def propertyName (g : Grammar) (mode : Mode) : Parser Key := do
  match ← token with
  | .word w => do bump; return ⟨some w, true⟩
  | .string value => do bump; return ⟨value, false⟩
  | .number _ => do bump; return ⟨none, false⟩
  | .bigNumber => do bump; return ⟨none, false⟩
  | _ => do
    expect "["
    let _ ← g.assignment mode.full
    expect "]"
    return ⟨none, false⟩

/-! ## Patterns -/

/-- An entry of a list pattern, behind its bracket. -/
def arrayPatternEntry (g : Grammar) (mode : Mode) : Parser Unit := do
  if ← eat "," then return ()
  else
    if ← eat "..." then
      let _ ← g.binding mode
    else g.bindingElement mode
    comma "]"

/-- A list pattern. -/
def arrayPattern (g : Grammar) (mode : Mode) : Parser Unit := do
  expect "["
  loop (before "]") (g.arrayPatternEntry mode)
  expect "]"

/-- An entry of an object pattern. -/
def objectPatternEntry (g : Grammar) (mode : Mode) : Parser Unit := do
  if ← eat "..." then
    let _ ← g.binding mode
  else
    let key ← g.propertyName mode
    if ← eat ":" then g.bindingElement mode
    else if key.isWord then g.defaultValue mode
    else fail

/-- An object pattern. -/
def objectPattern (g : Grammar) (mode : Mode) : Parser Unit := do
  expect "\x7b"
  let _ ← separated "\x7d" (g.objectPatternEntry mode)

/-- What is bound : a name, which is given, or a pattern. -/
def bindingRule (g : Grammar) (mode : Mode) : Parser (Option String) := do
  match ← token with
  | .word _ => return some (← bindingName)
  | token =>
    if token.is "[" then g.arrayPattern mode else g.objectPattern mode
    return none

/-! ## Functions -/

/-- A parameter. -/
def parameter (g : Grammar) (mode : Mode) : Parser Unit := do
  let _ ← eat "..."
  g.bindingElement mode

/-- A block of statements. It also ends at the end of the text. -/
def block (g : Grammar) (mode : Mode) : Parser Unit := do
  expect "\x7b"
  loop (before "\x7d") (g.statement mode)
  let _ ← eat "\x7d"

/-- Parameters and body of a function. -/
def functionRest (g : Grammar) (async generator : Bool) : Parser Unit := do
  let mode : Mode := { async, generator }
  expect "("
  let _ ← separated ")" (g.parameter mode)
  g.block mode

/-- A function behind its keyword, with a name that may or must be there. -/
def functionNamed (g : Grammar) (async nameRequired : Bool) : Parser Unit := do
  let generator ← eat "*"
  if nameRequired then
    let _ ← bindingName
  else if (← atReference) || (← at? "let") then
    let _ ← bindingName
  g.functionRest async generator

/-- The body of a function with an arrow. Gives whether it is a block. -/
def arrowBody (g : Grammar) (mode : Mode) (async : Bool) : Parser Bool := do
  if ← at? "\x7b" then
    g.block { async }
    return true
  else
    let _ ← g.assignment { mode with async, generator := false }
    return false

end SvgComponent.Script.Grammar
