import SvgComponent.Script.Grammar.Function

/-!
# Classes

A class has a name, which may be missing where it is an expression, a class that it extends, and a
body of methods, fields and blocks.
-/

namespace SvgComponent.Script.Grammar

open Script.Parser

/-- The marks that show that a word in front of them is the name of a class member and
not a modifier. -/
def memberMarks : List String := ["(", "=", ";", "\x7d"]

/-- Passes over a word that is a modifier of the class member behind it. -/
def modifier (word : String) : Parser Bool := do
  let (next, newline) ← following
  let isModifier := (← at? word) && !memberMarks.any next.is && !(word = "async" && newline)
  if isModifier then bump
  return isModifier

/-- The name of a class member, which may be a private one. -/
def memberName (g : Grammar) (mode : Mode) : Parser Unit := do
  if ← eat "#" then
    let _ ← anyWord
  else
    let _ ← g.propertyName mode

/-- A method or a field. -/
def memberRest (g : Grammar) (mode : Mode) : Parser Unit := do
  let async ← modifier "async"
  unless async do
    unless ← modifier "get" do
      let _ ← modifier "set"
  let generator ← eat "*"
  g.memberName mode
  if ← at? "(" then g.functionRest async generator
  else
    g.defaultValue mode
    expectEnd

/-- A member of a class. -/
def classMember (g : Grammar) (mode : Mode) : Parser Unit := do
  if ← eat ";" then return ()
  else if (← modifier "static") && (← at? "\x7b") then g.block {}
  else g.memberRest mode

/-- A class behind its keyword, given the rule for what it extends. -/
def classWith (g : Grammar) (parent : Parser Expression) (mode : Mode) (nameRequired : Bool) :
    Parser Unit := do
  if nameRequired || (← atReference) then
    let _ ← bindingName
  if ← eat "extends" then
    let _ ← parent
  expect "\x7b"
  loop (before "\x7d") (g.classMember mode)
  expect "\x7d"

end SvgComponent.Script.Grammar
