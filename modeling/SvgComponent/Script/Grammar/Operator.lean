import SvgComponent.Script.Grammar.Operand

/-!
# Operators

Operators stand in front of operands, behind them and between them; a condition chooses one
of two expressions; an assignment gives a value to what can be assigned to.

Two faults do no harm : a missing operand behind an operator that stands in front of it, and a
missing first operand in front of an operator of two.
-/

namespace SvgComponent.Script.Grammar

open Script.Parser

/-- The operators in front of an operand that do not change it. -/
def signs : List String := ["delete", "typeof", "void", "+", "-", "~", "!"]

/-- Waiting for a value. Where nothing follows, `await` is a name. -/
def awaited (g : Grammar) (mode : Mode) : Parser Expression := do
  expect "await"
  if !mode.async && ((← atAny [")", "]", ","]) || (← atEnd)) then return .name "await"
  else
    let _ ← g.unary mode false
    return .signed

/-- An operand with the operators in front of and behind it. -/
def unaryRule (g : Grammar) (mode : Mode) (arrowFits : Bool) : Parser Expression := do
  if ← atAny signs then
    bump
    recover (do let _ ← g.unary mode false) (pure ())
    return .signed
  else if ← atAny ["++", "--"] then
    bump
    let _ ← g.unary mode false
    return .operation
  else if ← at? "await" then g.awaited mode
  else
    match ← g.operand mode arrowFits with
    | .arrow => return .arrow
    | first =>
      if !(← afterBreak) && (← atAny ["++", "--"]) then
        bump
        return .operation
      else return first

/-- Operands with operators of two operands between them. -/
def binary (g : Grammar) (mode : Mode) (arrowFits : Bool) : Parser Expression := do
  let missing : Parser Expression := do
    if ← atOperator mode then return .operation else fail
  match ← recover (g.unaryRule mode arrowFits) missing with
  | .arrow => return .arrow
  | first => g.operations mode first

/-- A choice between two expressions, or one expression. -/
def conditional (g : Grammar) (mode : Mode) (arrowFits : Bool) : Parser Expression := do
  match ← g.binary mode arrowFits with
  | .arrow => return .arrow
  | first =>
    if ← eat "?" then
      let _ ← g.assignment mode.full
      expect ":"
      let _ ← g.assignment mode
      return .operation
    else return first

/-- The operators that assign. -/
def assigning : List String :=
  ["=", "+=", "-=", "*=", "/=", "%=", "<<=", ">>=", ">>>=", "&=", "|=", "^=", "&&=", "||=", "??=",
   "**="]

/-- Whether a value can be assigned, by a plain equals sign or by an operator with one. -/
def canAssign (plain : Bool) : Expression → Bool
  | .array items => plain && Expression.elementsFit items
  | .object members => plain && Expression.membersFit members
  | e => e.isTarget

/-- An assignment to an expression, if one follows. -/
def assignmentRest (g : Grammar) (mode : Mode) (target : Expression) : Parser Expression := do
  if ← atAny assigning then
    if canAssign (← at? "=") target then
      bump
      let _ ← g.assignment mode
      return .other
    else fail
  else return target

/-- What a generator hands out. -/
def yielded (g : Grammar) (mode : Mode) : Parser Expression := do
  expect "yield"
  if (← atEnd) || (← atAny [")", "]", ",", ":"]) then return .other
  else
    let _ ← eat "*"
    let _ ← g.assignment mode
    return .other

/-- An expression without a comma. -/
def assignmentRule (g : Grammar) (mode : Mode) : Parser Expression := do
  if mode.generator && (← at? "yield") then g.yielded mode
  else
    match ← g.conditional mode true with
    | .arrow => return .arrow
    | .operation => return .operation
    | .signed => return .signed
    | target => g.assignmentRest mode target

end SvgComponent.Script.Grammar
