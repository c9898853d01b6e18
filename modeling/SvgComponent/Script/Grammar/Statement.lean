import SvgComponent.Script.Grammar.Operator

/-!
# Statements

A statement ends at a semicolon, or where one may be left out. Some faults do no harm : a
declaration of variables may be followed by anything up to the next place where a statement
can end, and a block by the end of the text.
-/

namespace SvgComponent.Script.Grammar

open Script.Parser

/-! ## Variables -/

/-- A variable : its name, unless it is a pattern, and its value, if it has one. -/
structure Variable where
  name : Option String
  value : Option Expression

/-- Puts a variable in front of others, unless the declaration ends where it should be. -/
def addVariable (g : Grammar) (mode : Mode) (before : List Variable) : Parser (List Variable) := do
  if (← at? ";") || (← atStop) then return before
  else
    let name ← g.binding mode.full
    let value ← if ← eat "=" then pure (some (← g.assignment mode)) else pure none
    return ⟨name, value⟩ :: before

/-- The variables of a declaration, behind its keyword. -/
def declared (g : Grammar) (mode : Mode) : Parser (List Variable) := do
  bump
  let reversed ← whileHolds (eat ",") (g.addVariable mode) (← g.addVariable mode [])
  return reversed.reverse

/-- Whether a token that nothing can take is at the cursor. -/
def atBad : Parser Bool := do
  match ← token with
  | .bad => return true
  | _ => return false

/-- A declaration of variables, and all that follows up to where a statement can end. -/
def variableStatement (g : Grammar) (mode : Mode) : Parser (List Variable) := do
  let declared ← g.declared mode.full
  unless ← eatEnd do
    recover (do let _ ← g.expression mode.full) (pure ())
    loop (do return !(← atBad) && !(← eatEnd)) bump
  return declared

/-- Whether a declaration of variables is at the cursor. The word `let` is a name if nothing
that can be bound follows. -/
def atVariables : Parser Bool := do
  if ← at? "let" then
    match (← following).1 with
    | .word w => return ["let", "yield", "await"].contains w || !keywords.contains w
    | next => return next.is "\x7b" || next.is "["
  else atAny ["var", "const"]

/-! ## Control -/

/-- An expression in parentheses. -/
def condition (g : Grammar) (mode : Mode) : Parser Unit := do
  expect "("
  let _ ← g.expression mode.full
  expect ")"

/-- A choice between statements; what follows a condition that is not closed is left out. -/
def ifStatement (g : Grammar) (mode : Mode) : Parser Unit := do
  bump
  expect "("
  let _ ← g.expression mode.full
  if ← eat ")" then
    g.statement mode
    if ← eat "else" then g.statement mode

/-- A statement that is repeated after a condition was looked at. -/
def whileStatement (g : Grammar) (mode : Mode) : Parser Unit := do
  bump
  g.condition mode
  g.statement mode

/-- A statement that is repeated before a condition is looked at. -/
def doStatement (g : Grammar) (mode : Mode) : Parser Unit := do
  bump
  g.statement mode
  expect "while"
  g.condition mode
  let _ ← eatEnd

/-- The condition and the step of a loop, behind its start. -/
def forSteps (g : Grammar) (mode : Mode) : Parser Unit := do
  expect ";"
  unless ← at? ";" do
    let _ ← g.expression mode.full
  expect ";"
  unless ← at? ")" do
    let _ ← g.expression mode.full

/-- What a loop goes over, or its condition and step. -/
def forRest (g : Grammar) (mode : Mode) : Parser Unit := do
  if ← eat "of" then
    let _ ← g.assignment mode.full
  else if ← eat "in" then
    let _ ← g.expression mode.full
  else g.forSteps mode

/-- The parentheses of a loop. -/
def forHead (g : Grammar) (mode : Mode) : Parser Unit := do
  let start := { mode with inOperator := false }
  if ← atVariables then
    let _ ← g.declared start
    g.forRest mode
  else if ← at? ";" then g.forSteps mode
  else
    let _ ← g.expression start
    g.forRest mode

/-- A loop. -/
def forStatement (g : Grammar) (mode : Mode) : Parser Unit := do
  bump
  let _ ← eat "await"
  expect "("
  g.forHead mode
  expect ")"
  g.statement mode

/-- A case of a choice by value. -/
def switchCase (g : Grammar) (mode : Mode) : Parser Unit := do
  if ← eat "case" then
    let _ ← g.expression mode.full
  else expect "default"
  expect ":"
  loop (do return !(← atStop) && !(← atAny ["case", "default", "\x7d"])) (g.statement mode)

/-- A choice by value. -/
def switchStatement (g : Grammar) (mode : Mode) : Parser Unit := do
  bump
  g.condition mode
  expect "\x7b"
  loop (atAny ["case", "default"]) (g.switchCase mode)
  expect "\x7d"

/-- What handles a failure. -/
def catchClause (g : Grammar) (mode : Mode) : Parser Unit := do
  if ← eat "catch" then
    if ← eat "(" then
      let _ ← g.binding mode
      expect ")"
    g.block mode

/-- What is done at last. -/
def finallyClause (g : Grammar) (mode : Mode) : Parser Unit := do
  if ← eat "finally" then g.block mode

/-- A block with what handles its failures. -/
def tryStatement (g : Grammar) (mode : Mode) : Parser Unit := do
  bump
  g.block mode
  g.catchClause mode
  g.finallyClause mode

/-- A way out of a loop, with a label or without. -/
def jumpStatement : Parser Unit := do
  bump
  unless ← eatEnd do
    let _ ← bindingName
    expectEnd

/-- A way out of a function, with a value or without. -/
def returnStatement (g : Grammar) (mode : Mode) : Parser Unit := do
  bump
  unless ← atEnd do
    let _ ← g.expression mode.full
  expectEnd

/-- A failure; its value has to be on the same line. -/
def throwStatement (g : Grammar) (mode : Mode) : Parser Unit := do
  bump
  if ← afterBreak then fail
  let _ ← g.expression mode.full
  expectEnd

/-! ## Declarations and expressions -/

/-- A function with a name, behind the word `async` if it has that. -/
def functionDeclaration (g : Grammar) (async nameRequired : Bool) : Parser Unit := do
  expect "function"
  g.functionNamed async nameRequired

/-- A class with a name. -/
def classDeclaration (g : Grammar) (mode : Mode) (nameRequired : Bool) : Parser Unit := do
  expect "class"
  g.classWith (g.parentClass mode) mode nameRequired

/-- Whether an asynchronous function is at the cursor. -/
def atAsyncFunction : Parser Bool := do
  let (next, newline) ← following
  return (← at? "async") && next.is "function" && !newline

/-- Something to wait for, and operators behind it. -/
def awaitStatement (g : Grammar) (mode : Mode) : Parser Unit := do
  let first ← g.awaited mode
  let _ ← g.operations mode.full first
  let _ ← eatEnd

/-- An import inside an expression, as a statement. -/
def importStatement (g : Grammar) (mode : Mode) : Parser Unit := do
  let (next, _) ← following
  if next.is "(" || next.is "." then
    let _ ← g.expression mode.full
    let _ ← eatEnd
  else fail

/-- An expression as a statement, or a statement with a label. -/
def expressionStatement (g : Grammar) (mode : Mode) : Parser Unit := do
  let first ← g.expression mode.full
  match first with
  | .name _ => if ← eat ":" then g.statement mode else ending
  | _ => ending
where
  /-- An operator where the statement should end is read on from. -/
  ending : Parser Unit := do
    unless ← eatEnd do
      if operatorMarks.any (← token).is then
        let _ ← g.operations mode.full .other
      else fail

/-- A statement that starts with none of the words that others start with. -/
def otherStatement (g : Grammar) (mode : Mode) : Parser Unit := do
  if ← atVariables then
    let _ ← g.variableStatement mode
  else if ← atAsyncFunction then
    bump
    g.functionDeclaration true true
  else if ← at? "\x7b" then g.block mode
  else if ← at? ";" then bump
  else g.expressionStatement mode

/-- A statement inside a block or a function. -/
def statementRule (g : Grammar) (mode : Mode) : Parser Unit := do
  match ← token with
  | .word "await" => g.awaitStatement mode
  | .word "break" => jumpStatement
  | .word "continue" => jumpStatement
  | .word "debugger" => do bump; expectEnd
  | .word "do" => g.doStatement mode
  | .word "for" => g.forStatement mode
  | .word "function" => g.functionDeclaration false true
  | .word "class" => g.classDeclaration mode true
  | .word "if" => g.ifStatement mode
  | .word "return" => g.returnStatement mode
  | .word "switch" => g.switchStatement mode
  | .word "throw" => g.throwStatement mode
  | .word "catch" => do
    recover (g.catchClause mode) (pure ())
    recover (g.finallyClause mode) (pure ())
  | .word "finally" => recover (g.finallyClause mode) (pure ())
  | .word "try" => g.tryStatement mode
  | .word "with" => g.whileStatement mode
  | .word "while" => g.whileStatement mode
  | .word "import" => g.importStatement mode
  | .word "export" => fail
  | _ => g.otherStatement mode

end SvgComponent.Script.Grammar
