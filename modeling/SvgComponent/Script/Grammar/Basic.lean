import SvgComponent.Script.Expression
import SvgComponent.Script.Token

/-!
# Reading scripts

A `Parser` reads from a cursor. One that fails leaves the cursor where it failed, because some
rules go on from there (`recover`).

The rules of the grammar call each other. Each takes the others from a `Grammar`, and a grammar that
goes one level deeper is made from one that does not, so that every rule by itself is
an ordinary definition.
-/

namespace SvgComponent.Script

/-- A reader of a script. -/
abbrev Parser (α : Type) := EStateM Unit Cursor α

/-- What the place of an expression allows : whether `in` is an operator there, and whether the
innermost function is an asynchronous one or a generator. -/
structure Mode where
  inOperator : Bool := true
  async : Bool := false
  generator : Bool := false

/-- A place where `in` is an operator. -/
def Mode.full (mode : Mode) : Mode := { mode with inOperator := true }

/-- The rules that other rules come back to. -/
structure Grammar where
  /-- An expression without a comma. -/
  assignment : Mode → Parser Expression
  /-- An operand with the operators in front of and behind it; it may be a function with an
  arrow if the flag says so. -/
  unary : Mode → (arrowFits : Bool) → Parser Expression
  /-- What follows `new`. -/
  constructed : Mode → Parser Expression
  /-- What is bound : a name, which is given, or a pattern. -/
  binding : Mode → Parser (Option String)
  /-- A statement inside a block or a function. -/
  statement : Mode → Parser Unit

namespace Parser

variable {α σ : Type}

/-- Fails where the cursor is. -/
def fail : Parser α := throw ()

/-- Goes on with another parser where one fails. -/
def recover (p handler : Parser α) : Parser α := fun cursor =>
  match p cursor with
  | .ok a cursor => .ok a cursor
  | .error _ cursor => handler cursor

/-- The token at the cursor. -/
def token : Parser Token := do
  return (← get).token

/-- Goes on with the first token of a text. -/
def moveTo (rest : List Char) : Parser Unit :=
  modify fun cursor => cursor.moved rest

/-- Passes over the token at the cursor. -/
def bump : Parser Unit :=
  modify Cursor.next

/-- Whether a line break stands in front of the token. -/
def afterBreak : Parser Bool := do
  return (← get).newline

/-- The token behind the one at the cursor, and whether a line break stands in front of it. -/
def following : Parser (Token × Bool) := do
  let next := (← get).next
  return (next.token, next.newline)

/-- Whether a word or mark is at the cursor. -/
def at? (text : String) : Parser Bool := do
  return (← token).is text

/-- Whether one of some words or marks is at the cursor. -/
def atAny (texts : List String) : Parser Bool := do
  let token ← token
  return texts.any token.is

/-- Passes over a word or mark if it is there. -/
def eat (text : String) : Parser Bool := do
  if ← at? text then
    bump
    return true
  else return false

/-- Passes over a word or mark that has to be there. -/
def expect (text : String) : Parser Unit := do
  unless ← eat text do fail

/-- Whether the text ends at the cursor. -/
def atStop : Parser Bool := do
  match ← token with
  | .stop => return true
  | _ => return false

/-- Whether a statement can end at the cursor : at a semicolon, at a closing brace, at the end
of the text and at a line break. -/
def atEnd : Parser Bool := do
  return (← atAny [";", "\x7d"]) || (← atStop) || (← afterBreak)

/-- Ends a statement if it can end at the cursor. -/
def eatEnd : Parser Bool := do
  if ← eat ";" then return true else atEnd

/-- Ends a statement, which has to end at the cursor. -/
def expectEnd : Parser Unit := do
  unless ← eatEnd do fail

/-! ## Repeating -/

/-- Repeats a step with a state as long as a test holds, at most `steps` times. -/
def whileIn (test : Parser Bool) (step : σ → Parser σ) : (steps : Nat) → σ → Parser σ
  | 0, s => return s
  | n + 1, s => do
    if ← test then whileIn test step n (← step s) else return s

/-- Repeats a step with a state as long as a test holds. Every step passes over a token, so
the limit of the cursor bounds their number. -/
def whileHolds (test : Parser Bool) (step : σ → Parser σ) (s : σ) : Parser σ := do
  whileIn test step ((← get).limit + 1) s

/-- Repeats a step as long as a test holds. -/
def loop (test : Parser Bool) (step : Parser Unit) : Parser Unit :=
  whileHolds test (fun _ => step) ()

/-- Whether something stands in front of a closing mark. -/
def before (close : String) : Parser Bool := do
  return !(← at? close) && !(← atStop)

/-- A comma, unless the closing mark is there. -/
def comma (close : String) : Parser Unit := do
  unless ← at? close do expect ","

/-- Entries with commas between them and a closing mark behind; there may be a comma in
front of it. -/
def separated (close : String) (entry : Parser α) : Parser (List α) := do
  let entries ← whileHolds (before close) (fun entries => do
    let first ← entry
    comma close
    return first :: entries) []
  expect close
  return entries.reverse

/-! ## Words -/

/-- A name that something is bound to. -/
def bindingName : Parser String := do
  match ← token with
  | .word w =>
    if w = "let" ∨ w = "yield" ∨ !keywords.contains w then
      bump
      return w
    else fail
  | _ => fail

/-- Whether a word that can refer to something is at the cursor. -/
def atReference : Parser Bool := do
  match ← token with
  | .word w => return w ≠ "let" && canRefer w
  | _ => return false

/-- Any word, as the name of a property. -/
def anyWord : Parser String := do
  match ← token with
  | .word w =>
    bump
    return w
  | _ => fail

end Parser

end SvgComponent.Script
