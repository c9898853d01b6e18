import SvgComponent.Script.Grammar.Class

/-!
# Operands

An operand is a literal, a name, a list, an object, a function or a class, or an expression in
parentheses, with accesses and calls behind it. A function with an arrow starts like a name
or like parentheses; it is one only at the start of an assignment expression.
-/

namespace SvgComponent.Script.Grammar

open Script.Parser

/-! ## Lists and objects -/

/-- An entry of a list or an argument : an expression, or one whose entries are spread. -/
def entry (g : Grammar) (mode : Mode) : Parser Element := do
  if ← eat "..." then
    let _ ← g.assignment mode.full
    return .spread
  else return .value (← g.assignment mode.full)

/-- A list. -/
def array (g : Grammar) (mode : Mode) : Parser Expression := do
  expect "["
  let items ← whileHolds (before "]") (fun items => do
    if ← eat "," then return .hole :: items
    else
      let item ← g.entry mode
      comma "]"
      return item :: items) []
  expect "]"
  return .array items.reverse

/-- What follows a word in an object that has neither a value nor parameters : nothing, a
default, or the method that the word is a modifier of. -/
def shorthandRest (g : Grammar) (mode : Mode) (word : String) : Parser Member := do
  let _ ← eat "?"
  if ← at? "=" then
    g.defaultValue mode
    return .shorthand
  else if ← atAny [",", "\x7d"] then return .shorthand
  else if ["get", "set", "async"].contains word then
    let generator ← if word = "async" then eat "*" else pure false
    let _ ← g.propertyName mode
    g.functionRest (word = "async") generator
    return .method
  else fail

/-- A member of an object. -/
def member (g : Grammar) (mode : Mode) : Parser Member := do
  if ← eat "..." then
    let _ ← g.assignment mode.full
    return .spread
  else if ← eat "*" then
    let _ ← g.propertyName mode
    g.functionRest false true
    return .method
  else
    let key ← g.propertyName mode
    if ← eat ":" then return .pair key.text (← g.assignment mode.full)
    else if ← at? "(" then
      g.functionRest false false
      return .method
    else
      match key.isWord, key.text with
      | true, some word => g.shorthandRest mode word
      | _, _ => fail

/-- An object. -/
def object (g : Grammar) (mode : Mode) : Parser Expression := do
  expect "\x7b"
  return .object (← separated "\x7d" (g.member mode))

/-! ## Templates and regular expressions -/

/-- A template behind a chunk that does not end it : the expression, its brace, and the next
chunk. -/
def templateStep (g : Grammar) (mode : Mode) (tagged : Bool) (chunk : Chunk) : Parser Chunk := do
  moveTo chunk.rest
  let _ ← g.expression mode.full
  match (← get).text with
  | '}' :: cs =>
    match chunk? true cs with
    | some chunk => if chunk.valid || tagged then return chunk else fail
    | none => fail
  | _ => fail

/-- A template; escapes in it need not be valid if it has a tag. -/
def template (g : Grammar) (mode : Mode) (tagged : Bool) : Parser Unit := do
  match chunk? true (← get).text.tail with
  | none => fail
  | some first =>
    unless first.valid || tagged do fail
    let last ← templateChunks ((← get).limit + 1) first
    unless last.last do fail
    moveTo last.rest
where
  /-- The chunks behind one, up to the last. -/
  templateChunks : Nat → Chunk → Parser Chunk
    | 0, chunk => return chunk
    | n + 1, chunk => do
      if chunk.last then return chunk else templateChunks n (← g.templateStep mode tagged chunk)

/-- A regular expression. -/
def pattern : Parser Unit := do
  match skipPattern? false false (← get).text.tail with
  | some rest => moveTo rest
  | none => fail

/-! ## Parentheses -/

/-- The operators of two operands that are marks. -/
def operatorMarks : List String :=
  ["==", "!=", "===", "!==", "<", "<=", ">", ">=", "<<", ">>", ">>>", "+", "-", "*", "/", "%", "|",
   "^", "&", "||", "&&", "**", "??"]

/-- Whether an operator of two operands is at the cursor. -/
def atOperator (mode : Mode) : Parser Bool := do
  let token ← token
  return operatorMarks.any token.is || token.is "instanceof" || (mode.inOperator && token.is "in")

/-- The operators and operands behind a first operand. The operand in front of a power must
not have an operator in front of it. -/
def operations (g : Grammar) (mode : Mode) (first : Expression) : Parser Expression := do
  let (_, result) ← whileHolds (atOperator mode) (fun (last, _) => do
    let power ← at? "**"
    match power, last with
    | true, .signed => fail
    | _, _ =>
      bump
      let operand ← g.unary mode false
      return (operand, .operation)) (first, first)
  return result

/-- A function with an arrow, at the arrow. A block ends it, but operators behind that
are read as if they belonged to it. -/
def arrowRest (g : Grammar) (mode : Mode) (async : Bool) : Parser Expression := do
  expect "=>"
  let isBlock ← g.arrowBody mode async
  let token ← token
  if isBlock && operatorMarks.any token.is then g.operations mode .other else return .arrow

/-- What parentheses with entries in them stand for, if they are not parameters. -/
def parenthesized (call : Bool) (entries : List Element) : Parser Expression :=
  if call then return .other
  else
    match entries with
    | [.value e] => return .paren e
    | entries =>
      if entries.isEmpty || entries.any (fun e => e matches .spread) then fail
      else return .paren .other

/-- An expression in parentheses, or a function with parameters in parentheses. Behind the
word `async` the parentheses may also hold arguments. -/
def parentheses (g : Grammar) (mode : Mode) (arrowFits async : Bool) : Parser Expression := do
  expect "("
  let entries ← separated ")" (g.entry mode)
  if ← at? "=>" then
    if (← afterBreak) || !arrowFits || !Expression.elementsFit entries then fail
    else g.arrowRest mode async
  else parenthesized async entries

/-! ## Names -/

/-- A name, or a function whose parameter is a name. -/
def nameOrArrow (g : Grammar) (mode : Mode) (arrowFits : Bool) (word : String) :
    Parser Expression := do
  bump
  let sameLine := arrowFits && !(← afterBreak)
  if sameLine && word = "async" && (← atReference) then
    let _ ← bindingName
    expect "=>"
    let _ ← g.arrowBody mode true
    return .arrow
  else if sameLine && (← eat "=>") then
    let _ ← g.arrowBody mode false
    return .arrow
  else return .name word

/-! ## Primary expressions -/

/-- An asynchronous function, or something else that starts with the word `async`. -/
def asyncOperand (g : Grammar) (mode : Mode) (arrowFits : Bool) : Parser Expression := do
  let (next, newline) ← following
  if next.is "function" && !newline then
    bump
    bump
    g.functionNamed true false
    return .other
  else if arrowFits && next.is "(" then
    bump
    g.parentheses mode arrowFits true
  else g.nameOrArrow mode arrowFits "async"

/-- An operand that starts with a word; `parent` is the rule for what a class extends. -/
def wordOperand (g : Grammar) (parent : Parser Expression) (mode : Mode) (arrowFits : Bool) :
    String → Parser Expression
  | "null" => do bump; return .null
  | "true" => do bump; return .bool true
  | "false" => do bump; return .bool false
  | "this" => do bump; return .other
  | "function" => do
    bump
    g.functionNamed false false
    return .other
  | "class" => do
    bump
    g.classWith parent mode false
    return .other
  | "async" => g.asyncOperand mode arrowFits
  | word => if canRefer word then g.nameOrArrow mode arrowFits word else fail

/-- An operand that starts with a mark. -/
def markOperand (g : Grammar) (mode : Mode) (arrowFits : Bool) : String → Parser Expression
  | "[" => g.array mode
  | "\x7b" => g.object mode
  | "(" => g.parentheses mode arrowFits false
  | "`" => do g.template mode false; return .other
  | "/" => do pattern; return .other
  | "/=" => do pattern; return .other
  | "#" => do
    bump
    let _ ← anyWord
    return .other
  | _ => fail

/-- An operand without anything behind it. -/
def primary (g : Grammar) (parent : Parser Expression) (mode : Mode) (arrowFits : Bool) :
    Parser Expression := do
  match ← token with
  | .string value => do bump; return .string value
  | .number value => do bump; return .number value
  | .bigNumber => do bump; return .other
  | .word word => g.wordOperand parent mode arrowFits word
  | .mark mark => g.markOperand mode arrowFits mark
  | .stop => fail
  | .bad => fail

/-! ## Accesses and calls -/

/-- The arguments of a call. -/
def arguments (g : Grammar) (mode : Mode) : Parser Unit := do
  expect "("
  let _ ← separated ")" (g.entry mode)

/-- A property in brackets. -/
def index (g : Grammar) (mode : Mode) : Parser Unit := do
  expect "["
  let _ ← g.expression mode.full
  expect "]"

/-- The name of a property, which may be a private one. -/
def property : Parser Unit := do
  let _ ← eat "#"
  let _ ← anyWord

/-- What follows the mark that stops at a missing value. -/
def optionalAccess (g : Grammar) (mode : Mode) : Parser Expression := do
  bump
  if ← at? "[" then
    g.index mode
    return .place
  else if ← at? "(" then
    g.arguments mode
    return .place
  else
    property
    return .place

/-- One access or call behind an operand. -/
def access (g : Grammar) (mode : Mode) : Parser Expression := do
  if ← at? "[" then
    g.index mode
    return .place
  else if ← eat "." then
    property
    return .place
  else if ← at? "(" then
    g.arguments mode
    return .other
  else if ← at? "?." then g.optionalAccess mode
  else
    g.template mode true
    return .other

/-- The accesses behind an operand, and the calls if they belong to it. -/
def accesses (g : Grammar) (mode : Mode) (calls : Bool) (first : Expression) : Parser Expression :=
  whileHolds (atAny (["[", ".", "`"] ++ if calls then ["(", "?."] else []))
    (fun _ => g.access mode) first

/-! ## Operands with accesses -/

/-- The object behind `new` : its constructor, and the arguments if there are any. -/
def construction (g : Grammar) (mode : Mode) : Parser Expression := do
  expect "new"
  if ← eat "." then
    expect "target"
    g.accesses mode false .other
  else
    let _ ← g.constructed mode
    if ← at? "(" then
      g.arguments mode
      g.accesses mode false .other
    else return .other

/-- The parent of a class, of which a property or a call has to follow. -/
def parentAccess (g : Grammar) (mode : Mode) (calls : Bool) : Parser Expression := do
  expect "super"
  if ← atAny (["[", "."] ++ if calls then ["("] else []) then g.accesses mode calls .other else fail

/-- An import inside an expression : one that is made there, or what is known of the module. -/
def importOperand (g : Grammar) (mode : Mode) (calls : Bool) : Parser Expression := do
  expect "import"
  if ← eat "." then expect "meta" else g.arguments mode
  g.accesses mode calls .other

/-- An operand with accesses behind it, but without calls. -/
def constructedWith (g : Grammar) (parent : Parser Expression) (mode : Mode) (arrowFits : Bool) :
    Parser Expression := do
  if ← at? "new" then g.construction mode
  else if ← at? "super" then g.parentAccess mode false
  else if ← at? "import" then g.importOperand mode false
  else
    match ← g.primary parent mode arrowFits with
    | .arrow => return .arrow
    | first => g.accesses mode false first

/-- An operand with accesses and calls behind it. -/
def operandWith (g : Grammar) (parent : Parser Expression) (mode : Mode) (arrowFits : Bool) :
    Parser Expression := do
  if ← at? "super" then g.parentAccess mode true
  else if ← at? "import" then g.importOperand mode true
  else
    match ← g.constructedWith parent mode arrowFits with
    | .arrow => return .arrow
    | first => if ← atAny ["(", "?."] then g.accesses mode true first else return first

/-- What a class extends : an operand that is no function with an arrow. -/
def parentClass (g : Grammar) (mode : Mode) : Parser Expression := do
  let first ← g.constructed mode
  if ← atAny ["(", "?."] then g.accesses mode true first else return first

/-- What follows `new`. -/
def constructedRule (g : Grammar) (mode : Mode) : Parser Expression :=
  g.constructedWith (g.parentClass mode) mode false

/-- An operand. -/
def operand (g : Grammar) (mode : Mode) (arrowFits : Bool) : Parser Expression :=
  g.operandWith (g.parentClass mode) mode arrowFits

end SvgComponent.Script.Grammar
