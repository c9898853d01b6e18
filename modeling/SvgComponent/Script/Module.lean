import SvgComponent.Script.Grammar.Statement

/-!
# Modules

A module is a list of statements, imports and exports. What matters of it is what it exports under
the name of the configuration or by default.
-/

namespace SvgComponent.Script

namespace Grammar

open Script.Parser

/-! ## Imports -/

/-- The name of something that is imported or exported : a word or a string. -/
def externalName : Parser Unit := do
  match ← token with
  | .string _ => bump
  | _ => do let _ ← anyWord

/-- The module that something comes from. -/
def source : Parser Unit := do
  match ← token with
  | .string _ => bump
  | _ => fail

/-- The end of an import or export from another module. -/
def fromSource : Parser Unit := do
  expect "from"
  source
  expectEnd

/-- One name of a list of names, and the one it gets. -/
def renamed (name : Parser Unit) : Parser Unit := do
  externalName
  if ← eat "as" then name

/-- The names that are imported, in braces or all under one. -/
def importedNames : Parser Unit := do
  if ← eat "*" then
    expect "as"
    let _ ← bindingName
  else if ← eat "\x7b" then
    let _ ← separated "\x7d" (renamed (do let _ ← bindingName))

/-- An import. -/
def importItem : Parser Unit := do
  expect "import"
  match ← token with
  | .string _ => do
    bump
    expectEnd
  | _ => do
    if ← atReference then
      let _ ← bindingName
      if ← eat "," then importedNames
    else importedNames
    fromSource

/-! ## Exports -/

/-- The name under which the configuration is exported. -/
def configName : String := "config"

/-- The value of the first variable of that name that has one. -/
def configOf (declared : List Variable) : Option Expression :=
  declared.findSome? fun v => if v.name = some configName then v.value else none

/-- What is exported by default; a function or class is not the configuration. -/
def defaultExport (g : Grammar) (mode : Mode) : Parser (Option Expression) := do
  if ← at? "class" then
    g.classDeclaration mode false
    return none
  else if ← atAsyncFunction then
    bump
    g.functionDeclaration true false
    return none
  else if ← at? "function" then
    g.functionDeclaration false false
    return none
  else
    let value ← g.assignment mode
    expectEnd
    return some value

/-- All that another module exports, under one name or under the names it has. -/
def exportAll : Parser Unit := do
  if ← eat "as" then externalName
  fromSource

/-- Names that are exported, from here or from another module. -/
def exportNames : Parser Unit := do
  expect "\x7b"
  let _ ← separated "\x7d" (renamed externalName)
  if ← at? "from" then fromSource
  else
    let _ ← eatEnd

/-- An export. Gives the configuration if it is the one. -/
def exportItem (g : Grammar) (mode : Mode) : Parser (Option Expression) := do
  expect "export"
  if ← eat "*" then
    exportAll
    return none
  else if ← eat "default" then g.defaultExport mode
  else if ← at? "class" then
    g.classDeclaration mode true
    return none
  else if ← atAsyncFunction then
    bump
    g.functionDeclaration true true
    return none
  else if ← at? "function" then
    g.functionDeclaration false true
    return none
  else if ← atVariables then return configOf (← g.variableStatement mode)
  else
    exportNames
    return none

/-! ## Items -/

/-- A statement, import or export. Gives the configuration if it exports that. -/
def item (g : Grammar) (mode : Mode) : Parser (Option Expression) := do
  if ← at? "export" then g.exportItem mode
  else
    let (next, _) ← following
    if (← at? "import") && !next.is "(" && !next.is "." then importItem else g.statement mode
    return none

/-- A module. Gives the configuration that it exports first. -/
def items (g : Grammar) : Parser (Option Expression) :=
  whileHolds (do return !(← atStop)) (fun found => do
    let new ← g.item {}
    return found <|> new) none

/-! ## The grammar -/

/-- The rules, which come back to each other at most `depth` times on the way to a token. -/
def ofDepth : (depth : Nat) → Grammar
  | 0 =>
    { assignment := fun _ => fail, unary := fun _ _ => fail, constructed := fun _ => fail,
      binding := fun _ => fail, statement := fun _ => fail }
  | n + 1 =>
    { assignment := fun mode => (ofDepth n).assignmentRule mode
      unary := fun mode arrowFits => (ofDepth n).unaryRule mode arrowFits
      constructed := fun mode => (ofDepth n).constructedRule mode
      binding := fun mode => (ofDepth n).bindingRule mode
      statement := fun mode => (ofDepth n).statementRule mode }

end Grammar

/-- The configuration that a text exports, if it is a module. Between two rules that come back
there is at most one without a token, which bounds the depth. -/
def exportOf? (text : List Char) : Option (Option Expression) :=
  match (Grammar.ofDepth (2 * text.length + 4)).items (Cursor.start text) with
  | .ok found _ => some found
  | .error _ _ => none

/-- The value of the configuration that a text exports. -/
def exportedConfig (text : List Char) : Except Fault Json :=
  match exportOf? text with
  | none => .error .grammar
  | some none => .error .noExport
  | some (some found) => found.toJson

end SvgComponent.Script
