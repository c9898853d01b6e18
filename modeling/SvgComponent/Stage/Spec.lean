import SvgComponent.Json.Reader
import SvgComponent.Stage.Builtin

/-!
# Naming stages

A configuration names a stage by a string, or by an object with a name and parameters
(`StageSpec`). A name stands for one stage, except for the preset, which stands for several;
`resolve` finds them or says why it cannot (`SpecFault`).
-/

namespace SvgComponent

/-- A stage as a configuration names it. -/
inductive StageSpec where
  | named (name : String)
  | configured (name : String) (params : Option Json)

/-- Why a specification names no stage. -/
inductive SpecFault where
  | unknownStage (name : String)
  | prefixNotString (found : Json)
  | tableMissing
  | replacementNotString (name : String)

/-- The wording of a fault. -/
def SpecFault.message : SpecFault → String
  | unknownStage name => s!"Unknown builtin plugin \"{name}\" specified."
  | prefixNotString found => s!"\"prefix\" must be a string, got {String.ofList found.compact}"
  | tableMissing => "params must be an object mapping old tag names to new ones"
  | replacementNotString name => s!"replacement for \"{name}\" must be a string"

namespace StageSpec

/-- The name of the stage. -/
def name : StageSpec → String
  | named name => name
  | configured name _ => name

/-- The parameters that are given. -/
def params? : StageSpec → Option Json
  | named _ => none
  | configured _ params => params

/-- How often a key stands in a list of members. -/
def occurrences (key : String) (members : List (String × Json)) : Nat :=
  (members.filter (·.1 = key)).length

/-- The specification that a value is : a string, or an object that has a name and neither
two names nor two lists of parameters. -/
def ofJson? : Json → Option StageSpec
  | .string name => some (named name)
  | .object members =>
    match members.lookup "name" with
    | some (.string name) =>
      if occurrences "name" members ≤ 1 ∧ occurrences "params" members ≤ 1 then
        let params := (members.lookup "params").bind fun
          | .null => none
          | value => some value.merged
        some (configured name params)
      else none
    | _ => none
  | _ => none

/-- The prefix that parameters give. -/
def idBase (params : Option Json) : Except SpecFault (Option String) :=
  match params.bind (Json.get? "prefix") with
  | none => .ok none
  | some (.string base) => .ok (some base)
  | some other => .error (.prefixNotString other)

/-- The entries of a rename table. -/
def tableEntries (table : OrderedMap String String) :
    List (String × Json) → Except SpecFault (OrderedMap String String)
  | [] => .ok table
  | (name, .string new) :: rest => tableEntries (table.insert name new) rest
  | (name, _) :: _ => .error (.replacementNotString name)

/-- The rename table that parameters give. -/
def renameTable (params : Option Json) : Except SpecFault (OrderedMap String String) :=
  match params with
  | some (.object members) => tableEntries .empty members
  | _ => .error .tableMissing

/-- The stages that a specification stands for. -/
def resolve (spec : StageSpec) : Except SpecFault (List Builtin) :=
  match spec.name with
  | "preset-default" => .ok Builtin.presetDefault
  | "removeDoctype" => .ok [.removeDoctype]
  | "removeXMLProcInst" => .ok [.removeDeclaration]
  | "removeComments" => .ok [.removeComments]
  | "removeMetadata" => .ok [.removeMetadata]
  | "removeTitle" => .ok [.removeTitle]
  | "removeDesc" => .ok [.removeDescription]
  | "removeXMLNS" => .ok [.removeNamespace]
  | "removeUnusedNS" => .ok [.removeUnusedNamespaces]
  | "prefixIds" => do return [.prefixIds (← idBase spec.params?)]
  | "renameElements" => do return [.renameElements (← renameTable spec.params?)]
  | name => .error (.unknownStage name)

/-- The stages that specifications stand for, in order. -/
def resolveAll : List StageSpec → Except SpecFault (List Builtin)
  | [] => .ok []
  | spec :: rest => do
    let stages ← spec.resolve
    return stages ++ (← resolveAll rest)

end StageSpec

end SvgComponent
