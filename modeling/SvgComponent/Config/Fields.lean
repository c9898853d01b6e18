import SvgComponent.Jsx.Props
import SvgComponent.Json.Reader
import SvgComponent.Stage.Spec

/-!
# Fields of a configuration

A configuration is an object with some of seven fields, or a list of all seven in order. A
field that is `null` counts as not given; fields of other names are passed over.

It is read from a text (`Fields.reader`), so that faults have places, or taken from a value
(`Fields.ofJson`).
-/

namespace SvgComponent.Config

open Json

/-- The fields. -/
inductive Field where
  | inputDir
  | outputDir
  | target
  | svgProps
  | plugins
  | template
  | extension
  deriving DecidableEq, Repr

namespace Field

/-- All fields, in the order in which a list gives them. -/
def all : List Field := [inputDir, outputDir, target, svgProps, plugins, template, extension]

/-- The name of a field. -/
def name : Field → String
  | inputDir => "inputDir"
  | outputDir => "outputDir"
  | target => "target"
  | svgProps => "svgProps"
  | plugins => "plugins"
  | template => "template"
  | extension => "extension"

/-- The field with a name. -/
def ofName? (name : String) : Option Field :=
  all.find? (·.name = name)

end Field

/-- What a configuration gives. -/
structure Fields where
  inputDir : Option String := none
  outputDir : Option String := none
  target : Option String := none
  svgProps : Option Jsx.Overrides := none
  plugins : Option (List StageSpec) := none
  template : Option String := none
  extension : Option String := none

namespace Fields

/-- What a configuration is called in a fault. -/
def typeName : String := "struct RawConfig"

/-- What a list of all fields is called in a fault. -/
def listName : String := s!"{typeName} with {Field.all.length} elements"

/-- The fault of a value that names no stage. -/
def badSpec : Fault := .noVariant "PluginSpec"

/-! ## From a text -/

/-- Reads the overrides inside an object at a depth. -/
def readOverrides (depth : Nat) : Reader Jsx.Overrides := do
  match ← Reader.peek with
  | none => Reader.failAt 1 .endInValue
  | some '{' =>
    Reader.readObject depth (Reader.foldMembers (fun overrides name => do
      Reader.colon
      return overrides.insert name (← Reader.optional Reader.string)) OrderedMap.empty)
  | some _ => Reader.unexpected "a map"

/-- Reads a value that names a stage. -/
def readSpec (depth : Nat) : Reader StageSpec := do
  match StageSpec.ofJson? (← Reader.value depth) with
  | some spec => return spec
  | none => Reader.fail badSpec

/-- Reads the stages of a list at a depth. -/
def readSpecs (depth : Nat) : Reader (List StageSpec) := do
  match ← Reader.peek with
  | none => Reader.failAt 1 .endInValue
  | some '[' => do
    let specs ← Reader.readList depth
      (Reader.foldItems (fun specs => do return (← readSpec (depth - 1)) :: specs) [])
    return specs.reverse
  | some _ => Reader.unexpected "a sequence"

/-- Reads the value of a field, whose containers may nest `depth` deep. -/
def readField (depth : Nat) (fields : Fields) : Field → Reader Fields
  | .inputDir => do return { fields with inputDir := ← Reader.optional Reader.string }
  | .outputDir => do return { fields with outputDir := ← Reader.optional Reader.string }
  | .target => do return { fields with target := ← Reader.optional Reader.string }
  | .svgProps => do return { fields with svgProps := ← Reader.optional (readOverrides depth) }
  | .plugins => do return { fields with plugins := ← Reader.optional (readSpecs depth) }
  | .template => do return { fields with template := ← Reader.optional Reader.string }
  | .extension => do return { fields with extension := ← Reader.optional Reader.string }

/-- Reads a member of an object, given the fields that are there already. -/
def readMember (depth : Nat) (read : List Field × Fields) (name : String) :
    Reader (List Field × Fields) := do
  match Field.ofName? name with
  | none =>
    Reader.colon
    Reader.skipValue
    return read
  | some field =>
    if read.1.contains field then Reader.fail (.repeatedField name)
    else
      Reader.colon
      return (field :: read.1, ← readField depth read.2 field)

/-- Reads fields as the entries of a list, `position` of them being there already. -/
def readItems (depth : Nat) (position : Nat) (fields : Fields) : List Field → Reader Fields
  | [] => return fields
  | field :: rest => do
    if ← Reader.hasItem (position = 0) then
      readItems depth (position + 1) (← readField depth fields field) rest
    else Reader.fail (.wrongLength position listName)

/-- Reads a configuration. -/
def reader : Reader Fields := Reader.located do
  let depth := Reader.maxDepth
  match ← Reader.peek with
  | none => Reader.failAt 1 .endInValue
  | some '[' => Reader.readList depth (readItems (depth - 1) 0 {} Field.all)
  | some '{' => do
    let read ← Reader.readObject depth (Reader.foldMembers (readMember (depth - 1)) ([], {}))
    return read.2
  | some _ => Reader.unexpected typeName

/-! ## From a value -/

/-- A string, or none for `null`. -/
def stringOf : Json → Except Fault (Option String)
  | .null => .ok none
  | .string s => .ok (some s)
  | other => .error (.wrongType (Reader.describe other) "a string")

/-- The overrides that a value gives. -/
def overridesOf : Json → Except Fault (Option Jsx.Overrides)
  | .null => .ok none
  | .object members => do
    let overrides ← members.foldlM
      (fun (overrides : Jsx.Overrides) p => do return overrides.insert p.1 (← stringOf p.2)) .empty
    return some overrides
  | other => .error (.wrongType (Reader.describe other) "a map")

/-- The stage that a value names. -/
def specOf (value : Json) : Except Fault StageSpec :=
  match StageSpec.ofJson? value with
  | some spec => .ok spec
  | none => .error badSpec

/-- The stages that a value names. -/
def specsOf : Json → Except Fault (Option (List StageSpec))
  | .null => .ok none
  | .array items => do return some (← items.mapM specOf)
  | other => .error (.wrongType (Reader.describe other) "a sequence")

/-- Sets a field to a value. -/
def setField (fields : Fields) (value : Json) : Field → Except Fault Fields
  | .inputDir => do return { fields with inputDir := ← stringOf value }
  | .outputDir => do return { fields with outputDir := ← stringOf value }
  | .target => do return { fields with target := ← stringOf value }
  | .svgProps => do return { fields with svgProps := ← overridesOf value }
  | .plugins => do return { fields with plugins := ← specsOf value }
  | .template => do return { fields with template := ← stringOf value }
  | .extension => do return { fields with extension := ← stringOf value }

/-- Sets fields to the members of an object, whose keys are distinct. -/
def ofMembers (fields : Fields) : List (String × Json) → Except Fault Fields
  | [] => .ok fields
  | (name, value) :: rest =>
    match Field.ofName? name with
    | none => ofMembers fields rest
    | some field => do ofMembers (← fields.setField value field) rest

/-- Sets fields to the items of a list of `length` items. -/
def ofItems (length : Nat) (fields : Fields) : List Field → List Json → Except Fault Fields
  | [], [] => .ok fields
  | [], _ :: _ => .error (.wrongLength length "fewer elements in array")
  | _ :: _, [] => .error (.wrongLength length listName)
  | field :: more, value :: rest => do ofItems length (← fields.setField value field) more rest

/-- The configuration that a value gives. -/
def ofJson : Json → Except Fault Fields
  | .array items => ofItems items.length {} Field.all items
  | .object members => ofMembers {} members
  | other => .error (.wrongType (Reader.describe other) typeName)

end Fields

end SvgComponent.Config
