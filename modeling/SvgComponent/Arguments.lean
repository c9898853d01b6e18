import SvgComponent.Report
import SvgComponent.Text.Cut

/-!
# Command line arguments

A command line is a list of words. Two options take a value, which is joined to them by an equals
sign or is the next word; one is a mere flag; one word without hyphens in front names the
configuration. Each may be given once. All words behind `--` count as words without
hyphens.

An option that takes the next word waits for it (`Line.waiting`), and its value is looked
at when the next option or plain word comes, or at the end. So an unknown option is reported
before a bad value in front of it, and a bad value before a call for help behind it.
-/

namespace SvgComponent

/-- What a command line asks for. -/
structure Arguments where
  config : Option String := none
  output : ReportFormat := .human
  target : Option String := none
  emitJsx : Bool := false
  deriving DecidableEq, Repr

/-- Why a command line asks for no run. -/
inductive ArgumentFault where
  | unknownArgument
  | invalidValue
  | repeated
  | unneededValue
  | help
  | version
  deriving DecidableEq, Repr

namespace Arguments

/-- The options that take a value. -/
inductive Setting where
  | output
  | target
  deriving DecidableEq, Repr

/-- What has been read of a command line. -/
structure Line where
  config : Option String := none
  output : Option ReportFormat := none
  target : Option String := none
  emitJsx : Bool := false
  waiting : Option (Setting × Option String) := none
  plainOnly : Bool := false

/-- The shapes of a word. -/
inductive Word where
  | rest
  | long (name : String) (value : Option String)
  | short (letter : Char)
  | plain

/-- Splits at the first equals sign. -/
def splitValue (cs : List Char) : String × Option String :=
  match Text.cutAt? ['='] cs with
  | some (name, value) => (String.ofList name, some (String.ofList value))
  | none => (String.ofList cs, none)

/-- The shape of a word. -/
def Word.ofText (text : String) : Word :=
  match text.toList with
  | ['-', '-'] => rest
  | '-' :: '-' :: cs => long (splitValue cs).1 (splitValue cs).2
  | '-' :: c :: _ => short c
  | _ => plain

/-- The report format with a name. -/
def formatOf? : String → Option ReportFormat
  | "human" => some .human
  | "json" => some .json
  | _ => none

namespace Line

/-- Sets an option. -/
def set (line : Line) : Setting → Option String → Except ArgumentFault Line
  | _, none => .error .invalidValue
  | .output, some value =>
    if line.output.isSome then .error .repeated
    else
      match formatOf? value with
      | some format => .ok { line with output := some format }
      | none => .error .invalidValue
  | .target, some value =>
    if line.target.isSome then .error .repeated
    else .ok { line with target := some value }

/-- Sets the option that waits, if there is one. -/
def settle (line : Line) : Except ArgumentFault Line :=
  match line.waiting with
  | none => .ok line
  | some (setting, value) => { line with waiting := none }.set setting value

/-- Takes in an option, whose value is not the next word if it is given here. -/
def option (line : Line) (setting : Setting) (value : Option String) :
    Except ArgumentFault Line := do
  let line ← line.settle
  match value with
  | some value => line.set setting (some value)
  | none => .ok { line with waiting := some (setting, none) }

/-- Takes in a flag. -/
def flag (line : Line) : Except ArgumentFault Line := do
  let line ← line.settle
  if line.emitJsx then .error .repeated else .ok { line with emitJsx := true }

/-- Ends with a fault that lets a bad value in front go first. -/
def stop (line : Line) (fault : ArgumentFault) : Except ArgumentFault Line := do
  let _ ← line.settle
  .error fault

/-- Takes in an option by its long name. -/
def long (line : Line) (name : String) (value : Option String) : Except ArgumentFault Line :=
  match name, value with
  | "output", value => line.option .output value
  | "target", value => line.option .target value
  | "emit-jsx", none => line.flag
  | "help", none => line.stop .help
  | "version", none => line.stop .version
  | name, _ =>
    .error (if name ∈ ["emit-jsx", "help", "version"] then .unneededValue else .unknownArgument)

/-- Takes in an option by its letter. -/
def short (line : Line) : Char → Except ArgumentFault Line
  | 'h' => line.stop .help
  | 'V' => line.stop .version
  | _ => .error .unknownArgument

/-- Takes in the name of the configuration. -/
def plain (line : Line) (word : String) : Except ArgumentFault Line :=
  match line.config with
  | some _ => .error .unknownArgument
  | none => do
    let line ← line.settle
    .ok { line with config := some word }

/-- Takes in a word. -/
def step (line : Line) (word : String) : Except ArgumentFault Line :=
  if line.plainOnly then line.plain word
  else
    match Word.ofText word, line.waiting with
    | .rest, _ => .ok { line with plainOnly := true }
    | .long name value, _ => line.long name value
    | .short letter, _ => line.short letter
    | .plain, some (setting, none) => .ok { line with waiting := some (setting, some word) }
    | .plain, _ => line.plain word

end Line

/-- What a list of words asks for. -/
def parse (words : List String) : Except ArgumentFault Arguments := do
  let line ← words.foldlM Line.step {}
  let line ← line.settle
  return {
    config := line.config
    output := line.output.getD .human
    target := line.target
    emitJsx := line.emitJsx }

end Arguments

end SvgComponent
