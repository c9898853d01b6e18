import SvgComponent.Config.Fields
import SvgComponent.Disk.Basic
import SvgComponent.Script.Fault
import SvgComponent.Target.Basic

/-!
# Configurations

A configuration says where the pictures are, where the components go, and how they are made. Its
folders are relative to the one that the file is in (`Config.baseDir`). The fields of a file become
a configuration if both folders are given and the target and all stages exist; for the rest there
are defaults.
-/

namespace SvgComponent

/-- What is wrong with the text of a configuration. -/
inductive ConfigTextFault where
  | json (fault : Json.Fault) (place : Option Json.Place)
  | script (fault : Script.Fault)
  deriving DecidableEq, Repr

/-- The wording of a fault. -/
def ConfigTextFault.message : ConfigTextFault → String
  | json fault place => Json.displayFault fault place
  | script fault => fault.message

/-- Why there is no configuration. -/
inductive ConfigFault where
  | unreadable (path : String) (fault : DiskFault)
  | invalid (path : String) (fault : ConfigTextFault)
  | noInputDir
  | noOutputDir
  | unknownTarget (name : String)
  | badStage (fault : SpecFault)

/-- The wording of a fault. -/
def ConfigFault.message : ConfigFault → String
  | unreadable path fault => s!"failed to read {path}: {fault.message}"
  | invalid path fault => s!"invalid config {path}: {fault.message}"
  | noInputDir => "inputDir string should be specified"
  | noOutputDir => "outputDir string should be specified"
  | unknownTarget name => Target.unknownMessage name
  | badStage fault => fault.message

/-- Where the pictures are, where the components go, and how they are made. -/
structure Config where
  baseDir : String
  inputDir : String
  outputDir : String
  target : Target
  overrides : Jsx.Overrides
  stages : List StageSpec
  template : Option String
  extension : String

namespace Config

/-! ## Defaults -/

/-- The caller's own props go to the outermost elements. -/
def defaultOverrides : Jsx.Overrides :=
  OrderedMap.empty.insert "\x7b...props\x7d" none

/-- The stages that run unless told otherwise. -/
def defaultStages : List StageSpec :=
  [.named "preset-default", .named "removeXMLNS", .named "prefixIds"]

/-- The extension of component files unless told otherwise. -/
def defaultExtension : String := "js"

/-- An extension without dots in front. -/
def bareExtension (extension : String) : String :=
  String.ofList (extension.toList.dropWhile (· = '.'))

/-! ## Checking -/

/-- The target with a name. -/
def targetNamed (name : String) : Except ConfigFault Target :=
  match Target.ofName? name with
  | some target => .ok target
  | none => .error (.unknownTarget name)

/-- The configuration that fields give, in a folder. -/
def ofFields (fields : Fields) (baseDir : String) : Except ConfigFault Config := do
  let some inputDir := fields.inputDir | .error .noInputDir
  let some outputDir := fields.outputDir | .error .noOutputDir
  let target ← targetNamed (fields.target.getD Target.reactDom.name)
  let stages := fields.plugins.getD defaultStages
  match StageSpec.resolveAll stages with
  | .error fault => .error (.badStage fault)
  | .ok _ =>
    return {
      baseDir
      inputDir := Path.normalize inputDir
      outputDir := Path.normalize outputDir
      target
      overrides := fields.svgProps.getD defaultOverrides
      stages
      template := fields.template
      extension := (fields.extension.map bareExtension).getD defaultExtension }

/-- The configuration with another target. -/
def withTarget (config : Config) (name : String) : Except ConfigFault Config := do
  return { config with target := ← targetNamed name }

/-! ## Folders -/

/-- The folder of the pictures. -/
def inputPath (config : Config) : String :=
  Path.join config.baseDir config.inputDir

/-- The folder of the components. -/
def outputPath (config : Config) : String :=
  Path.join config.baseDir config.outputDir

end Config

end SvgComponent
