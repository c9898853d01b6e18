import SvgComponent.Component.Naming
import SvgComponent.Component.Template
import SvgComponent.Config.Load
import SvgComponent.Conversion.Basic
import SvgComponent.Disk.Folders
import SvgComponent.Report

/-!
# Compiling a folder

Every file directly inside the input folder is compiled by itself (`compileFile`) : it is read,
converted, and written to the output folder as a component. A file that fails is reported, and the
others are compiled all the same. The output folder is made if there is at least one file. What the
files are converted to can be shown on the way (`shown`).
-/

namespace SvgComponent

/-- Why nothing was compiled. -/
inductive CompileFault where
  | unreadableInput (path : String) (fault : DiskFault)
  | noOutput (path : String) (fault : DiskFault)

/-- The wording of a fault. -/
def CompileFault.message : CompileFault → String
  | unreadableInput path fault =>
    s!"failed to read input directory {path}: IO error for operation on {path}: {fault.message}"
  | noOutput path fault => s!"failed to create output directory {path}: {fault.message}"

namespace Config

/-! ## One file -/

/-- The source file of a picture, relative to the folder of the configuration. -/
def sourceFile (config : Config) (name : String) : String :=
  Path.join config.inputDir name

/-- The stages that run on every picture. -/
def pictureStages (config : Config) : Except String (List Stage) :=
  match StageSpec.resolveAll config.stages with
  | .ok stages => .ok (stages.map Builtin.toStage)
  | .error fault => .error fault.message

/-- The expression that a picture is converted to, with the components that it uses. -/
def converted (config : Config) (name svg : String) : Except String Jsx.Rendered := do
  let request : ConversionRequest := {
    file := config.sourceFile name
    svg
    target := config.target.name
    overrides := some config.overrides
    stages := ← config.pictureStages }
  match request.convert .pipeline with
  | .error fault => .error fault.message
  | .ok rendered => .ok rendered

/-- The text of the component around an expression. -/
def componentAround (config : Config) (name : String) (rendered : Jsx.Rendered) : String :=
  let content : Component.Content := {
    target := config.target
    sourceFile := config.sourceFile name
    targetFile := Path.join config.outputDir (Component.outputFile name config.extension)
    componentName := Component.componentName name
    jsx := rendered.text
    components := rendered.components }
  content.text config.template

/-- The text of the component made from a picture. -/
def componentText (config : Config) (name svg : String) : Except String String :=
  (config.converted name svg).map (config.componentAround name)

/-- Reads a picture and converts it. -/
def readPicture (config : Config) (name : String) (disk : Disk) : Except String Jsx.Rendered :=
  match disk.read (Path.join config.baseDir (config.sourceFile name)) with
  | .error fault => .error s!"failed to read file: {fault.message}"
  | .ok svg => config.converted name svg

/-- Compiles one file. -/
def compileFile (config : Config) (name : String) (disk : Disk) : Except Failed Compiled × Disk :=
  let fail (message : String) : Except Failed Compiled := .error ⟨config.sourceFile name, message⟩
  match config.readPicture name disk with
  | .error message => (fail message, disk)
  | .ok rendered =>
    let file := Component.outputFile name config.extension
    let path := Path.join config.outputPath file
    match disk.write path (config.componentAround name rendered) with
    | (.error fault, disk) =>
      (fail s!"failed to write {Path.join config.outputDir file}: {fault.message}", disk)
    | (.ok _, disk) => (.ok ⟨file, Component.componentName name⟩, disk)

/-! ## All files -/

/-- Compiles files one after the other. -/
def compileFiles (config : Config) : List String → Disk → List (Except Failed Compiled) × Disk
  | [], disk => ([], disk)
  | name :: rest, disk =>
    let (result, disk) := config.compileFile name disk
    let (results, disk) := compileFiles config rest disk
    (result :: results, disk)

/-- What is shown of files while they are compiled : what each is converted to, unless it fails. -/
def shownOf (config : Config) : List String → Disk → List String
  | [], _ => []
  | name :: rest, disk =>
    let later := shownOf config rest (config.compileFile name disk).2
    match config.readPicture name disk with
    | .ok rendered => s!"=== JSX for {config.sourceFile name} ===\n{rendered.text}" :: later
    | .error _ => later

/-- The component that was made, if one was. -/
def compiled? : Except Failed Compiled → Option Compiled
  | .ok compiled => some compiled
  | .error _ => none

/-- The failure, if there was one. -/
def failed? : Except Failed Compiled → Option Failed
  | .ok _ => none
  | .error failed => some failed

/-- The report on files, each part of it in order of file names. -/
def reportOf (results : List (Except Failed Compiled)) : Report where
  targets := (results.filterMap compiled?).mergeSort fun a b => decide (a.file ≤ b.file)
  failures := (results.filterMap failed?).mergeSort fun a b => decide (a.file ≤ b.file)

/-- Makes the output folder if there are files to compile. -/
def prepareOutput (config : Config) (names : List String) (disk : Disk) :
    Except DiskFault Unit × Disk :=
  if names = [] then (.ok (), disk) else disk.makeFolders config.outputPath

/-- Compiles the input folder. -/
def compile (config : Config) (disk : Disk) : Except CompileFault Report × Disk :=
  match disk.files config.inputPath with
  | .error fault => (.error (.unreadableInput config.inputPath fault), disk)
  | .ok names =>
    match config.prepareOutput names disk with
    | (.error fault, disk) => (.error (.noOutput config.outputPath fault), disk)
    | (.ok _, disk) =>
      let (results, disk) := config.compileFiles names disk
      (.ok (reportOf results), disk)

/-- What is shown while the input folder is compiled. -/
def shown (config : Config) (disk : Disk) : List String :=
  match disk.files config.inputPath with
  | .error _ => []
  | .ok names =>
    match config.prepareOutput names disk with
    | (.error _, _) => []
    | (.ok _, disk) => config.shownOf names disk

end Config

end SvgComponent
