import SvgComponent.Arguments
import SvgComponent.Compile

/-!
# Running from a command line

A run loads the configuration that the arguments name, or the one it finds in the working folder,
gives it the target of the arguments, and compiles. If the arguments say so, what the pictures are
converted to is shown on the way.
-/

namespace SvgComponent

/-- Why a run ends without a report. -/
inductive RunFault where
  | config (fault : ConfigFault)
  | noConfig (folder : String)
  | namelessFolder
  | compile (fault : CompileFault)

/-- The wording of a fault. -/
def RunFault.message : RunFault → String
  | config fault => fault.message
  | noConfig folder =>
    let names := ", ".intercalate Config.standardNames
    s!"no config file found in {folder} (looked for {names})"
  | namelessFolder => "current directory is not valid UTF-8"
  | compile fault => fault.message

namespace Arguments

/-- The path of the configuration. -/
def configPath (arguments : Arguments) (disk : Disk) : Except RunFault String :=
  match arguments.config, Disk.pathOf? disk.cwd with
  | some path, _ => .ok path
  | none, none => .error .namelessFolder
  | none, some cwd =>
    match Config.find? disk cwd with
    | some path => .ok path
    | none => .error (.noConfig cwd)

/-- The configuration, with the target of the arguments. -/
def loadConfig (arguments : Arguments) (disk : Disk) : Except RunFault Config := do
  let path ← arguments.configPath disk
  let loaded := do
    let config ← Config.load disk path
    match arguments.target with
    | some target => config.withTarget target
    | none => return config
  match loaded with
  | .ok config => return config
  | .error fault => .error (.config fault)

/-- Does what a command line asks for. -/
def run (arguments : Arguments) (disk : Disk) : Except RunFault Report × Disk :=
  match arguments.loadConfig disk with
  | .error fault => (.error fault, disk)
  | .ok config =>
    match config.compile disk with
    | (.ok report, disk) => (.ok report, disk)
    | (.error fault, disk) => (.error (.compile fault), disk)

/-- What is shown on the way. -/
def shown (arguments : Arguments) (disk : Disk) : List String :=
  match arguments.loadConfig disk with
  | .error _ => []
  | .ok config => if arguments.emitJsx then config.shown disk else []

end Arguments

end SvgComponent
