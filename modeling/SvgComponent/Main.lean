import SvgComponent.Run

/-!
# The command line

Takes down what a run can look at, does what the arguments ask for, and carries out what has
changed. The report goes to the standard output; faults, and what is shown on the way, go to the
standard error.

Taken down are the configuration and the folders that it names, with all that is in them, and the
folders and links that lead there.
-/

namespace SvgComponent.Main

/-! ## Taking down -/

/-- The path of a location. -/
def pathOf (location : Location) : String :=
  (Disk.pathOf? location).getD "/"

/-- The location of an absolute path without dots. -/
def locationOf (path : String) : Location :=
  ((Path.splitSlashes path.toList).filter (· ≠ [])).map fun part => .text (String.ofList part)

/-- An entry of the file system. -/
def entryAt (location : Location) : IO.FS.DirEntry :=
  match location.getLast? with
  | some (.text name) => ⟨pathOf location.dropLast, name⟩
  | _ => ⟨"/", "."⟩

/-- The real location that a path leads to, if it leads somewhere. -/
def realLocation? (path : String) : IO (Option Location) := do
  try return some (locationOf (← IO.FS.realPath path).toString)
  catch _ => return none

/-- Puts the folders on a disk that lead to a location. -/
def withWay (disk : Disk) (location : Location) : Disk :=
  ((List.range location.length).map (location.take ·)).foldl
    (fun disk folder => if (disk.at? folder).isNone then disk.put folder .folder else disk) disk

/-- A link to a real location; if there is none, one that leads nowhere. -/
def linkTo (target : Option Location) : Entry :=
  .link ⟨true, (target.getD [.text ""]).map .name, target.isNone⟩

/-- Takes down what stands at a location that no link leads to, and says what is to be taken down
with it : what is in a folder, and what a link leads to. -/
def takeOne (disk : Disk) (location : Location) : IO (Disk × List Location) := do
  let entry := entryAt location
  let disk := withWay disk location
  match (← entry.path.symlinkMetadata).type with
  | .dir =>
    let inside ← entry.path.readDir
    return (disk.put location .folder,
      inside.toList.map fun entry => location ++ [.text entry.fileName])
  | .file => return (disk.put location (.file (← IO.FS.readBinFile entry.path)), [])
  | .other => return (disk.put location (.special .empty), [])
  | .symlink =>
    let target ← realLocation? (pathOf location)
    return (disk.put location (linkTo target), target.toList)

/-- Takes down what stands at locations, each once, with all that belongs to them. -/
partial def takeAll (disk : Disk) (taken : List Location) : List Location → IO Disk
  | [] => return disk
  | location :: rest => do
    if taken.contains location then takeAll disk taken rest
    else
      let (disk, more) ← takeOne disk location
      takeAll disk (location :: taken) (more ++ rest)

/-- The locations of the parts of a path that stand directly in a folder. -/
def partsOf (path : String) : IO (List Location) := do
  let parts := Path.splitSlashes path.toList
  (List.range parts.length).flatMapM fun count => do
    let around := Path.joinSlashes (parts.take count ++ [['.']])
    match Disk.stepOf (parts.getD count ['.']), ← realLocation? (String.ofList around) with
    | .name name, some folder => return [folder ++ [name]]
    | _, _ => return []

/-- Takes down the links on the way of a path and what it leads to. -/
def takePath (disk : Disk) (path : String) : IO Disk := do
  let mut disk := disk
  for location in ← partsOf path do
    if (← realLocation? (pathOf location)) ≠ some location then
      disk ← (do return (← takeOne disk location).1) <|> return disk
  takeAll disk [] (← realLocation? path).toList

/-- What a run can look at. -/
def takeDisk (arguments : Arguments) : IO Disk := do
  let cwd := locationOf (← IO.currentDir).toString
  let start := Disk.put (withWay { cwd } cwd) cwd .folder
  let paths := arguments.config.elim Config.standardNames ([·])
  let disk ← paths.foldlM takePath start
  match arguments.loadConfig disk with
  | .ok config => [config.inputPath, config.outputPath].foldlM takePath disk
  | .error _ => return disk

/-! ## Carrying out -/

/-- Carries out the change of an entry, unless there is none. -/
def carryOut (before : Disk) (entry : Location × Entry) : IO Unit := do
  unless before.at? entry.1 = some entry.2 do
    match entry.2 with
    | .folder => IO.FS.createDir (pathOf entry.1)
    | .file content => IO.FS.writeBinFile (pathOf entry.1) content
    | .shared _ | .link _ | .special _ => return

/-- Does what the arguments ask for. The code is 1 if a file could not be converted. -/
def run (arguments : Arguments) : IO UInt32 := do
  let start ← IO.monoNanosNow
  let before ← takeDisk arguments
  (arguments.shown before).forM IO.eprintln
  let (outcome, after) := arguments.run before
  after.entries.entries.forM (carryOut before)
  let elapsed := ((← IO.monoNanosNow) - start) / 1000
  match outcome with
  | .error fault =>
    IO.eprintln s!"Error: {fault.message}"
    return 1
  | .ok report =>
    IO.print ({ report with elapsed }.text arguments.output)
    return if report.hasFailures then 1 else 0

/-- What the words of a command line may be. -/
def usage : String :=
  "Usage: [CONFIG] [--output human|json] [--target TARGET] [--emit-jsx] [--help] [--version]"

/-- Says why there is no run. The code is 2 if the words are wrong. -/
def refuse : ArgumentFault → IO UInt32
  | .help => do IO.println usage; return 0
  | .version => do IO.println "0.4.0"; return 0
  | _ => do IO.eprintln usage; return 2

end SvgComponent.Main

/-- Runs the program. -/
def main (words : List String) : IO UInt32 :=
  match SvgComponent.Arguments.parse words with
  | .ok arguments => SvgComponent.Main.run arguments
  | .error fault => SvgComponent.Main.refuse fault
