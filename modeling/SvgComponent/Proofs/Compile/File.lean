import SvgComponent.Compile
import SvgComponent.Proofs.Disk.Folders
import SvgComponent.Proofs.Path.Stem

/-!
# What becomes of one file

A file is compiled in three steps : it is read and converted (`readComponent`), the file of its
component is opened, and that is filled. One after the other they make up `compileFile`
(`compileFile_eq`).

`outcome` tells what is reported of a file and what it writes if nothing gets in its way.
-/

namespace SvgComponent.Config

open Disk

variable (config : Config)

/-! ## Paths -/

/-- The path under which a file is read. -/
def inputFile (name : String) : String :=
  Path.join config.baseDir (config.sourceFile name)

/-- The path that the component of a file is written to. -/
def componentFile (name : String) : String :=
  Path.join config.outputPath (Component.outputFile name config.extension)

/-- A file is read under the path of the folder that it is listed in. -/
theorem inputFile_eq {name : String} (h : Path.IsName name) :
    config.inputFile name = Path.join config.inputPath name :=
  Path.join_join config.baseDir config.inputDir h

/-- The components of files of different stems go to different paths, and only those. -/
theorem componentFile_inj {a b : String} (ha : Path.IsName a) (hb : Path.IsName b) :
    config.componentFile a = config.componentFile b ↔ Path.stem a = Path.stem b := by
  rw [componentFile, componentFile, ← @Component.outputFile_inj a b config.extension]
  exact ⟨Path.join_injective _ (Component.not_isAbsolute_outputFile ha _)
    (Component.not_isAbsolute_outputFile hb _), fun h => by rw [h]⟩

/-! ## Three steps -/

/-- What a file is reported as if it is compiled. -/
def compiledAs (name : String) : Compiled :=
  ⟨Component.outputFile name config.extension, Component.componentName name⟩

/-- The failure of a file that cannot be read or converted. -/
def unmade (name message : String) : Failed :=
  ⟨config.sourceFile name, message⟩

/-- The failure of a file whose component cannot be written. -/
def unwritten (name : String) (fault : DiskFault) : Failed :=
  let file := Component.outputFile name config.extension
  ⟨config.sourceFile name, s!"failed to write {Path.join config.outputDir file}: {fault.message}"⟩

/-- What is made of a file, given what reading it came to. -/
def made (name : String) : Except DiskFault String → Except String String
  | .error fault => .error s!"failed to read file: {fault.message}"
  | .ok svg => config.componentText name svg

/-- Reads a picture and makes its component. -/
def readComponent (name : String) (disk : Disk) : Except String String :=
  config.made name (disk.read (config.inputFile name))

/-- What is reported of a file, given what writing its component came to. -/
def reportedAs (name : String) : Except DiskFault Unit → Except Failed Compiled
  | .error fault => .error (config.unwritten name fault)
  | .ok _ => .ok (config.compiledAs name)

/-- Writes what has been made of a file. -/
def finish (name : String) (disk : Disk) : Except String String → Except Failed Compiled × Disk
  | .error message => (.error (config.unmade name message), disk)
  | .ok text =>
    let (result, disk) := disk.write (config.componentFile name) text
    (config.reportedAs name result, disk)

theorem readComponent_eq (name : String) (disk : Disk) :
    config.readComponent name disk =
      (config.readPicture name disk).map (config.componentAround name) := by
  unfold readComponent readPicture inputFile
  generalize disk.read (Path.join config.baseDir (config.sourceFile name)) = content
  cases content <;> rfl

/-- Compiling a file is its three steps, one after the other. -/
theorem compileFile_eq (name : String) (disk : Disk) :
    config.compileFile name disk = config.finish name disk (config.readComponent name disk) := by
  rw [readComponent_eq]
  unfold compileFile
  generalize config.readPicture name disk = picture
  cases picture with
  | error message => rfl
  | ok rendered =>
    unfold finish componentFile
    simp only [Except.map]
    generalize disk.write _ _ = written
    obtain ⟨result, after⟩ := written
    cases result <;> rfl

variable {config} {name text message : String} {disk : Disk}

/-- A component that is made comes from what was read. -/
theorem read_of_readComponent (h : config.readComponent name disk = .ok text) :
    ∃ svg, disk.read (config.inputFile name) = .ok svg ∧
      config.componentText name svg = .ok text := by
  rw [readComponent] at h
  generalize disk.read (config.inputFile name) = content at h ⊢
  cases content with
  | error fault => cases h
  | ok svg => exact ⟨svg, rfl, h⟩

theorem finish_of_openFile_eq_error {fault : DiskFault}
    (h : disk.openFile (config.componentFile name) = .error fault) :
    config.finish name disk (.ok text) = (config.reportedAs name (.error fault), disk) := by
  rw [finish, write, h]

theorem finish_of_openFile_eq_ok {place : Location} {after : Disk}
    (h : disk.openFile (config.componentFile name) = .ok (place, after)) :
    config.finish name disk (.ok text) =
      (config.reportedAs name (after.fill place text.toUTF8).1,
        (after.fill place text.toUTF8).2) := by
  rw [finish, write, h]

/-! ## What becomes of a file by itself -/

/-- What is written where. -/
abbrev Trace := Option (Location × ByteArray)

/-- What is reported of a file if nothing gets in its way, and what it writes where. -/
def outcome (config : Config) (disk : Disk) (name : String) : Except Failed Compiled × Trace :=
  match config.readComponent name disk with
  | .error message => (.error (config.unmade name message), none)
  | .ok text =>
    match disk.openFile (config.componentFile name) with
    | .error fault => (config.reportedAs name (.error fault), none)
    | .ok (place, _) =>
      let (bytes, result) := disk.passed place text.toUTF8
      (config.reportedAs name result, some (place, bytes))

theorem outcome_of_readComponent_eq_error (h : config.readComponent name disk = .error message) :
    config.outcome disk name = (.error (config.unmade name message), none) := by
  unfold outcome
  generalize config.readComponent name disk = component at h ⊢
  subst h
  rfl

theorem outcome_of_openFile_eq_error (h : config.readComponent name disk = .ok text)
    {fault : DiskFault}
    (ho : (disk.openFile (config.componentFile name)).map Prod.fst = .error fault) :
    config.outcome disk name = (config.reportedAs name (.error fault), none) := by
  unfold outcome
  generalize config.readComponent name disk = component at h ⊢
  generalize disk.openFile (config.componentFile name) = opened at ho ⊢
  subst h
  cases opened with
  | error other =>
    cases ho
    rfl
  | ok found => cases ho

theorem outcome_of_openFile_eq_ok (h : config.readComponent name disk = .ok text)
    {place : Location}
    (ho : (disk.openFile (config.componentFile name)).map Prod.fst = .ok place) :
    config.outcome disk name = (config.reportedAs name (disk.passed place text.toUTF8).2,
      some (place, (disk.passed place text.toUTF8).1)) := by
  unfold outcome
  generalize config.readComponent name disk = component at h ⊢
  generalize disk.openFile (config.componentFile name) = opened at ho ⊢
  subst h
  cases opened with
  | error fault => cases ho
  | ok found =>
    cases ho
    rfl

-- What an outcome is has been said; that it is a pair by computation is of no use from here on.
attribute [irreducible] outcome

/-- What can be reported of a file and be written by it : a component, which then has been written,
or a failure under its path, which says that something could not be written if it has begun to. -/
def IsResult (config : Config) (name : String) : Except Failed Compiled → Trace → Prop
  | .ok compiled, trace => compiled = config.compiledAs name ∧ trace.isSome = true
  | .error failed, trace => failed.file = config.sourceFile name ∧
      (trace.isSome = true → ∃ fault, failed = config.unwritten name fault)

/-- What is reported of a file that has been opened fits what it has written. -/
theorem isResult_reportedAs (name : String) (result : Except DiskFault Unit)
    (trace : Location × ByteArray) :
    config.IsResult name (config.reportedAs name result) (some trace) := by
  cases result with
  | error fault => exact ⟨rfl, fun _ => ⟨fault, rfl⟩⟩
  | ok _ => exact ⟨rfl, rfl⟩

theorem fill_fst (disk : Disk) (place : Location) (bytes : ByteArray) :
    (disk.fill place bytes).1 = (disk.passed place bytes).2 := by
  rw [fill]
  dsimp only
  cases disk.content? place <;> rfl

/-- All of a component that is reported as compiled has been let through. -/
theorem passed_of_eq_ok {bytes : ByteArray} {place : Location}
    (h : (disk.passed place bytes).2 = .ok ()) : (disk.passed place bytes).1 = bytes := by
  rw [passed] at h ⊢
  split at h
  · cases h
  · rfl

end SvgComponent.Config
