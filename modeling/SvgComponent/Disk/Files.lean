import SvgComponent.Disk.Following

/-!
# Reading and writing files

* `read`, `files` : what is in a file, and which files are in a folder;
* `write` : writes a text to a file.

Writing has two steps. The file is opened, which makes it if nothing is there and empties it
otherwise (`openFile`), and then it is filled (`fill`). The host may stop the filling, so
that a file is left behind that is cut off.
-/

namespace SvgComponent.Disk

/-! ## Looking -/

/-- Whether a path leads to a file. -/
def isFile (disk : Disk) (path : String) : Bool :=
  match disk.locate false path with
  | .ok location => (disk.at? location).any Entry.isFile
  | .error _ => false

/-- The bytes that reading supplies. -/
def readBytes (disk : Disk) (path : String) : Except DiskFault ByteArray := do
  let location ← disk.locate false path
  if (disk.at? location).isNone then .error .missing
  else
    disk.ask .read location
    match disk.content? location with
    | some content => return content
    | none => .error .isFolder

/-- The text of a file. -/
def read (disk : Disk) (path : String) : Except DiskFault String := do
  match String.fromUTF8? (← disk.readBytes path) with
  | some text => return text
  | none => .error .notText

/-- The name under which an entry stands directly in a folder, if it is a file there and the name is
a text. -/
def fileIn? (folder : Location) (entry : Location × Entry) : Option String :=
  match entry.1.getLast? with
  | some (.text name) =>
    if entry.1.dropLast = folder ∧ entry.2.isFile = true then some name else none
  | _ => none

/-- The files directly in a folder, by name; in what is no folder there are none. -/
def files (disk : Disk) (path : String) : Except DiskFault (List String) := do
  let folder ← disk.locate false path
  match disk.at? folder with
  | none => .error .missing
  | some .folder =>
    disk.ask .list folder
    return (disk.entries.entries.filterMap (fileIn? folder)).mergeSort fun a b => decide (a ≤ b)
  | some _ => return []

/-! ## Writing -/

/-- Opens a file for writing. It is empty then, and is known by its location from there on. -/
def openFile (disk : Disk) (path : String) : Except DiskFault (Location × Disk) := do
  let location ← disk.locate true path
  match disk.at? location with
  | none =>
    disk.ask .create location
    return (location, disk.put location (.file .empty))
  | some .folder => .error .isFolder
  | some _ =>
    disk.ask .change location
    return (location, disk.refill location .empty)

/-- Bytes written over those of a file, from its start. -/
def overwritten (old new : ByteArray) : ByteArray :=
  new ++ old.extract new.size old.size

/-- How much the host lets through of what is written to a file, and why not all of it. -/
def passed (disk : Disk) (location : Location) (bytes : ByteArray) :
    ByteArray × Except DiskFault Unit :=
  match disk.host.stop disk.toStore location bytes with
  | some (size, fault) => (bytes.extract 0 size, .error fault)
  | none => (bytes, .ok ())

/-- Writes to a file that is open. -/
def fill (disk : Disk) (location : Location) (bytes : ByteArray) : Except DiskFault Unit × Disk :=
  let (written, result) := disk.passed location bytes
  match disk.content? location with
  | some old => (result, disk.refill location (overwritten old written))
  | none => (result, disk)

/-- Writes a text to a file. -/
def write (disk : Disk) (path text : String) : Except DiskFault Unit × Disk :=
  match disk.openFile path with
  | .error fault => (.error fault, disk)
  | .ok (location, disk) => disk.fill location text.toUTF8

end SvgComponent.Disk
