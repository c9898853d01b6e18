import SvgComponent.OrderedMap

/-!
# Disks

A disk is a tree of folders, in which an entry is found by the names that lead to it from the root
(`Location`). Beside folders there are files, links, and what is neither, such as devices
and pipes. A file may have several names (hard links) : then the entries share a number, under which
the disk keeps what is in it.

A disk knows the working folder, and it has a host : the system around it, which may refuse what is
asked of it, or stop a file from being written to its end, for reasons of its own such as
permissions, quotas or a full medium. Nothing is assumed about hosts.

Two folders are never the same folder, and names are the same only if their bytes are.
-/

namespace SvgComponent

/-! ## Names and routes -/

-- Later than those of the libraries, so that it is the one that is found in every module.
instance decidableEqBytes : DecidableEq ByteArray := ByteArray.instDecidableEq

/-- The name of an entry : a text, or bytes that are no text. -/
inductive Name where
  | text (name : String)
  | raw (bytes : ByteArray) (no_text : ¬ bytes.IsValidUTF8)
  deriving DecidableEq

/-- How many bytes a name has. -/
def Name.size : Name → Nat
  | .text name => name.utf8ByteSize
  | .raw bytes _ => bytes.size

/-- The names that lead from the root to a place. -/
abbrev Location := List Name

/-- One step of a route. -/
inductive Step where
  /-- Stays where it is, which has to be a folder that can be gone through. -/
  | stay
  /-- Goes to the folder around. -/
  | up
  | name (name : Name)
  /-- Stays where it is, which has to be a folder. -/
  | folder
  deriving DecidableEq

/-- What a path or a link says : where to start and the steps to take. It may end in a slash, and
then leads to a folder. -/
structure Route where
  absolute : Bool
  names : List Step
  slashed : Bool
  deriving DecidableEq

/-- All steps of a route. -/
def Route.steps (route : Route) : List Step :=
  if route.slashed then route.names ++ [.folder] else route.names

/-- Where a route starts that is read at a location. -/
def Route.start (route : Route) (here : Location) : Location :=
  if route.absolute then [] else here

/-! ## Entries and faults -/

/-- What stands at a location. -/
inductive Entry where
  | folder
  /-- A file that has no other name. -/
  | file (content : ByteArray)
  /-- One of the names of a file that has several. -/
  | shared (number : Nat)
  | link (target : Route)
  /-- A device or the like, with what it supplies when it is read; what is written to it goes
  elsewhere. -/
  | special (supply : ByteArray)
  deriving DecidableEq

/-- Whether an entry is a file. -/
def Entry.isFile : Entry → Bool
  | file _ | shared _ => true
  | folder | link _ | special _ => false

/-- What is found in a file or the like, given what is in the files that have several names. -/
def Entry.content? (contents : Nat → ByteArray) : Entry → Option ByteArray
  | file content => some content
  | shared number => some (contents number)
  | special supply => some supply
  | folder | link _ => none

/-- Why an operation fails. -/
inductive DiskFault where
  | missing
  | taken
  | notFolder
  | isFolder
  | nameTooLong
  | tooManyLinks
  | nulCharacter
  | notText
  /-- What the host says. -/
  | refused (message : String)
  deriving DecidableEq, Repr

/-- The wording of a fault. -/
def DiskFault.message : DiskFault → String
  | missing => "No such file or directory (os error 2)"
  | taken => "File exists (os error 17)"
  | notFolder => "Not a directory (os error 20)"
  | isFolder => "Is a directory (os error 21)"
  | nameTooLong => "File name too long (os error 36)"
  | tooManyLinks => "Too many levels of symbolic links (os error 40)"
  | nulCharacter => "file name contained an unexpected NUL byte"
  | notText => "stream did not contain valid UTF-8"
  | refused message => message

/-! ## Disks and hosts -/

/-- The entries of a disk, and what is in the files that have several names. -/
structure Store where
  entries : OrderedMap Location Entry := .empty
  contents : Nat → ByteArray := fun _ => .empty

/-- What a host is asked for. -/
inductive Deed where
  /-- To go through a folder. -/
  | search
  | list
  | read
  | create
  | change
  deriving DecidableEq, Repr

/-- The system around a disk : what it refuses, and after how many bytes it stops the writing of a
file. -/
structure Host where
  refuse : Store → Deed → Location → Option DiskFault := fun _ _ _ => none
  stop : Store → Location → ByteArray → Option (Nat × DiskFault) := fun _ _ _ => none

/-- A store with a working folder and a host. -/
structure Disk extends Store where
  cwd : Location
  host : Host := {}

namespace Disk

/-! ## What stands where -/

/-- What stands at a location; the root is always there. -/
def at? (disk : Disk) (location : Location) : Option Entry :=
  if location = [] then some .folder else disk.entries.get? location

/-- What is found in the file or the like at a location. -/
def content? (disk : Disk) (location : Location) : Option ByteArray :=
  (disk.at? location).bind (Entry.content? disk.contents)

/-- Puts an entry at a location. -/
def put (disk : Disk) (location : Location) (entry : Entry) : Disk :=
  { disk with entries := disk.entries.insert location entry }

/-- Changes what is in the file at a location, also under its other names. -/
def refill (disk : Disk) (location : Location) (content : ByteArray) : Disk :=
  match disk.at? location with
  | some (.file _) => disk.put location (.file content)
  | some (.shared number) =>
    { disk with contents := fun n => if n = number then content else disk.contents n }
  | _ => disk

/-- Asks the host. -/
def ask (disk : Disk) (deed : Deed) (location : Location) : Except DiskFault Unit :=
  match disk.host.refuse disk.toStore deed location with
  | some fault => .error fault
  | none => .ok ()

/-- Puts an entry at a location, with the folders that lead there. -/
def place (disk : Disk) (location : Location) (entry : Entry) : Disk :=
  let folders := (List.range location.length).map (location.take ·)
  let around := folders.foldl
    (fun disk folder => if (disk.at? folder).isNone then disk.put folder .folder else disk) disk
  around.put location entry

end Disk

end SvgComponent
