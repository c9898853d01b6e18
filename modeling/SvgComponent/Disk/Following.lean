import SvgComponent.Disk.Basic
import SvgComponent.Path

/-!
# Following paths

A path starts at the root or at the working folder and is followed step by step (`follow`). All that
is gone through must be a folder that is there and that the host lets one search. A link is followed
as well, also at the end : its own steps come in front of those that are left. At most `maxLinks`
links are followed.

A path along which a file may be created (`creating`) must not end in a slash.
-/

namespace SvgComponent.Disk

/-- The longest name in bytes. -/
def maxName : Nat := 255

/-- The longest path in bytes. -/
def maxPath : Nat := 4095

/-- The most links that are followed. -/
def maxLinks : Nat := 40

/-! ## Steps -/

/-- Whether there is a folder at a location. -/
def IsFolder (disk : Disk) (location : Location) : Prop :=
  disk.at? location = some .folder

instance (disk : Disk) (location : Location) : Decidable (disk.IsFolder location) :=
  inferInstanceAs (Decidable (disk.at? location = some .folder))

/-- Fails unless there is a folder. -/
def expectFolder (disk : Disk) (here : Location) : Except DiskFault Unit :=
  match disk.at? here with
  | none => .error .missing
  | some .folder => .ok ()
  | some _ => .error .notFolder

/-- Fails unless there is a folder that the host lets one search. -/
def enter (disk : Disk) (here : Location) : Except DiskFault Unit := do
  disk.expectFolder here
  disk.ask .search here

/-- Takes steps from a location up to the first link, from where `onLink` goes on. The result is
where they lead, whether or not something is there, and how many more links may be followed. -/
def advance (disk : Disk) (creating : Bool) (links : Nat)
    (onLink : Location → Route → List Step → Except DiskFault (Location × Nat)) :
    Location → List Step → Except DiskFault (Location × Nat)
  | here, [] => .ok (here, links)
  | here, .folder :: rest => do
    disk.expectFolder here
    advance disk creating links onLink here rest
  | here, .stay :: rest => do
    disk.enter here
    advance disk creating links onLink here rest
  | here, .up :: rest => do
    disk.enter here
    advance disk creating links onLink here.dropLast rest
  | here, .name name :: rest => do
    disk.enter here
    if creating ∧ rest = [.folder] then .error .isFolder
    else if name.size > maxName then .error .nameTooLong
    else
      match disk.at? (here ++ [name]) with
      | some (.link target) => onLink here target rest
      | _ => advance disk creating links onLink (here ++ [name]) rest

/-- Takes steps from a location. -/
def follow (disk : Disk) (creating : Bool) :
    Nat → Location → List Step → Except DiskFault (Location × Nat)
  | 0 => disk.advance creating 0 fun _ _ _ => .error .tooManyLinks
  | links + 1 =>
    disk.advance creating (links + 1) fun here target rest =>
      disk.follow creating links (target.start here) (target.steps ++ rest)

/-! ## Paths -/

/-- The step that a part of a path stands for. -/
def stepOf (part : List Char) : Step :=
  if part = ['.'] then .stay
  else if part = ['.', '.'] then .up
  else .name (.text (String.ofList part))

/-- The route that a path describes. -/
def route (path : String) : Except DiskFault Route :=
  if path.toList.contains '\x00' then .error .nulCharacter
  else if path = "" then .error .missing
  else if path.utf8ByteSize > maxPath then .error .nameTooLong
  else
    .ok {
      absolute := Path.isAbsolute path
      names := ((Path.splitSlashes path.toList).filter (· ≠ [])).map stepOf
      slashed := path.toList.getLast? = some '/' }

/-- The location that a path leads to, whether or not something is there. -/
def locate (disk : Disk) (creating : Bool) (path : String) : Except DiskFault Location := do
  let route ← route path
  let (location, _) ← disk.follow creating maxLinks (route.start disk.cwd) route.steps
  return location

/-- The absolute path of a location, if its names are texts. -/
def pathOf? (location : Location) : Option String := do
  let names ← location.mapM fun
    | .text name => some name
    | .raw .. => none
  return "/" ++ "/".intercalate names

end SvgComponent.Disk
