import SvgComponent.Disk.Following

/-!
# Making folders

`makeFolders` makes a folder and those around it that are missing. It tries the folder first and
turns to what is around it only if that is missing, so that no permissions are asked for that are
not needed. A folder that is there already does no harm.
-/

namespace SvgComponent.Disk

/-- Makes a folder in one that is there. A link at the end is not followed. -/
def makeFolder (disk : Disk) (start : Location) (names : List Step) : Except DiskFault Disk :=
  match names.getLast? with
  | none => .error .taken
  | some last => do
    let (folder, _) ← disk.follow false maxLinks start names.dropLast
    disk.enter folder
    match last with
    | .name name =>
      let location := folder ++ [name]
      if name.size > maxName then .error .nameTooLong
      else if (disk.at? location).isSome then .error .taken
      else
        disk.ask .create location
        return disk.put location .folder
    | _ => .error .taken

/-- Whether steps lead to a folder. -/
def hasFolder (disk : Disk) (start : Location) (names : List Step) : Bool :=
  match disk.follow false maxLinks start names with
  | .ok (location, _) => decide (disk.IsFolder location)
  | .error _ => false

/-- What an attempt to make a folder comes to : it does no harm if the folder is there. -/
def afterAttempt (disk : Disk) (start : Location) (names : List Step) :
    Except DiskFault Disk → Except DiskFault Unit × Disk
  | .ok disk => (.ok (), disk)
  | .error fault => (if disk.hasFolder start names then .ok () else .error fault, disk)

/-- Makes a folder, to which steps lead that are given the last first, and those around it that are
missing. -/
def makeFoldersUp (start : Location) : List Step → Disk → Except DiskFault Unit × Disk
  | [], disk => (.ok (), disk)
  | name :: around, disk =>
    let names := (name :: around).reverse
    match disk.makeFolder start names with
    | .error .missing =>
      match makeFoldersUp start around disk with
      | (.ok _, disk) => disk.afterAttempt start names (disk.makeFolder start names)
      | failure => failure
    | result => disk.afterAttempt start names result

/-- Makes a folder and those around it that are missing. -/
def makeFolders (disk : Disk) (path : String) : Except DiskFault Unit × Disk :=
  if path = "" then (.ok (), disk)
  else
    match route path with
    | .ok route => makeFoldersUp (route.start disk.cwd) route.names.reverse disk
    | .error fault => (.error fault, disk)

end SvgComponent.Disk
