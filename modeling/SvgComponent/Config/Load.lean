import SvgComponent.Config.Basic
import SvgComponent.Config.Comments
import SvgComponent.Disk.Files
import SvgComponent.Script.Module

/-!
# Loading a configuration

A configuration is read from a file, as a script if its extension says so, else as JSON with
comments. If none is named, the first file of a standard name in the working folder is taken.
-/

namespace SvgComponent.Config

/-- The names that are looked for, in order. -/
def standardNames : List String :=
  ["svgo-jsx.config.json", "svgo-jsx.config.js", "svgo-jsx.config.mjs"]

/-- The extensions of scripts. -/
def scriptExtensions : List String := ["js", "mjs"]

/-- The file to take in a folder if none is named. -/
def find? (disk : Disk) (folder : String) : Option String :=
  (standardNames.map (Path.join folder)).find? disk.isFile

/-- Whether a path names a script. -/
def isScript (path : String) : Bool :=
  match Path.extension? path with
  | some extension => scriptExtensions.contains extension
  | none => false

/-- The fields that a JSON text gives. -/
def fieldsOfJson (text : List Char) : Except ConfigTextFault Fields :=
  match Json.read Fields.reader (stripComments text) with
  | .ok fields => .ok fields
  | .error (fault, place) => .error (.json fault place)

/-- The fields that a script gives. -/
def fieldsOfScript (text : List Char) : Except ConfigTextFault Fields :=
  match Script.exportedConfig text with
  | .error fault => .error (.script fault)
  | .ok value =>
    match Fields.ofJson value with
    | .ok fields => .ok fields
    | .error fault => .error (.json fault none)

/-- The folder that a path lies in. -/
def folderOf (path : String) : String :=
  match Path.parent path with
  | "" => "."
  | parent => parent

/-- The configuration in a text from a path. -/
def ofText (path : String) (text : List Char) : Except ConfigFault Config :=
  match (if isScript path then fieldsOfScript text else fieldsOfJson text) with
  | .ok fields => ofFields fields (folderOf path)
  | .error fault => .error (.invalid path fault)

/-- The configuration in a file. -/
def load (disk : Disk) (path : String) : Except ConfigFault Config :=
  match disk.read path with
  | .ok text => ofText path text.toList
  | .error fault => .error (.unreadable path fault)

end SvgComponent.Config
