/-!
# Paths

A path is a text whose parts are separated by slashes. Its components are what the parts
mean : an empty part means nothing, a `.` only at the start of a path that is not absolute, and `..`
is the parent. `normalize` folds `..` into the name in front of it; `join`, `parent`,
`fileName`, `stem` and `extension?` work on the text and keep what they do not touch.
-/

namespace SvgComponent.Path

/-- What a part of a path means. -/
inductive Component where
  | root
  | current
  | parent
  | name (text : String)
  deriving DecidableEq, Repr

/-- Splits a text at each slash. -/
def splitSlashes : List Char → List (List Char)
  | [] => [[]]
  | c :: cs =>
    match splitSlashes cs with
    | part :: rest => if c = '/' then [] :: part :: rest else (c :: part) :: rest
    | [] => [[c]]

/-- The component of a part that is neither the first nor empty. -/
def partComponent? (part : List Char) : Option Component :=
  if part = [] ∨ part = ['.'] then none
  else if part = ['.', '.'] then some .parent
  else some (.name (String.ofList part))

/-- Whether a path starts at the root. -/
def isAbsolute (path : String) : Bool :=
  path.toList.head? = some '/'

/-- The components of a path. -/
def components (path : String) : List Component :=
  match splitSlashes path.toList with
  | [] => []
  | first :: rest =>
    let start : List Component :=
      if isAbsolute path then [.root]
      else if first = ['.'] then [.current]
      else (partComponent? first).toList
    start ++ rest.filterMap partComponent?

/-- The last component, if it is a name. -/
def fileName (path : String) : Option String :=
  match (components path).getLast? with
  | some (.name text) => some text
  | _ => none

/-- The text of a path with a slash at its end. -/
def slashed (path : List Char) : List Char :=
  if path.getLast? = some '/' then path else path ++ ['/']

/-- A path behind a directory; an absolute path takes its place. -/
def join (directory path : String) : String :=
  if isAbsolute path ∨ directory.isEmpty then path
  else String.ofList (slashed directory.toList ++ path.toList)

/-! ## Parts of a file name -/

/-- Splits a name at its last dot, which must have something in front of it. -/
def splitExtension (name : String) : String × Option String :=
  if name = ".." then (name, none)
  else
    let reversed := name.toList.reverse
    let after := (reversed.takeWhile (· ≠ '.')).reverse
    match reversed.dropWhile (· ≠ '.') with
    | _ :: before =>
      if before = [] then (name, none)
      else (String.ofList before.reverse, some (String.ofList after))
    | [] => (name, none)

/-- The file name up to its last dot; the path itself if it names no file. -/
def stem (path : String) : String :=
  match fileName path with
  | some name => (splitExtension name).1
  | none => path

/-- What follows the last dot of the file name. -/
def extension? (path : String) : Option String :=
  (fileName path).bind fun name => (splitExtension name).2

/-! ## Directories -/

/-- Whether a part at the end of a path means nothing. -/
def isIdle (part : List Char) : Bool := part = [] || part = ['.']

/-- Joins parts with slashes. -/
def joinSlashes : List (List Char) → List Char
  | [] => []
  | [part] => part
  | part :: rest => part ++ '/' :: joinSlashes rest

/-- The path without its last component, and without parts that mean nothing in front of
that; empty if nothing is left. -/
def parent (path : String) : String :=
  match splitSlashes path.toList with
  | [] => ""
  | first :: rest =>
    match (rest.reverse.dropWhile isIdle) with
    | [] => if isAbsolute path then "/" else ""
    | _ :: before =>
      let kept := (before.dropWhile isIdle).reverse
      if isAbsolute path ∧ kept = [] then "/" else String.ofList (joinSlashes (first :: kept))

/-! ## Normal form -/

/-- Puts a component behind a path in normal form, whose components are given the last first. -/
def fold (done : List Component) : Component → List Component
  | .current => done
  | .parent =>
    match done with
    | .name _ :: rest => rest
    | _ => .parent :: done
  | .root => [.root]
  | .name text => .name text :: done

/-- The text of components behind a directory. -/
def render (path : String) : List Component → String
  | [] => path
  | .root :: rest => render "/" rest
  | .current :: rest => render (join path ".") rest
  | .parent :: rest => render (join path "..") rest
  | .name text :: rest => render (join path text) rest

/-- Drops `.` and folds `..` into the name in front of it. -/
def normalize (path : String) : String :=
  render "" ((components path).foldl fold []).reverse

end SvgComponent.Path
