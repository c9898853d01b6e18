import SvgComponent.Path
import SvgComponent.Stage.Basic
import SvgComponent.Text.Replace
import SvgComponent.Tree.Visit

/-!
# Built-in stages

The stages that a configuration can name. None of them fails.

* Four remove nodes : doctypes, the version declaration, comments that are not legal ones
  (`isLegal`), and elements of one name with all that is in them.
* Two remove namespace declarations from `svg` elements : the default one, and those of
  prefixes that no name in the document uses.
* `prefixIds` puts the same text in front of every id and of every local reference.
* `renameElements` renames by a table.
-/

namespace SvgComponent

/-- A built-in stage with its parameters. -/
inductive Builtin where
  | removeDoctype
  | removeDeclaration
  | removeComments
  | removeMetadata
  | removeTitle
  | removeDescription
  | removeNamespace
  | removeUnusedNamespaces
  | prefixIds (base : Option String)
  | renameElements (table : OrderedMap String String)

namespace Builtin

/-- The name of a stage in a configuration. -/
def name : Builtin → String
  | removeDoctype => "removeDoctype"
  | removeDeclaration => "removeXMLProcInst"
  | removeComments => "removeComments"
  | removeMetadata => "removeMetadata"
  | removeTitle => "removeTitle"
  | removeDescription => "removeDesc"
  | removeNamespace => "removeXMLNS"
  | removeUnusedNamespaces => "removeUnusedNS"
  | prefixIds _ => "prefixIds"
  | renameElements _ => "renameElements"

/-! ## Removing nodes -/

/-- Whether the value of a comment marks it as a legal one. -/
def isLegal (value : String) : Bool :=
  value.toList.head? = some '!'

def isDoctype : Node → Bool
  | .doctype .. => true
  | _ => false

def isDeclaration : Node → Bool
  | .instruction _ name _ => name = "xml"
  | _ => false

def isPlainComment : Node → Bool
  | .comment _ value => !isLegal value
  | _ => false

/-- Removes the elements of one name with all that is in them. -/
def removeElements (name : String) (document : Document) : Document :=
  Node.mapTags (fun tag => if tag.name = name then none else some tag) document

/-! ## Namespaces -/

/-- The part of a name in front of its first colon. -/
def namespaceOf? (name : String) : Option String :=
  let cs := name.toList
  if cs.contains ':' then some (String.ofList (cs.takeWhile (· ≠ ':'))) else none

/-- The prefix that an attribute declares. -/
def declaredPrefix? (name : String) : Option String :=
  (Text.stripMark? "xmlns:".toList name.toList).map String.ofList

/-- The prefixes that the names of a tag use. -/
def usedPrefixes (tag : Tag) : List String :=
  ((tag.name :: tag.attributes.keys).filterMap namespaceOf?).filter (· ≠ "xmlns")

/-- Keeps the attributes of `svg` elements that pass a test. -/
def filterRootAttributes (keep : String → Bool) (document : Document) : Document :=
  Node.mapTags
    (fun tag =>
      some (if tag.name = "svg" then
        { tag with attributes := tag.attributes.filter fun name _ => keep name } else tag))
    document

/-- Drops the declarations of prefixes that are not used anywhere. -/
def dropUnusedNamespaces (document : Document) : Document :=
  let used := (Node.tagsAll document).flatMap usedPrefixes
  filterRootAttributes
    (fun name =>
      match declaredPrefix? name with
      | some p => used.contains p
      | none => true)
    document

/-! ## Ids -/

/-- The text in front of ids : the given one, else the file name with dots and blanks made
underscores, else a fixed one. -/
def idPrefix (base : Option String) (path : Option String) : String :=
  let text :=
    match base, path.bind Path.fileName with
    | some base, _ => base
    | none, some name => name.map fun c => if c = '.' || c = ' ' then '_' else c
    | none, none => "prefix"
  text ++ "__"

/-- What opens a local reference inside a value. -/
def urlMark : List Char := "url(#".toList

/-- The value of an attribute with `front` put in front of the id it declares or refers to. -/
def prefixValue (front name value : String) : String :=
  if name = "id" then front ++ value
  else if (name = "href" ∨ name = "xlink:href") ∧ value.toList.head? = some '#' then
    "#" ++ front ++ String.ofList value.toList.tail
  else String.ofList (Text.replaceAll urlMark (urlMark ++ front.toList) value.toList)

/-- Puts a text in front of all ids and local references. -/
def prefixAllIds (front : String) (document : Document) : Document :=
  Node.mapTags
    (fun tag => some { tag with attributes := tag.attributes.mapValues (prefixValue front) })
    document

/-! ## Applying -/

/-- Renames the elements that a table has. -/
def renameAll (table : OrderedMap String String) (document : Document) : Document :=
  Node.mapTags (fun tag => some { tag with name := (table.get? tag.name).getD tag.name }) document

/-- What a stage does. -/
def apply (stage : Builtin) (context : Context) (document : Document) : Document :=
  match stage with
  | removeDoctype => Node.retainAll (!isDoctype ·) document
  | removeDeclaration => Node.retainAll (!isDeclaration ·) document
  | removeComments => Node.retainAll (!isPlainComment ·) document
  | removeMetadata => removeElements "metadata" document
  | removeTitle => removeElements "title" document
  | removeDescription => removeElements "desc" document
  | removeNamespace => filterRootAttributes (· ≠ "xmlns") document
  | removeUnusedNamespaces => dropUnusedNamespaces document
  | prefixIds base => prefixAllIds (idPrefix base context.path) document
  | renameElements table => renameAll table document

/-- A built-in stage as a stage. -/
def toStage (stage : Builtin) : Stage :=
  ⟨stage.name, fun context document => .ok (stage.apply context document)⟩

/-- The stages that remove what no reader of the picture needs. -/
def presetDefault : List Builtin :=
  [removeDoctype, removeDeclaration, removeComments, removeMetadata, removeUnusedNamespaces]

end Builtin

end SvgComponent
