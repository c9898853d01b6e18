import SvgComponent.Json.Unquote
import SvgComponent.Jsx.Render
import SvgComponent.Proofs.Text.Marks

/-!
# What a JSX text says

A JSX text stands for a list of contents : elements with their attributes and children,
strings, and comments (`Content`). `canonical` gives the contents a document has to say;
`decode` reads them off a text without knowing the document. Reading goes in two steps :

* `readPieces?` cuts the text into tags, strings in braces and comments in braces. A quoted
  value is read character by character and has no escapes; a string in braces is read as a
  JSON string, and an object in braces as its pairs of such strings;
* `assemble` nests the pieces : each closing tag ends the innermost open element, whose name
  it has to repeat.

The contents of a whole text (`contents?`) may be a fragment, which is an element without a
name; it is left out again by `unwrap`.
-/

namespace SvgComponent.Jsx

open Text

/-- What an attribute says : a string, or the pairs of an object. -/
inductive Value where
  | string (text : String)
  | object (pairs : List (String × String))
  deriving DecidableEq, Repr

/-- What a part of a JSX text says. -/
inductive Content where
  | element (name : String) (attributes : List (String × Value)) (children : List Content)
  | string (text : String)
  | comment (text : String)
  deriving Repr

/-! ## Canonical form -/

/-- The value of an attribute : a style is the object of its declarations. -/
def valueOf (name value : String) : Value :=
  if name = "style" then .object (Style.object value.toList).entries else .string value

/-- The attributes of an element, in order. -/
def valuesOf (attributes : Attributes) : List (String × Value) :=
  attributes.entries.map fun p => (p.1, valueOf p.1 p.2)

mutual

/-- What a node has to say; doctypes and instructions say nothing. -/
def canonical : Node → List Content
  | .element _ tag children =>
    [.element tag.name (valuesOf tag.attributes) (canonicalAll children)]
  | .text _ value => [.string value]
  | .cdata _ value => [.string value]
  | .comment _ value => [.comment (String.ofList (breakUp value.toList))]
  | .doctype .. => []
  | .instruction .. => []

/-- What the nodes of a list have to say. -/
def canonicalAll : List Node → List Content
  | [] => []
  | node :: rest => canonical node ++ canonicalAll rest

end

/-! ## Pieces -/

/-- A tag, a string or a comment of a JSX text. -/
inductive Piece where
  | opening (name : String) (attributes : List (String × Value))
  | empty (name : String) (attributes : List (String × Value))
  | closing (name : String)
  | string (text : String)
  | comment (text : String)
  deriving DecidableEq, Repr

/-- A character that a name can hold. -/
def isNameChar (c : Char) : Bool :=
  !isBlank c && !isDelimiter c

/-- Reads a name, which may be empty. -/
def readName (cs : List Char) : String × List Char :=
  (String.ofList (cs.takeWhile isNameChar), cs.dropWhile isNameChar)

/-- Reads a JSON string in quotes. -/
def readString? : List Char → Option (String × List Char)
  | '"' :: cs =>
    match Json.unquote cs with
    | .ok (text, _, rest) => some (String.ofList text, rest)
    | .error _ => none
  | _ => none

/-- Reads a string and the mark behind it. -/
def readStringAnd? (mark cs : List Char) : Option (String × List Char) := do
  let (text, rest) ← readString? cs
  return (text, ← stripMark? mark rest)

/-- Reads the pairs of an object up to the braces that close it. -/
def readPairs? (cs : List Char) : Option (List (String × String) × List Char) := do
  let (key, rest) ← readStringAnd? [':'] cs
  let (value, rest) ← readString? rest
  match rest with
  | ',' :: rest =>
    if rest.length < cs.length then
      let (pairs, rest) ← readPairs? rest
      return ((key, value) :: pairs, rest)
    else none
  | _ => return ([(key, value)], ← stripMark? ['}', '}'] rest)
termination_by cs.length

/-- Reads the value of an attribute. -/
def readValue? : List Char → Option (Value × List Char)
  | '"' :: cs => (cutAt? ['"'] cs).map fun p => (.string (String.ofList p.1), p.2)
  | '{' :: '{' :: '}' :: '}' :: rest => some (.object [], rest)
  | '{' :: '{' :: cs => (readPairs? cs).map fun p => (.object p.1, p.2)
  | '{' :: cs => (readStringAnd? ['}'] cs).map fun p => (.string p.1, p.2)
  | _ => none

/-- Reads a name and its value. -/
def readAttribute? (cs : List Char) : Option ((String × Value) × List Char) := do
  let (name, rest) := readName cs
  let (value, rest) ← readValue? (← stripMark? ['='] rest)
  return ((name, value), rest)

/-- Whether an attribute starts here : a blank and a name. -/
def startsAttribute : List Char → Bool
  | ' ' :: c :: _ => isNameChar c
  | _ => false

/-- Reads attributes as long as one starts. -/
def readAttributes? (cs : List Char) : Option (List (String × Value) × List Char) :=
  if startsAttribute cs then do
    let (entry, rest) ← readAttribute? cs.tail
    if rest.length < cs.length then
      let (attributes, rest) ← readAttributes? rest
      return (entry :: attributes, rest)
    else none
  else some ([], cs)
termination_by cs.length

/-- Reads a tag behind its `<`. -/
def readTag? (cs : List Char) : Option (Piece × List Char) := do
  let (name, rest) := readName cs
  let (attributes, rest) ← readAttributes? rest
  match rest with
  | '>' :: rest => return (.opening name attributes, rest)
  | _ => return (.empty name attributes, ← stripMark? [' ', '/', '>'] rest)

/-- Reads a closing tag behind its `</`. -/
def readClosing? (cs : List Char) : Option (Piece × List Char) := do
  let (name, rest) := readName cs
  return (.closing name, ← stripMark? ['>'] rest)

/-- Reads a comment behind `{/*` : its text has a blank at each side. -/
def readComment? (cs : List Char) : Option (Piece × List Char) := do
  let (content, rest) ← cutAt? scriptCommentEnd (← stripMark? [' '] cs)
  let rest ← stripMark? ['}'] rest
  if content.getLast? = some ' ' then return (.comment (String.ofList content.dropLast), rest)
  else none

/-- Reads the piece in front of a text. -/
def readPiece? : List Char → Option (Piece × List Char)
  | '<' :: '/' :: cs => readClosing? cs
  | '<' :: cs => readTag? cs
  | '{' :: '/' :: '*' :: cs => readComment? cs
  | '{' :: cs => (readStringAnd? ['}'] cs).map fun p => (.string p.1, p.2)
  | _ => none

/-- Cuts a text into pieces. -/
def readPieces? (cs : List Char) : Option (List Piece) :=
  if cs = [] then some []
  else do
    let (piece, rest) ← readPiece? cs
    if rest.length < cs.length then
      let pieces ← readPieces? rest
      return piece :: pieces
    else none
termination_by cs.length

/-! ## Nesting -/

/-- An element that is open, with the contents in front of it, the last first. -/
structure OpenElement where
  name : String
  attributes : List (String × Value)
  before : List Content

/-- Nests pieces; `opened` are the open elements, the innermost first, and `done` the contents
of the innermost one so far, the last first. -/
def assemble (opened : List OpenElement) (done : List Content) : List Piece → Option (List Content)
  | [] => if opened.isEmpty then some done.reverse else none
  | .opening name attributes :: pieces => assemble (⟨name, attributes, done⟩ :: opened) [] pieces
  | .empty name attributes :: pieces =>
    assemble opened (.element name attributes [] :: done) pieces
  | .closing name :: pieces =>
    match opened with
    | element :: outer =>
      if element.name = name then
        assemble outer (.element name element.attributes done.reverse :: element.before) pieces
      else none
    | [] => none
  | .string text :: pieces => assemble opened (.string text :: done) pieces
  | .comment text :: pieces => assemble opened (.comment text :: done) pieces

/-- The contents of a JSX text, one behind the other. -/
def contents? (text : String) : Option (List Content) := do
  let pieces ← readPieces? text.toList
  assemble [] [] pieces

/-- Leaves out a fragment. -/
def unwrap : List Content → List Content
  | [.element name attributes children] =>
    if name = "" then children else [.element name attributes children]
  | contents => contents

/-- What a JSX text says. -/
def decode (text : String) : Option (List Content) := do
  let pieces ← readPieces? text.toList
  let contents ← assemble [] [] pieces
  return unwrap contents

end SvgComponent.Jsx
