import SvgComponent.Markup.Attribute
import SvgComponent.Markup.Token
import SvgComponent.Tree.Basic

/-!
# Reading a document

A text is cut into tokens with their places (`Lexed`), and the tokens are assembled into a
tree : `Builder` keeps the elements that are open, the innermost first, with the nodes read
so far. The first fault from the left is reported (`ParseError`), be it of the tokens, of an
attribute, of a reference or of the nesting.

* A byte order mark in front is dropped and not counted.
* Text is trimmed, and dropped if nothing is left, except inside the elements whose blanks
  matter (`textElements`).
* Comments, doctypes and instructions are trimmed; the version declaration is put together
  again from the parts it declares.
-/

namespace SvgComponent.Markup

open Text

/-! ## Tokens of a text -/

/-- The tokens of a text with the byte offset of each, up to the end or the first fault. -/
structure Lexed where
  tokens : List (Nat × Token)
  fault : Option (TokenFault × Nat)

/-- Cuts the text from byte `pos` on. -/
def lexFrom (pos : Nat) (cs : List Char) : Lexed :=
  if hne : cs = [] then ⟨[], none⟩
  else
    match h : Token.scan cs with
    | .error (fault, shift) => ⟨[], some (fault, pos + shift)⟩
    | .ok (token, rest) =>
      let lexed := lexFrom (pos + width token.lexeme) rest
      ⟨(pos, token) :: lexed.tokens, lexed.fault⟩
termination_by cs.length
decreasing_by exact Token.length_rest_lt hne h

/-- The mark that may stand in front of a text to give its byte order. -/
def byteOrderMark : Char := '\uFEFF'

/-- Drops one byte order mark in front. -/
def dropMark : List Char → List Char
  | c :: cs => if c = byteOrderMark then cs else c :: cs
  | [] => []

/-- Cuts a text into tokens. -/
def lex (cs : List Char) : Lexed :=
  lexFrom 0 (dropMark cs)

/-! ## Faults -/

/-- Why a text is no document. -/
inductive Fault where
  | badToken (fault : TokenFault)
  | strayClosing (name : String)
  | unclosed (name : String)
  | mismatchedClosing (name : String)
  | badAttribute (fault : AttributeFault)
  | badReference (fault : ReferenceFault)
  deriving DecidableEq, Repr

/-- The wording of a fault. -/
def Fault.message : Fault → String
  | badToken fault => fault.message
  | strayClosing name => s!"ill-formed document: close tag `</{name}>` does not match any open tag"
  | unclosed name => s!"unclosed tag: <{name}>"
  | mismatchedClosing name => s!"unexpected closing tag: </{name}>"
  | badAttribute fault => "invalid attribute: " ++ fault.message
  | badReference fault => "invalid escape: " ++ fault.message

/-- A fault and the byte it is reported at. -/
structure ParseError where
  fault : Fault
  offset : Nat
  deriving DecidableEq, Repr

namespace ParseError

/-- The line and column of an error in the text it was found in. -/
def position (error : ParseError) (source : List Char) : Position :=
  Position.ofOffset source error.offset

/-- An error with the name of the text and its place. -/
def display (error : ParseError) (path : Option String) (source : List Char) : String :=
  let name := path.getD "<input>"
  let place := error.position source
  s!"{name}:{place.line}:{place.column}: {error.fault.message}"

end ParseError

/-! ## Parts of a token -/

/-- The elements inside which all blanks matter. -/
def textElements : List String :=
  ["altGlyph", "textPath", "tref", "tspan", "text", "title", "desc", "pre"]

/-- The name in front of a tag or instruction. -/
def nameOf (content : List Char) : List Char :=
  content.takeWhile (!isGap ·)

/-- What follows the name. -/
def afterName (content : List Char) : List Char :=
  content.dropWhile (!isGap ·)

/-- The name of a closing tag : without the gap at its end, unless it is all gap. -/
def closingName (content : List Char) : List Char :=
  if content.all isGap then content
  else (content.reverse.dropWhile isGap).reverse

/-- Adds attributes in order, their references expanded. -/
def expandAttributes (attributes : Attributes) : List RawAttribute → Except Fault Attributes
  | [] => .ok attributes
  | a :: rest =>
    match Reference.expand a.value with
    | .ok value =>
      expandAttributes (attributes.insert (String.ofList a.key) (String.ofList value)) rest
    | .error fault => .error (.badReference fault)

/-- The tag with a content. -/
def readTag (content : List Char) : Except Fault Tag := do
  let name := nameOf content
  let (raw, fault) := RawAttribute.readAll true (width name) (afterName content)
  let attributes ← expandAttributes .empty raw
  match fault with
  | some fault => .error (.badAttribute fault)
  | none => return ⟨String.ofList name, attributes⟩

/-- Whether an instruction declares the version of the document. -/
def isDeclaration (content : List Char) : Bool :=
  match stripMark? ['x', 'm', 'l'] content with
  | some [] => true
  | some (c :: _) => isGap c
  | none => false

/-- The parts of a declaration, in a fixed order : the version if it comes first, then the encoding
and whether the document stands alone. -/
def declarationValue (content : List Char) : String :=
  let raw := (RawAttribute.readAll false 3 (content.drop 3)).1
  let parts :=
    [raw.head?.filter (·.key = "version".toList),
      raw.find? (·.key = "encoding".toList),
      raw.find? (·.key = "standalone".toList)].filterMap id
  " ".intercalate (parts.map fun a => s!"{String.ofList a.key}=\"{String.ofList a.value}\"")

/-- The node of an instruction. -/
def instructionNode (span : Span) (content : List Char) : Node :=
  if isDeclaration content then .instruction span "xml" (declarationValue content)
  else
    .instruction span (String.ofList (nameOf content)) (String.ofList (trim (afterName content)))

/-! ## Assembling the tree -/

/-- An element whose end has not come yet, with its children so far, the last first. -/
structure Frame where
  start : Nat
  tag : Tag
  children : List Node

/-- The open elements, the innermost first, and the finished nodes of the top level, the
last first. -/
structure Builder where
  opened : List Frame := []
  finished : List Node := []

namespace Builder

/-- Adds a finished node to the innermost open element. -/
def add (b : Builder) (node : Node) : Builder :=
  match b.opened with
  | frame :: outer =>
    { b with opened := { frame with children := node :: frame.children } :: outer }
  | [] => { b with finished := node :: b.finished }

/-- Whether an open element keeps all blanks. -/
def keepsBlanks (b : Builder) : Bool :=
  b.opened.any fun frame => textElements.contains frame.tag.name

/-- The value of a text, or none if it says nothing. -/
def textValue? (b : Builder) (raw : List Char) : Except Fault (Option (List Char)) :=
  match Reference.expand raw with
  | .error fault => .error (.badReference fault)
  | .ok value =>
    if b.keepsBlanks then .ok (some value)
    else if (trim value).isEmpty then .ok none
    else .ok (some (trim value))

/-- Ends the innermost open element. -/
def close (b : Builder) (name : String) (stop : Nat) : Except Fault Builder :=
  match b.opened with
  | [] => .error (.strayClosing name)
  | frame :: outer =>
    if frame.tag.name = name then
      .ok ({ b with opened := outer }.add
        (.element ⟨frame.start, stop⟩ frame.tag frame.children.reverse))
    else .error (.mismatchedClosing name)

/-- Takes a token in. -/
def step (b : Builder) (start : Nat) (token : Token) : Except Fault Builder :=
  let stop := start + width token.lexeme
  let span : Span := ⟨start, stop⟩
  match token with
  | .text raw => do
    match ← b.textValue? raw with
    | some value => return b.add (.text span (String.ofList value))
    | none => return b
  | .opening content => do
    let tag ← readTag content
    return { b with opened := ⟨start, tag, []⟩ :: b.opened }
  | .empty content => do
    let tag ← readTag content
    return b.add (.element span tag [])
  | .closing content => b.close (String.ofList (closingName content)) stop
  | .comment content => .ok (b.add (.comment span (String.ofList (trim content))))
  | .cdata content => .ok (b.add (.cdata span (String.ofList content)))
  | .doctype _ content => .ok (b.add (.doctype span (String.ofList (trim content))))
  | .instruction content => .ok (b.add (instructionNode span content))

/-- Takes tokens in, up to the first that does not fit. -/
def run (b : Builder) : List (Nat × Token) → Except ParseError Builder
  | [] => .ok b
  | (start, token) :: rest =>
    match b.step start token with
    | .ok b => b.run rest
    | .error fault => .error ⟨fault, start⟩

end Builder

/-- Reads a document. -/
def parse (source : List Char) : Except ParseError Document := do
  let lexed := lex source
  let b ← ({} : Builder).run lexed.tokens
  match lexed.fault with
  | some (fault, offset) => .error ⟨.badToken fault, offset⟩
  | none =>
    match b.opened with
    | frame :: _ => .error ⟨.unclosed frame.tag.name, width source⟩
    | [] => return b.finished.reverse

end SvgComponent.Markup
