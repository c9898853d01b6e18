/-!
# Comments in configurations

A JSON configuration may hold comments to the end of a line and comments between marks. They are
taken out before the text is read; the line break behind a comment of the first kind stays, and
nothing stays of one of the second.
-/

namespace SvgComponent.Config

/-- Where in a text a character stands. -/
inductive Mode where
  | code
  | string
  | lineComment
  | blockComment
  deriving DecidableEq, Repr

/-- Takes the comments out of what is left of a text. -/
def stripFrom : Mode → List Char → List Char
  | _, [] => []
  | .code, '/' :: '/' :: cs => stripFrom .lineComment cs
  | .code, '/' :: '*' :: cs => stripFrom .blockComment cs
  | .code, '"' :: cs => '"' :: stripFrom .string cs
  | .code, c :: cs => c :: stripFrom .code cs
  | .string, '\\' :: c :: cs => '\\' :: c :: stripFrom .string cs
  | .string, '"' :: cs => '"' :: stripFrom .code cs
  | .string, c :: cs => c :: stripFrom .string cs
  | .lineComment, '\n' :: cs => '\n' :: stripFrom .code cs
  | .lineComment, _ :: cs => stripFrom .lineComment cs
  | .blockComment, '*' :: '/' :: cs => stripFrom .code cs
  | .blockComment, _ :: cs => stripFrom .blockComment cs

/-- Takes the comments out of a text. -/
def stripComments (cs : List Char) : List Char :=
  stripFrom .code cs

end SvgComponent.Config
