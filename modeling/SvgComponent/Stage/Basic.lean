import SvgComponent.Tree.Basic

/-!
# Stages

A stage is a named change of a document. It knows the path of the document, if there is one,
and may fail with a message.
-/

namespace SvgComponent

/-- What a stage knows besides the document. -/
structure Context where
  path : Option String := none

/-- A named change of a document. -/
structure Stage where
  name : String
  apply : Context → Document → Except String Document

end SvgComponent
