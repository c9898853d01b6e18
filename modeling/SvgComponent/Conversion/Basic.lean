import SvgComponent.Conversion.Optimizer
import SvgComponent.Jsx.Render
import SvgComponent.Target.Stage

/-!
# Converting a source

A conversion has an optimizer run the stages of the request, then the stage of the target, then one
that keeps the document it sees (`capture`). That document is what is written; what the optimizer
itself answers with does not matter, except when it fails.
-/

namespace SvgComponent

/-- What to convert, and how. -/
structure ConversionRequest where
  file : String
  svg : String
  target : String := Target.reactDom.name
  overrides : Option Jsx.Overrides := none
  stages : List Stage := []

/-- Why a source cannot be converted. -/
inductive ConversionFault where
  | unknownTarget (name : String)
  | optimization (message : String)
  | notCaptured (file : String)
  | render (fault : Jsx.RenderFault) (file : String)

/-- The wording of a fault. -/
def ConversionFault.message : ConversionFault → String
  | unknownTarget name => Target.unknownMessage name
  | optimization message => message
  | notCaptured file =>
    s!"Optimizer finished without passing the final tree to the extraction stage\nin {file}"
  | render fault file => s!"{fault.message}\nin {file}"

/-- The last stage keeps the document it sees, and does not run twice. -/
def capture : Observer (Option Document) where
  name := "capture-tree"
  apply _ document
    | none => (.ok document, some document)
    | some kept => (.error "stage ran more than once", some kept)

/-- Converts a source with an optimizer. -/
def ConversionRequest.convert (request : ConversionRequest) (optimizer : Optimizer) :
    Except ConversionFault Jsx.Rendered :=
  match Target.ofName? request.target with
  | none => .error (.unknownTarget request.target)
  | some target =>
    let stages := request.stages ++ [target.stage]
    match optimizer.run request.svg (some request.file) (stages.map Stage.toObserver ++ [capture])
      none with
    | (.error message, _) => .error (.optimization message)
    | (.ok _, none) => .error (.notCaptured request.file)
    | (.ok _, some document) =>
      match Jsx.render document request.overrides with
      | .ok rendered => .ok rendered
      | .error fault => .error (.render fault request.file)

end SvgComponent
