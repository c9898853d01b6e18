import SvgComponent.Conversion.Plan
import SvgComponent.Markup.Document

/-!
# Optimizers

An optimizer turns a source, its path and the names of some stages into a plan. The
`pipeline` reads the source and applies each stage once, in order. The others do what it does not :
they run no stage, run each of them twice, fail, or start from a document of their own.
-/

namespace SvgComponent

/-- What an optimizer does with a source, given its path and the names of the stages. -/
abbrev Optimizer :=
  (source : String) → (path : Option String) → {n : Nat} → (Fin n → String) → Plan n

namespace Optimizer

/-- Reads the source and applies each stage once; the message of a stage gets its name in
front. -/
def pipeline : Optimizer := fun source path _ names =>
  match Markup.parse source.toList with
  | .error error => .finish (.error (error.display path source.toList))
  | .ok document =>
    .inOrder ⟨path⟩ (fun i message => s!"{names i}: {message}") (List.finRange _) document

/-- Runs no stage and answers with an empty document. -/
def idle : Optimizer := fun _ _ _ _ =>
  .finish (.ok [])

/-- Runs no stage and fails. -/
def failing (message : String) : Optimizer := fun _ _ _ _ =>
  .finish (.error message)

/-- Reads the source and applies each stage two times in a row. -/
def repeated : Optimizer := fun source path _ _ =>
  match Markup.parse source.toList with
  | .error error => .finish (.error error.fault.message)
  | .ok document =>
    .inOrder ⟨path⟩ (fun _ message => message) ((List.finRange _).flatMap fun i => [i, i]) document

/-- Applies each stage once, to a given document instead of the source. -/
def fixed (document : Document) : Optimizer := fun _ path _ _ =>
  .inOrder ⟨path⟩ (fun _ message => message) (List.finRange _) document

/-- Runs an optimizer with stages. -/
def run {σ : Type} (optimizer : Optimizer) (source : String) (path : Option String)
    (stages : List (Observer σ)) (s : σ) : Except String Document × σ :=
  (optimizer source path fun i : Fin stages.length => stages[i].name).run (fun i => stages[i]) s

end Optimizer

end SvgComponent
