import Mathlib.Data.List.FinRange
import SvgComponent.Conversion.Basic

/-!
# The pipeline

The pipeline reads the source and applies each stage once, in order. `Observer.runAll` says so
without a plan; `run_pipeline` is that the plan of the pipeline does nothing else. For the
stages of a conversion this means that the document that is kept is the one that the last
stage leaves, or that the message of the first stage that fails is reported with its name
(`convert_pipeline`).
-/

namespace SvgComponent

variable {σ : Type}

/-! ## Stages in order -/

/-- Applies stages in order, up to the first that fails; its message gets its name in front. -/
def Observer.runAll (context : Context) :
    List (Observer σ) → Document → σ → Except String Document × σ
  | [], document, s => (.ok document, s)
  | stage :: rest, document, s =>
    match stage.apply context document s with
    | (.ok document, s) => runAll context rest document s
    | (.error message, s) => (.error s!"{stage.name}: {message}", s)

/-- The same for stages that do not look at the state. -/
def Stage.runAll (context : Context) : List Stage → Document → Except String Document
  | [], document => .ok document
  | stage :: rest, document =>
    match stage.apply context document with
    | .ok document => runAll context rest document
    | .error message => .error s!"{stage.name}: {message}"

/-- A plan that applies its stages in order runs them in order. -/
theorem Plan.run_inOrder {n : Nat} (stages : Fin n → Observer σ) (context : Context)
    (order : List (Fin n)) (document : Document) (s : σ) :
    (Plan.inOrder context (fun i message => s!"{(stages i).name}: {message}") order document).run
      stages s = Observer.runAll context (order.map stages) document s := by
  induction order generalizing document s with
  | nil => rfl
  | cons i rest ih =>
    rw [Plan.inOrder, Plan.run_apply, List.map_cons, Observer.runAll]
    cases h : (stages i).apply context document s with
    | mk result s' =>
      cases result with
      | ok document' => exact ih document' s'
      | error message => rfl

/-- The pipeline applies each stage once, in order, to the document it reads. -/
theorem Optimizer.run_pipeline (source : String) (path : Option String)
    (stages : List (Observer σ)) (s : σ) :
    Optimizer.pipeline.run source path stages s =
      match Markup.parse source.toList with
      | .error error => (.error (error.display path source.toList), s)
      | .ok document => Observer.runAll ⟨path⟩ stages document s := by
  rw [Optimizer.run, Optimizer.pipeline]
  cases Markup.parse source.toList with
  | error error => rfl
  | ok document =>
    have hall : (List.finRange stages.length).map (fun i => stages[i]) = stages :=
      List.ofFn_eq_map.symm.trans List.ofFn_getElem
    have hrun := Plan.run_inOrder (fun i => stages[i]) ⟨path⟩ (List.finRange stages.length)
      document s
    rw [hall] at hrun
    exact hrun

/-! ## Stages and a last one that observes -/

/-- An observer behind some stages sees what they leave. -/
theorem Observer.runAll_append_toObserver (context : Context) (stages : List Stage)
    (last : Observer σ) (document : Document) (s : σ) :
    Observer.runAll context (stages.map Stage.toObserver ++ [last]) document s =
      match Stage.runAll context stages document with
      | .ok document => Observer.runAll context [last] document s
      | .error message => (.error message, s) := by
  induction stages generalizing document with
  | nil => rfl
  | cons stage rest ih =>
    have happly : stage.toObserver.apply context document s =
      (stage.apply context document, s) := rfl
    rw [List.map_cons, List.cons_append, Observer.runAll, Stage.runAll, happly]
    cases stage.apply context document with
    | ok document' => exact ih document'
    | error message => rfl

/-- Stages are run one after the other, up to the first that fails. -/
theorem Stage.runAll_append (context : Context) (stages more : List Stage) (document : Document) :
    Stage.runAll context (stages ++ more) document =
      (Stage.runAll context stages document).bind (Stage.runAll context more) := by
  induction stages generalizing document with
  | nil => rfl
  | cons stage rest ih =>
    rw [List.cons_append, Stage.runAll, Stage.runAll]
    cases stage.apply context document with
    | ok document' => exact ih document'
    | error message => rfl

/-- A conversion by the pipeline : the source is read, the stages of the request run in order,
the target adapts what they leave, and that is rendered. The first fault ends it. -/
theorem convert_pipeline (request : ConversionRequest) :
    request.convert Optimizer.pipeline =
      match Target.ofName? request.target with
      | none => .error (.unknownTarget request.target)
      | some target =>
        match Markup.parse request.svg.toList with
        | .error error =>
          .error (.optimization (error.display (some request.file) request.svg.toList))
        | .ok document =>
          match Stage.runAll ⟨some request.file⟩ request.stages document with
          | .error message => .error (.optimization message)
          | .ok document =>
            match Jsx.render (target.adapt document) request.overrides with
            | .ok rendered => .ok rendered
            | .error fault => .error (.render fault request.file) := by
  rw [ConversionRequest.convert]
  cases Target.ofName? request.target with
  | none => rfl
  | some target =>
    simp only [Optimizer.run_pipeline]
    cases Markup.parse request.svg.toList with
    | error error => rfl
    | ok document =>
      simp only [Observer.runAll_append_toObserver, Stage.runAll_append]
      cases Stage.runAll ⟨some request.file⟩ request.stages document with
      | error message => rfl
      | ok document => rfl

/-- A conversion by the pipeline succeeds if every step does. -/
theorem convert_eq_ok_iff {request : ConversionRequest} {target : Target} {rendered : Jsx.Rendered}
    (ht : Target.ofName? request.target = some target) :
    request.convert Optimizer.pipeline = .ok rendered ↔
      ∃ source document, Markup.parse request.svg.toList = .ok source ∧
        Stage.runAll ⟨some request.file⟩ request.stages source = .ok document ∧
        Jsx.render (target.adapt document) request.overrides = .ok rendered := by
  rw [convert_pipeline, ht]
  dsimp only
  cases hp : Markup.parse request.svg.toList with
  | error error => simp
  | ok source =>
    dsimp only
    cases hs : Stage.runAll ⟨some request.file⟩ request.stages source with
    | error message => simp [hs]
    | ok document =>
      dsimp only
      cases hr : Jsx.render (target.adapt document) request.overrides with
      | error fault => simp [hs, hr]
      | ok text => simp [hs, hr]

end SvgComponent
