import SvgComponent.Proofs.Conversion.Pipeline

/-!
# What a conversion keeps

An optimizer may apply the stages it is given as often as it likes, in any order and to any
documents, and may pass over their faults. What it did is told by its calls : those that its plan
makes (`Plan.Makes`), each answered in view of the calls before it (`Answered`). The first call of
the capturing stage decides what a conversion renders (`captured?`), and every later one is answered
with a fault :

* `exists_answered` : every plan makes calls that are answered;
* `run_eq_of_answered` : a run ends as these calls do, and keeps the document of the first capture;
* `Plan.Makes.inOrder` : stages in order are called in turn, and none behind a fault (`InTurn`);
* `convert_eq_of_answered` : what is converted, for every optimizer, and by the pipeline.
-/

namespace SvgComponent

/-! ## Calls -/

/-- One application of a stage : to what, and what came back. -/
structure Call (n : Nat) where
  stage : Fin n
  context : Context
  document : Document
  result : Except String Document

/-- The calls that a plan makes if they are answered as they say, and what it ends with. -/
inductive Plan.Makes {n : Nat} : Plan n → List (Call n) → Except String Document → Prop where
  | finish (outcome : Except String Document) : Makes (.finish outcome) [] outcome
  | apply {i : Fin n} {context : Context} {document : Document}
      {next : Except String Document → Plan n} {result outcome : Except String Document}
      {calls : List (Call n)} (h : Makes (next result) calls outcome) :
      Makes (.apply i context document next) (⟨i, context, document, result⟩ :: calls) outcome

/-- Calls of stages in turn, none of which follows a fault; a fault ends the plan as `report`
words it. -/
structure InTurn {n : Nat} (report : Fin n → String → String) (order : List (Fin n))
    (calls : List (Call n)) (outcome : Except String Document) : Prop where
  turns : calls.map Call.stage <+: order
  stops : ∀ (before after : List (Call n)) (call : Call n) (message : String),
    calls = before ++ call :: after → call.result = .error message →
      after = [] ∧ outcome = .error (report call.stage message)

theorem InTurn.nil {n : Nat} (report : Fin n → String → String) (order : List (Fin n))
    (outcome : Except String Document) : InTurn report order [] outcome :=
  ⟨List.nil_prefix, fun before after call _ he _ => absurd he.symm (by simp)⟩

/-- A plan that applies its stages in order makes its calls in this order, up to the first that
fails. -/
theorem Plan.Makes.inOrder {n : Nat} {context : Context} {report : Fin n → String → String}
    {order : List (Fin n)} {document : Document} {calls : List (Call n)}
    {outcome : Except String Document}
    (h : (Plan.inOrder context report order document).Makes calls outcome) :
    InTurn report order calls outcome := by
  induction order generalizing document calls with
  | nil =>
    cases h
    exact .nil ..
  | cons i rest ih =>
    rw [Plan.inOrder] at h
    cases h with
    | @apply _ _ _ _ result _ calls h =>
    cases result with
    | error message =>
      cases h
      refine ⟨List.prefix_append [i] rest, fun before after call m he hr => ?_⟩
      obtain ⟨rfl, hsingle⟩ | ⟨_, _, hnil⟩ := List.cons_eq_append_iff.1 he
      · obtain ⟨rfl, rfl⟩ := List.cons_eq_cons.1 hsingle
        cases hr
        exact ⟨rfl, rfl⟩
      · exact absurd hnil (by simp)
    | ok next =>
      obtain ⟨hturns, hstops⟩ := ih h
      refine ⟨(List.prefix_cons_inj i).2 hturns, fun before after call m he hr => ?_⟩
      obtain ⟨rfl, hsingle⟩ | ⟨behind, _, hrest⟩ := List.cons_eq_append_iff.1 he
      · obtain ⟨rfl, rfl⟩ := List.cons_eq_cons.1 hsingle
        cases hr
      · exact hstops behind after call m hrest hr

/-! ## Answers -/

/-- The stages of a conversion, and the one that captures behind them. -/
def withCapture (stages : List Stage) : List (Observer (Option Document)) :=
  stages.map Stage.toObserver ++ [capture]

variable {stages : List Stage}

/-- Whether a call is one of the capturing stage. -/
def Call.captures (call : Call (withCapture stages).length) : Bool :=
  call.stage.val = stages.length

/-- The document of the first call of the capturing stage. -/
def captured? (calls : List (Call (withCapture stages).length)) : Option Document :=
  (calls.find? Call.captures).map Call.document

/-- What comes back from a call : what the stage makes of the document, or, if it is the one
that captures, the document itself the first time and a fault from then on. -/
def answer (before : List (Call (withCapture stages).length))
    (call : Call (withCapture stages).length) : Except String Document :=
  match stages[call.stage.val]? with
  | some stage => stage.apply call.context call.document
  | none =>
    if before.any Call.captures then .error "stage ran more than once" else .ok call.document

/-- Whether all that came back from calls is what comes back from them. -/
def Answered : (before calls : List (Call (withCapture stages).length)) → Prop
  | _, [] => True
  | before, call :: rest => call.result = answer before call ∧ Answered (before ++ [call]) rest

/-- Every plan makes calls that are answered. -/
theorem exists_answered (plan : Plan (withCapture stages).length)
    (before : List (Call (withCapture stages).length)) :
    ∃ calls outcome, plan.Makes calls outcome ∧ Answered before calls := by
  induction plan generalizing before with
  | finish outcome => exact ⟨[], outcome, .finish outcome, trivial⟩
  | apply i context document next ih =>
    have hresult (result : Except String Document) :
        answer before ⟨i, context, document, result⟩ =
          answer before ⟨i, context, document, .ok []⟩ := rfl
    obtain ⟨calls, outcome, hm, ha⟩ := ih (answer before ⟨i, context, document, .ok []⟩)
      (before ++ [⟨i, context, document, answer before ⟨i, context, document, .ok []⟩⟩])
    exact ⟨_, outcome, .apply hm, (hresult _).symm, ha⟩

/-- The first document that is captured stays. -/
theorem captured?_concat (before : List (Call (withCapture stages).length))
    (call : Call (withCapture stages).length) :
    captured? (before ++ [call]) =
      (captured? before).or (if call.captures then some call.document else none) := by
  rw [captured?, List.find?_append, Option.map_or, captured?, List.find?_singleton]
  cases call.captures <;> rfl

theorem any_captures (before : List (Call (withCapture stages).length)) :
    before.any Call.captures = (captured? before).isSome := by
  rw [captured?, Option.isSome_map, Bool.eq_iff_iff, List.any_eq_true, List.find?_isSome]

/-! ## A run and its calls -/

/-- The stages come first. -/
theorem getElem_withCapture_of_stage {i : Fin (withCapture stages).length} {stage : Stage}
    (h : stages[i.val]? = some stage) : (withCapture stages)[i] = stage.toObserver := by
  obtain ⟨hi, rfl⟩ := List.getElem?_eq_some_iff.1 h
  have hmap : i.val < (stages.map (Stage.toObserver (σ := Option Document))).length := by
    rwa [List.length_map]
  change (stages.map Stage.toObserver ++ [capture])[i.val] = _
  rw [List.getElem_append_left hmap, List.getElem_map]

/-- Behind the stages only one place is left. -/
theorem eq_length_of_no_stage {i : Fin (withCapture stages).length}
    (h : stages[i.val]? = none) : i.val = stages.length := by
  have hle := List.getElem?_eq_none_iff.1 h
  have hlt := i.isLt
  simp only [withCapture, List.length_append, List.length_map, List.length_singleton] at hlt
  omega

/-- Behind the stages the document is captured. -/
theorem getElem_withCapture_of_no_stage {i : Fin (withCapture stages).length}
    (h : stages[i.val]? = none) : (withCapture stages)[i] = capture := by
  have hi := eq_length_of_no_stage h
  change (withCapture stages)[i.val] = _
  simp [withCapture, hi]

/-- A stage answers as `answer` says and leaves what has been captured with its call. -/
theorem apply_withCapture (before : List (Call (withCapture stages).length))
    (call : Call (withCapture stages).length) :
    ((withCapture stages)[call.stage]).apply call.context call.document (captured? before) =
      (answer before call, captured? (before ++ [call])) := by
  rw [captured?_concat, answer, any_captures]
  cases h : stages[call.stage.val]? with
  | some stage =>
    have hi : call.captures = false := by
      have := (List.getElem?_eq_some_iff.1 h).1
      simp only [Call.captures, decide_eq_false_iff_not]
      omega
    rw [getElem_withCapture_of_stage h, hi]
    cases captured? before <;> rfl
  | none =>
    have hi : call.captures = true := decide_eq_true (eq_length_of_no_stage h)
    rw [getElem_withCapture_of_no_stage h, hi]
    cases captured? before <;> rfl

/-- A run ends as its calls do, and keeps the document that was captured first. -/
theorem run_eq_of_answered {plan : Plan (withCapture stages).length}
    {before calls : List (Call (withCapture stages).length)} {outcome : Except String Document}
    (hm : plan.Makes calls outcome) (ha : Answered before calls) :
    plan.run (fun i => (withCapture stages)[i]) (captured? before) =
      (outcome, captured? (before ++ calls)) := by
  induction hm generalizing before with
  | finish outcome => rw [Plan.run_finish, List.append_nil]
  | @apply i context document next result outcome calls _ ih =>
    obtain ⟨hr, hrest⟩ := ha
    have hstep := apply_withCapture before ⟨i, context, document, result⟩
    rw [← hr] at hstep
    rw [Plan.run_apply, hstep, ih hrest, List.append_assoc, List.singleton_append]

/-! ## Conversions -/

namespace ConversionRequest

/-- What an optimizer does with the source and the stages of a request. -/
def planOf (request : ConversionRequest) (optimizer : Optimizer) (stages : List Stage) :
    Plan (withCapture stages).length :=
  optimizer request.svg (some request.file) fun i => (withCapture stages)[i].name

/-- A document rendered as a request asks for. -/
def rendered (request : ConversionRequest) (document : Document) :
    Except ConversionFault Jsx.Rendered :=
  match Jsx.render document request.overrides with
  | .ok rendered => .ok rendered
  | .error fault => .error (.render fault request.file)

/-- What is converted if an optimizer ends with an outcome and a document was captured. -/
def converted (request : ConversionRequest) :
    Except String Document → Option Document → Except ConversionFault Jsx.Rendered
  | .error message, _ => .error (.optimization message)
  | .ok _, none => .error (.notCaptured request.file)
  | .ok _, some document => request.rendered document

/-- An unknown target is reported before anything is done. -/
theorem convert_of_unknown {request : ConversionRequest}
    (h : Target.ofName? request.target = none) (optimizer : Optimizer) :
    request.convert optimizer = .error (.unknownTarget request.target) := by
  rw [convert, h]

/-- What a conversion comes to is told by the outcome of its plan and by what has been captured. -/
theorem convert_of_run {request : ConversionRequest} {target : Target}
    (h : Target.ofName? request.target = some target) {optimizer : Optimizer}
    {outcome : Except String Document} {kept : Option Document}
    (hrun : (request.planOf optimizer (request.stages ++ [target.stage])).run
      (fun i => (withCapture (request.stages ++ [target.stage]))[i]) none = (outcome, kept)) :
    request.convert optimizer = request.converted outcome kept := by
  have hplan : optimizer.run request.svg (some request.file)
      ((request.stages ++ [target.stage]).map Stage.toObserver ++ [capture]) none =
        (outcome, kept) := hrun
  rw [convert, h]
  simp only [hplan]
  cases outcome with
  | error message => rfl
  | ok document => cases kept <;> rfl

/-- The pipeline renders what the stages of the request and the target make of the source, and
the first fault ends it. -/
theorem convert_pipeline_eq {request : ConversionRequest} {target : Target}
    (h : Target.ofName? request.target = some target) :
    request.convert Optimizer.pipeline =
      match Markup.parse request.svg.toList with
      | .error error =>
        .error (.optimization (error.display (some request.file) request.svg.toList))
      | .ok document =>
        match Stage.runAll ⟨some request.file⟩ (request.stages ++ [target.stage]) document with
        | .error message => .error (.optimization message)
        | .ok document => request.rendered document := by
  rw [convert_pipeline]
  simp only [h]
  cases Markup.parse request.svg.toList with
  | error error => rfl
  | ok document =>
    simp only [Stage.runAll_append]
    cases Stage.runAll ⟨some request.file⟩ request.stages document with
    | error message => rfl
    | ok document => rfl

/-- The pipeline calls each stage in turn. -/
theorem inTurn_pipeline {request : ConversionRequest} {stages : List Stage}
    {calls : List (Call (withCapture stages).length)} {outcome : Except String Document}
    (h : (request.planOf Optimizer.pipeline stages).Makes calls outcome) :
    InTurn (fun i message => s!"{(withCapture stages)[i].name}: {message}") (List.finRange _) calls
      outcome := by
  rw [planOf, Optimizer.pipeline] at h
  split at h
  · cases h
    exact .nil ..
  · exact h.inOrder

/-- A conversion to an unknown target does not ask the optimizer. To a known one, whatever calls
the optimizer makes and whatever it ends with, its own fault is passed on, and otherwise what was
captured first is rendered. The pipeline calls each stage in turn, none behind a fault, so that
what the stages and the target make of the source is rendered. -/
theorem convert_eq_of_answered (request : ConversionRequest) (optimizer : Optimizer) :
    (Target.ofName? request.target = none →
      request.convert optimizer = .error (.unknownTarget request.target)) ∧
    ∀ target, Target.ofName? request.target = some target →
      (∃ calls outcome,
        (request.planOf optimizer (request.stages ++ [target.stage])).Makes calls outcome ∧
          Answered [] calls) ∧
      (∀ calls outcome,
        (request.planOf optimizer (request.stages ++ [target.stage])).Makes calls outcome →
          Answered [] calls →
          request.convert optimizer = request.converted outcome (captured? calls)) ∧
      (∀ calls outcome,
        (request.planOf Optimizer.pipeline (request.stages ++ [target.stage])).Makes calls outcome →
          InTurn (fun i message =>
              s!"{(withCapture (request.stages ++ [target.stage]))[i].name}: {message}")
            (List.finRange _) calls outcome) ∧
      request.convert Optimizer.pipeline =
        match Markup.parse request.svg.toList with
        | .error error =>
          .error (.optimization (error.display (some request.file) request.svg.toList))
        | .ok document =>
          match Stage.runAll ⟨some request.file⟩ (request.stages ++ [target.stage]) document with
          | .error message => .error (.optimization message)
          | .ok document => request.rendered document := by
  refine ⟨fun h => convert_of_unknown h optimizer, fun target h => ?_⟩
  refine ⟨exists_answered _ [], fun calls outcome hm ha => ?_, fun calls outcome hm => ?_,
    convert_pipeline_eq h⟩
  · exact convert_of_run h (run_eq_of_answered hm ha)
  · exact inTurn_pipeline hm

/-- An optimizer that captures two documents, passing over the fault of the second capture. -/
def capturingTwice (first second : Document) : Optimizer := fun _ _ n _ =>
  if h : 0 < n then
    let last : Fin n := ⟨n - 1, by omega⟩
    .apply last {} first fun _ => .apply last {} second fun _ => .finish (.ok [])
  else .finish (.ok [])

/-- Of two captured documents the first is rendered, and neither the source nor the answer of the
optimizer is. -/
theorem convert_eq_of_answered_twice :
    ({ file := "a.svg", svg := "<" : ConversionRequest }).convert
        (capturingTwice [.element {} ⟨"g", .empty⟩ []] [.comment {} "late"]) =
      .ok ⟨"<g />", []⟩ := by
  have hall := (convert_eq_of_answered { file := "a.svg", svg := "<" }
    (capturingTwice [.element {} ⟨"g", .empty⟩ []] [.comment {} "late"])).2 .reactDom (by decide)
  exact hall.2.1 [⟨⟨1, by decide⟩, {}, _, .ok _⟩,
    ⟨⟨1, by decide⟩, {}, _, .error "stage ran more than once"⟩] (.ok [])
    (.apply (.apply (.finish _))) ⟨rfl, rfl, trivial⟩

end ConversionRequest

end SvgComponent
