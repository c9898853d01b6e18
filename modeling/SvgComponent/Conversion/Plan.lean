import SvgComponent.Stage.Basic

/-!
# Plans

What an optimizer does with the stages it is given is a `Plan` : it applies stages, any of them and
in any order, to documents of its choice, may look at what comes back, and ends with an outcome of
its own. A plan says nothing of what the stages do; `run` plays it against given stages, which may
keep a state between their runs (`Observer`).

* `run_finish`, `run_apply` : the two steps of a run.
-/

namespace SvgComponent

/-- What can be done with `n` stages. -/
inductive Plan (n : Nat) where
  | finish (outcome : Except String Document)
  | apply (stage : Fin n) (context : Context) (document : Document)
      (next : Except String Document → Plan n)

/-- A stage that keeps a state between its runs. -/
structure Observer (σ : Type) where
  name : String
  apply : Context → Document → σ → Except String Document × σ

/-- A stage that does not look at the state. -/
def Stage.toObserver {σ : Type} (stage : Stage) : Observer σ :=
  ⟨stage.name, fun context document s => (stage.apply context document, s)⟩

namespace Plan

variable {n : Nat} {σ : Type}

/-- Plays a plan against stages. -/
def run (stages : Fin n → Observer σ) : Plan n → σ → Except String Document × σ
  | finish outcome, s => (outcome, s)
  | apply i context document next, s =>
    let (result, s) := (stages i).apply context document s
    run stages (next result) s

@[simp] theorem run_finish (stages : Fin n → Observer σ) (outcome : Except String Document)
    (s : σ) : (finish outcome).run stages s = (outcome, s) := rfl

@[simp] theorem run_apply (stages : Fin n → Observer σ) (i : Fin n) (context : Context)
    (document : Document) (next : Except String Document → Plan n) (s : σ) :
    (apply i context document next).run stages s =
      (next ((stages i).apply context document s).1).run stages
        ((stages i).apply context document s).2 := rfl

/-- Applies stages one after the other, each to what the one before it made, up to the first
that fails, whose message is then worded by `report`. -/
def inOrder (context : Context) (report : Fin n → String → String) :
    List (Fin n) → Document → Plan n
  | [], document => .finish (.ok document)
  | i :: rest, document => .apply i context document fun
    | .ok document => inOrder context report rest document
    | .error message => .finish (.error (report i message))

end Plan

end SvgComponent
