/-
# Runs of pipelines

A run walks a traced pipeline in declaration order and hands each component to a
backend, with its inputs resolved. What a component gives is reconstructed under
its declared type and put into the value table of its pipeline. A nested pipeline
starts from the table around it and leaves only its own value there. A pipeline
whose guard is false is skipped with everything in it. The first error ends the
run.
-/

import Dataflow.Pipeline
import Dataflow.Value.Reconstruct

namespace Dataflow

/-- A way to run components, with a state of type `σ`. -/
structure Backend (σ : Type) where
  name : String
  runComponent : Component → Inputs → σ → Except GraphError Value × σ

/-- What became of a node: it ran, or its guard was false. -/
inductive StepStatus where
  | completed
  | skipped
deriving DecidableEq, Repr

def StepStatus.name : StepStatus → String
  | .completed => "completed"
  | .skipped => "skipped"

/-- A node that ran or was skipped. -/
structure Step where
  /-- The names of the nodes from the root down, joined with slashes. -/
  path : String
  status : StepStatus
deriving DecidableEq, Repr

/-- The result of a successful run. -/
structure RunOutcome where
  value : Option Value
  /-- The value table of the root pipeline after its last child. -/
  values : ValueTable
  /-- The steps in order of completion. -/
  steps : List Step

namespace RunOutcome

/-- The steps that ran. -/
def completed (outcome : RunOutcome) : List Step :=
  outcome.steps.filter fun step => step.status == .completed

/-- The steps that were skipped. -/
def skipped (outcome : RunOutcome) : List Step :=
  outcome.steps.filter fun step => step.status == .skipped

/-- The value of an expression in the final table of the root pipeline. -/
def resolve (outcome : RunOutcome) (e : Expr) : Except GraphError Value :=
  e.resolve outcome.values

end RunOutcome

/-- What a run changes: the steps taken so far and the state of the backend. Both
outlive an error. -/
structure RunState (σ : Type) where
  /-- The steps in order of completion. -/
  steps : List Step
  backend : σ

namespace RunState

/-- Add a step. -/
def note {σ : Type} (state : RunState σ) (path : String) (status : StepStatus) : RunState σ :=
  { state with steps := state.steps ++ [⟨path, status⟩] }

end RunState

/-- The value of a nested pipeline, reconstructed under its type. A pipeline that
returns nothing has the empty record. -/
def Pipeline.settle (p : Pipeline) : Option Value → Except GraphError Value
  | none => .ok Value.emptyRecord
  | some raw =>
    match p.returns with
    | some declared => reconstruct p.name declared raw
    | none => .ok raw

/-- The value of an optional expression. -/
def Expr.resolveOption (table : ValueTable) : Option Expr → Except GraphError (Option Value)
  | none => .ok none
  | some e => (e.resolve table).map some

/-- Whether a pipeline with this guard runs. -/
def Condition.holds (table : ValueTable) : Option Condition → Except GraphError Bool
  | none => .ok true
  | some condition => condition.evaluate table

namespace Backend

variable {σ : Type}

/-- Run a component and reconstruct what it gives. -/
def execute (backend : Backend σ) (c : Component) (inputs : Inputs) (state : RunState σ) :
    Except GraphError Value × RunState σ :=
  match backend.runComponent c inputs state.backend with
  | (.error fault, after) => (.error fault, { state with backend := after })
  | (.ok raw, after) => (reconstruct c.name c.returns raw, { state with backend := after })

mutual

/-- Run a node at a path. The result is its value, or nothing if it was
skipped. -/
def runNode (backend : Backend σ) :
    Node → String → ValueTable → RunState σ → Except GraphError (Option Value) × RunState σ
  | .component c, _, table, state =>
    match Expr.resolveAll table c.inputs with
    | .error fault => (.error fault, state)
    | .ok inputs =>
      match backend.execute c inputs state with
      | (.error fault, after) => (.error fault, after)
      | (.ok v, after) => (.ok (some v), after)
  | .pipeline p, path, table, state =>
    match Expr.resolveAll table p.inputs with
    | .error fault => (.error fault, state)
    | .ok inputs =>
      match Condition.holds table p.condition with
      | .error fault => (.error fault, state)
      | .ok false => (.ok none, state)
      | .ok true =>
        match runPipeline backend p path (table.merge inputs) state with
        | (.error fault, after) => (.error fault, after)
        | (.ok (value, _), after) =>
          match p.settle value with
          | .error fault => (.error fault, after)
          | .ok v => (.ok (some v), after)

/-- Run the children of a pipeline at a path and resolve its return value. The
result is that value with the final table. -/
def runPipeline (backend : Backend σ) :
    Pipeline → String → ValueTable → RunState σ →
      Except GraphError (Option Value × ValueTable) × RunState σ
  | ⟨_, _, children, returnValue, _, _⟩, path, table, state =>
    match runChildren backend children path table state with
    | (.error fault, after) => (.error fault, after)
    | (.ok final, after) =>
      match Expr.resolveOption final returnValue with
      | .error fault => (.error fault, after)
      | .ok value => (.ok (value, final), after)

/-- Run nodes one after another, each in the table that the ones before it
left. -/
def runChildren (backend : Backend σ) :
    List Node → String → ValueTable → RunState σ → Except GraphError ValueTable × RunState σ
  | [], _, table, state => (.ok table, state)
  | child :: rest, path, table, state =>
    let childPath := path ++ "/" ++ child.name
    match runNode backend child childPath table state with
    | (.error fault, after) => (.error fault, after)
    | (.ok none, after) =>
      runChildren backend rest path table (after.note childPath .skipped)
    | (.ok (some v), after) =>
      runChildren backend rest path (table.insert child.name v)
        (after.note childPath .completed)

end

/-- Run a pipeline from its own inputs. The state tells the steps of a run that
fails as well. -/
def run (backend : Backend σ) (p : Pipeline) (state : σ) :
    Except GraphError RunOutcome × RunState σ :=
  match Expr.resolveAll .empty p.inputs with
  | .error fault => (.error fault, ⟨[], state⟩)
  | .ok inputs =>
    match backend.runPipeline p p.name (Named.empty.merge inputs) ⟨[], state⟩ with
    | (.error fault, after) => (.error fault, after)
    | (.ok (value, values), after) => (.ok ⟨value, values, after.steps⟩, after)

/-- The backend that also notes which components it runs, on which inputs. -/
def recording (backend : Backend σ) : Backend (List (String × Inputs) × σ) where
  name := backend.name
  runComponent := fun c inputs state =>
    match backend.runComponent c inputs state.2 with
    | (result, after) => (result, (state.1 ++ [(c.name, inputs)], after))

/-- The backend that runs bodies in process. -/
def inProcess : Backend Unit where
  name := "local"
  runComponent := fun c inputs _ =>
    match c.body with
    | none => (.error (.backend c.name .noBody), ())
    | some body =>
      ((body inputs).mapError fun failure => .backend c.name (.bodyFailed failure), ())

end Backend

end Dataflow
