/-
# Pipelines

A pipeline is an ordered list of nodes. A node is a component, the leaf that a
backend runs, or a nested pipeline, which may be guarded by a condition. Inputs
of nodes, guards and return values are expressions over the nodes before them.
-/

import Dataflow.Condition
import Dataflow.Deployment

namespace Dataflow

/-- The computation behind a component. -/
abbrev Body := Inputs → Outcome Value

/-- A leaf of a traced pipeline. -/
structure Component where
  /-- The name, unique among the siblings. -/
  name : String
  /-- The definition or operator that the component was made from. -/
  function : String
  /-- The inputs, in the order of the parameters. -/
  inputs : Named Expr
  returns : ValueType
  deployment : Deployment
  /-- The computation, if the component can run in process. -/
  body : Option Body

mutual

/-- A traced pipeline. -/
structure Pipeline where
  name : String
  /-- The inputs, resolved where the pipeline stands. -/
  inputs : Named Expr
  /-- The nodes, in the order in which they were traced. -/
  children : List Node
  returnValue : Option Expr
  /-- The declared or inferred type of the return value. -/
  returns : Option ValueType
  condition : Option Condition

/-- A child of a pipeline. -/
inductive Node where
  | component (c : Component)
  | pipeline (p : Pipeline)

end

namespace Component

/-- The component as expressions see it. -/
def ref (c : Component) : NodeRef := ⟨c.name, some c.returns⟩

/-- The result of the component. -/
def expr (c : Component) : Expr := .node c.ref

/-- Whether the component can run in process. -/
def hasBody (c : Component) : Bool := c.body.isSome

/-- Run the computation on resolved arguments. -/
def invoke (c : Component) (inputs : Inputs) : Outcome Value :=
  match c.body with
  | some body => body inputs
  | none => .error .noBody

/-- The elements of the result of a component that returns a record, one for each
declared field. -/
def outputs (c : Component) : Except GraphError (List Expr) :=
  match c.returns with
  | .record schema => .ok ((List.range schema.size).map fun position => .index c.expr position)
  | scalar => .error (.contract (.noOutputs c.name scalar))

end Component

namespace Pipeline

/-- The pipeline as expressions see it. -/
def ref (p : Pipeline) : NodeRef := ⟨p.name, p.returns⟩

/-- The return value of the pipeline. -/
def expr (p : Pipeline) : Expr := .node p.ref

/-- Whether the pipeline has a guard. -/
def isConditional (p : Pipeline) : Bool := p.condition.isSome

end Pipeline

namespace Node

def name : Node → String
  | .component c => c.name
  | .pipeline p => p.name

/-- The inputs of a node. -/
def inputs : Node → Named Expr
  | .component c => c.inputs
  | .pipeline p => p.inputs

end Node

/-- The first child of a name. -/
def Pipeline.child? (p : Pipeline) (name : String) : Option Node :=
  p.children.find? fun child => child.name == name

end Dataflow
