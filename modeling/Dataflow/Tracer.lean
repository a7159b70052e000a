/-
# Tracers

A tracer holds the pipelines that are being traced, the innermost first, along
with the operator registry, the settings and the source of random names. Its
operations either record one new node in the innermost open pipeline or leave the
open pipelines as they were.
-/

import Dataflow.Definition
import Dataflow.Naming
import Dataflow.Operator.Builtin
import Dataflow.Settings

namespace Dataflow

/-- A pipeline that is being traced. -/
structure Frame where
  name : String
  inputs : Named Expr
  /-- The nodes traced so far, in order. -/
  children : List Node
  condition : Option Condition

/-- Whether a pipeline being traced has a child of a name. -/
def Frame.hasChild (frame : Frame) (name : String) : Bool :=
  frame.children.any fun child => child.name == name

/-- The pipeline that a frame becomes when its body ends with a return value. The
value must be of the declared type, if there is one. -/
def Frame.close (frame : Frame) (declared : Option ValueType) (returnValue : Option Expr) :
    Except GraphError Pipeline :=
  let build (returns : Option ValueType) : Pipeline :=
    { name := frame.name
      inputs := frame.inputs
      children := frame.children
      returnValue := returnValue
      returns := returns
      condition := frame.condition }
  match declared, returnValue with
  | none, none => .ok (build none)
  | none, some e => e.typeOf.map fun found => build (some found)
  | some type, none => .error (.contract (.returnsNothing frame.name type))
  | some type, some e =>
    match e.typeOf with
    | .error fault => .error fault
    | .ok found =>
      if type.accepts found then .ok (build (some type))
      else .error (.contract (.returnType frame.name type found))

/-- The state of tracing. -/
structure Tracer where
  /-- The pipelines being traced, the innermost first. -/
  frames : List Frame
  registry : Registry
  settings : Settings
  entropy : Entropy

/-- A way to open a pipeline: from a definition with arguments, ad hoc with a base for
its name, under a guard, or to run only after other nodes. -/
inductive Opening where
  | invoke (definition : PipelineDef) (arguments : List (String × Expr))
  | scope (name : String)
  | guarded (condition : Condition)
  | dependsOn (dependencies : List Expr)

/-- How often a taken name is drawn anew before its collision is left to be
found on recording. -/
def redrawLimit : Nat := 32

/-- Draw names until one is free, at most `limit` of them being checked. A name
without suffix is not drawn twice. -/
def drawName (taken : String → Bool) (base : String) (length : Nat) :
    Nat → Entropy → String × Entropy
  | 0, entropy => entropy.generateName base length
  | limit + 1, entropy =>
    let (name, rest) := entropy.generateName base length
    if length = 0 || !taken name then (name, rest)
    else drawName taken base length limit rest

namespace Tracer

/-- A tracer with the built-in operators and no open pipeline. -/
def start (settings : Settings) (entropy : Entropy) : Tracer :=
  ⟨[], Builtin.registry, settings, entropy⟩

def depth (t : Tracer) : Nat := t.frames.length

/-- Whether the innermost open pipeline has a child of a name. -/
def hasSibling (t : Tracer) (name : String) : Bool :=
  match t.frames with
  | [] => false
  | frame :: _ => frame.hasChild name

/-- The name of a new node: a fixed one normalized, or a generated one. -/
def nodeName (t : Tracer) (explicit : Option String) (base : String) : String × Tracer :=
  match explicit with
  | some name => (normalize name, t)
  | none =>
    let (name, entropy) :=
      drawName t.hasSibling base t.settings.suffixLength redrawLimit t.entropy
    (name, { t with entropy })

/-- Record a node in the innermost open pipeline, where its name must be free.
With no open pipeline there is nothing to record it in. -/
def record (t : Tracer) (node : Node) : Except GraphError Tracer :=
  match t.frames with
  | [] => .ok t
  | frame :: outer =>
    if frame.hasChild node.name then .error (.contract (.nameTaken frame.name node.name))
    else .ok { t with frames := { frame with children := frame.children ++ [node] } :: outer }

/-- Record what was made, a component or a pipeline, as a node. -/
def recordAs {α : Type} (t : Tracer) (node : α → Node) (made : α) :
    Except GraphError α × Tracer :=
  match t.record (node made) with
  | .ok recorded => (.ok made, recorded)
  | .error fault => (.error fault, t)

/-- Record a component made from a definition with named arguments. -/
def call (t : Tracer) (d : ComponentDef) (arguments : List (String × Expr)) :
    Except GraphError Component × Tracer :=
  match d.returns with
  | none => (.error (.contract (.undeclaredReturn d.function)), t)
  | some returns =>
    match d.bind arguments with
    | .error fault => (.error fault, t)
    | .ok inputs =>
      let (name, named) := t.nodeName d.explicitName d.function
      named.recordAs .component
        { name := name
          function := d.function
          inputs := inputs
          returns := returns
          deployment := t.settings.resolveDeployment d.deployment
          body := d.body }

/-- Record a component made from a definition with arguments in the order of its
parameters. -/
def callPositional (t : Tracer) (d : ComponentDef) (arguments : List Expr) :
    Except GraphError Component × Tracer :=
  match d.nameArguments arguments with
  | .error fault => (.error fault, t)
  | .ok named => t.call d named

/-- The overload of an operator that fits the types of operands. -/
def selectOverload (t : Tracer) (operator : Operator) (operands : List Expr) :
    Except GraphError Overload :=
  match operands.mapM Expr.typeOf with
  | .error fault => .error fault
  | .ok types => t.registry.select operator types

/-- Record a component that applies an operator. It runs the overload that fits
the operands now. -/
def apply (t : Tracer) (operator : Operator) (operands : List Expr) :
    Except GraphError Component × Tracer :=
  match t.selectOverload operator operands with
  | .error fault => (.error fault, t)
  | .ok overload =>
    let (name, named) := t.nodeName none operator.name
    named.recordAs .component
      { name := name
        function := operator.name
        inputs := .ofList ((Operator.operandNames operands.length).zip operands)
        returns := overload.returns
        deployment := t.settings.operatorDeployment
        body := some fun inputs => overload.implementation inputs.values }

/-- What a dependency scope waits for: its only dependency, or a record of all of
them. Every one must read a node. -/
def dependencyOf (dependencies : List Expr) : Except GraphError Expr :=
  match dependencies.find? fun e => !e.isDeferred with
  | some e => .error (.contract (.constantDependency e.text))
  | none =>
    match dependencies with
    | [] => .error (.contract .noDependency)
    | [single] => .ok single
    | many => .ok (.tuple many)

/-- The number of random digits in the text that guards a dependency scope. -/
def witnessLength : Nat := 16

/-- The guard of a dependency scope: what it waits for differs from a fresh
random text, which holds once it is there. -/
def dependencyGuard (t : Tracer) (dependencies : List Expr) :
    Except GraphError Condition × Tracer :=
  match dependencyOf dependencies with
  | .error fault => (.error fault, t)
  | .ok awaited =>
    let (digits, entropy) := t.entropy.suffix witnessLength
    (Condition.make awaited (.literal (.string ("witness-" ++ digits))) .notEqual,
      { t with entropy })

/-- The frame of a pipeline about to be opened, and the type that it declares. -/
def prepare (t : Tracer) : Opening →
    Except GraphError (Frame × Option ValueType) × Tracer
  | .invoke d arguments =>
    match d.bind arguments with
    | .error fault => (.error fault, t)
    | .ok inputs =>
      let (name, named) := t.nodeName d.explicitName d.function
      (.ok (⟨name, inputs, [], none⟩, d.returns), named)
  | .scope base =>
    let (name, named) := t.nodeName none base
    (.ok (⟨name, .empty, [], none⟩, none), named)
  | .guarded condition =>
    let (name, named) := t.nodeName none "condition"
    (.ok (⟨name, .empty, [], some condition⟩, none), named)
  | .dependsOn dependencies =>
    match t.dependencyGuard dependencies with
    | (.error fault, drawn) => (.error fault, drawn)
    | (.ok condition, drawn) =>
      let (name, named) := drawn.nodeName none "depends-on"
      (.ok (⟨name, .empty, [], some condition⟩, none), named)

def push (t : Tracer) (frame : Frame) : Tracer :=
  { t with frames := frame :: t.frames }

/-- Close the innermost pipeline, whose body ended as told, and record it in the
one around it. -/
def pop (t : Tracer) (declared : Option ValueType)
    (ended : Except GraphError (Option Expr)) : Except GraphError Pipeline × Tracer :=
  match t.frames with
  | [] => (.error (.contract (.stated "active-context stack is empty")), t)
  | frame :: outer =>
    let closed := { t with frames := outer }
    match ended with
    | .error fault => (.error fault, closed)
    | .ok returnValue =>
      match frame.close declared returnValue with
      | .error fault => (.error fault, closed)
      | .ok p => closed.recordAs .pipeline p

end Tracer

end Dataflow
