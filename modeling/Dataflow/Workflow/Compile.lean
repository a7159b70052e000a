/-
# Compiling pipelines

A task may read any task declared before it in its own pipeline or in one around
it; the innermost task of a name is meant. Tasks inside a nested pipeline are
never visible outside it. Whatever a nested pipeline reads from outside makes the
pipeline, as a task, depend on it.
-/

import Dataflow.Pipeline
import Dataflow.Workflow

namespace Dataflow

namespace Compile

/-- The names of the tasks compiled so far, one list for each open pipeline, the
innermost pipeline first. -/
abbrev Scopes := List (List String)

/-- A task that is read, and the number of pipelines around the one that declares
it. -/
structure Reference where
  /-- The number of pipelines around the one that declares the task. -/
  level : Nat
  task : String
deriving DecidableEq, Repr

/-- What a selection takes of a record. -/
inductive Selector where
  | field (name : String)
  | element (position : Nat)

/-- An argument with the tasks that it reads. -/
abbrev Compiled := Except GraphError (Argument × List Reference)

/-- The level of the innermost pipeline that declares a task of a name. -/
def levelOf? (name : String) : Scopes → Option Nat
  | [] => none
  | scope :: outer => if scope.contains name then some outer.length else levelOf? name outer

/-- The output of a task, or one field of it. -/
def taskOutput (scopes : Scopes) (task : String) (field : Option String) : Compiled :=
  match levelOf? task scopes with
  | some level => .ok (.output task field, [⟨level, task⟩])
  | none => .error (.nameNotProduced task)

/-- That a selection finds nothing. -/
def missing (parent : Expr) : Selector → GraphError
  | .field name => .contract (.noField parent.text name)
  | .element position => .contract (.noElement parent.text position)

/-- The name of the selected output of a node of a type. -/
def outputField (parent : Expr) (type : ValueType) (selector : Selector) :
    Except GraphError String :=
  match type with
  | .record schema =>
    let found :=
      match selector with
      | .field name => (schema.fieldType? name).map fun _ => name
      | .element position => (schema.fieldAt? position).map Prod.fst
    match found with
    | some name => .ok name
    | none => .error (missing parent selector)
  | scalar => .error (.contract (.outputNotRecord parent.text scalar))

/-- The part of named things that is selected. -/
def Selector.pick {α : Type} (selector : Selector) (fields : Named α) : Option α :=
  match selector with
  | .field name => fields.get? name
  | .element position => (fields.entryAt? position).map Prod.snd

/-- The selected part of a compiled argument that is a record. -/
def pickArgument (parent : Expr) (selector : Selector) : Argument → Except GraphError Argument
  | .record fields =>
    match selector.pick fields with
    | some part => .ok part
    | none => .error (missing parent selector)
  | .literal (.record fields) =>
    match selector.pick fields with
    | some v => .ok (.literal v)
    | none => .error (missing parent selector)
  | _ => .error (missing parent selector)

/-- A selected output of a node. -/
def nodeOutput (scopes : Scopes) (ref : NodeRef) (selector : Selector) : Compiled :=
  match (Expr.node ref).typeOf with
  | .error fault => .error fault
  | .ok type =>
    match outputField (.node ref) type selector with
    | .error fault => .error fault
    | .ok field => taskOutput scopes ref.name (some field)

/-- Take the selected part of a compiled argument. What its other parts read is
still read. -/
def pickFrom (parent : Expr) (selector : Selector) (compiled : Compiled) : Compiled :=
  match compiled with
  | .error fault => .error fault
  | .ok (whole, references) =>
    match pickArgument parent selector whole with
    | .error fault => .error fault
    | .ok part => .ok (part, references)

mutual

/-- The argument that an expression becomes. -/
def argument (scopes : Scopes) : Expr → Compiled
  | .literal v => .ok (.literal v, [])
  | .node ref => taskOutput scopes ref.name none
  | .field parent name =>
    match parent with
    | .node ref => nodeOutput scopes ref (.field name)
    | other => pickFrom other (.field name) (argument scopes other)
  | .index parent position =>
    match parent with
    | .node ref => nodeOutput scopes ref (.element position)
    | other => pickFrom other (.element position) (argument scopes other)
  | .record ⟨fields⟩ =>
    match arguments scopes fields with
    | .error fault => .error fault
    | .ok (parts, references) => .ok (.record (.ofList parts), references)

/-- The arguments that expressions under names become. -/
def arguments (scopes : Scopes) :
    List (String × Expr) → Except GraphError (List (String × Argument) × List Reference)
  | [] => .ok ([], [])
  | (name, e) :: rest =>
    match argument scopes e with
    | .error fault => .error fault
    | .ok (part, first) =>
      match arguments scopes rest with
      | .error fault => .error fault
      | .ok (parts, further) => .ok ((name, part) :: parts, first ++ further)

end

/-- The arguments that named expressions become. -/
def namedArguments (scopes : Scopes) (exprs : Named Expr) :
    Except GraphError (Named Argument × List Reference) :=
  match arguments scopes exprs.entries with
  | .error fault => .error fault
  | .ok (parts, references) => .ok (.ofList parts, references)

/-- The argument that an optional expression becomes. -/
def optionalArgument (scopes : Scopes) :
    Option Expr → Except GraphError (Option Argument × List Reference)
  | none => .ok (none, [])
  | some e =>
    match argument scopes e with
    | .error fault => .error fault
    | .ok (compiled, references) => .ok (some compiled, references)

/-- The clause that a guard becomes. -/
def whenClause (scopes : Scopes) :
    Option Condition → Except GraphError (Option WhenClause × List Reference)
  | none => .ok (none, [])
  | some condition =>
    match argument scopes condition.left with
    | .error fault => .error fault
    | .ok (left, first) =>
      match argument scopes condition.right with
      | .error fault => .error fault
      | .ok (right, further) =>
        .ok (some ⟨left, condition.comparator, right⟩, first ++ further)

/-- The container of a component. A result that is no record is its only
output. -/
def container (c : Component) : Container where
  component := c.function
  image := c.deployment.image
  packages := c.deployment.packages
  resources := c.deployment.hardware
  command := c.deployment.command
  outputs :=
    match c.returns with
    | .record schema => schema.fields
    | scalar => [("output", scalar)]

/-- Declare a task in the innermost pipeline. -/
def declare (name : String) : Scopes → Scopes
  | [] => [[name]]
  | scope :: outer => (scope ++ [name]) :: outer

/-- The siblings among the tasks that are read, at a level. -/
def siblings (level : Nat) (references : List Reference) : List String :=
  Expr.firstOccurrences
    ((references.filter fun reference => reference.level == level).map Reference.task)

/-- The tasks that are read outside of the pipeline of a level. -/
def outside (level : Nat) (references : List Reference) : List Reference :=
  references.filter fun reference => reference.level < level

/-- The kind of a task, with its guard and what it reads inside. -/
abbrev CompiledKind := Except GraphError (TaskKind × Option WhenClause × List Reference)

mutual

/-- What a node runs as a task. -/
def taskKind (scopes : Scopes) : Node → CompiledKind
  | .component c => .ok (.container (container c), none, [])
  | .pipeline ⟨_, _, children, returnValue, _, condition⟩ =>
    match whenClause scopes condition with
    | .error fault => .error fault
    | .ok (clause, guardReads) =>
      match tasks ([] :: scopes) scopes.length children with
      | .error fault => .error fault
      | .ok (inner, innerScopes, reads) =>
        match optionalArgument innerScopes returnValue with
        | .error fault => .error fault
        | .ok (output, outputReads) =>
          .ok (.dag inner output, clause,
            guardReads ++ reads ++ outside scopes.length outputReads)

/-- The tasks of the nodes of a pipeline at a level, with the names that are
visible after them and what they read outside. -/
def tasks (scopes : Scopes) (level : Nat) :
    List Node → Except GraphError (List Task × Scopes × List Reference)
  | [] => .ok ([], scopes, [])
  | child :: rest =>
    match namedArguments scopes child.inputs with
    | .error fault => .error fault
    | .ok (inputs, inputReads) =>
      match taskKind scopes child with
      | .error fault => .error fault
      | .ok (kind, clause, innerReads) =>
        let reads := inputReads ++ innerReads
        match tasks (declare child.name scopes) level rest with
        | .error fault => .error fault
        | .ok (further, final, furtherReads) =>
          .ok (⟨child.name, kind, inputs, siblings level reads, clause⟩ :: further, final,
            outside level reads ++ furtherReads)

end

end Compile

/-- The workflow of a pipeline. -/
def Pipeline.compile (p : Pipeline) : Except GraphError Workflow :=
  match Compile.namedArguments [[]] p.inputs with
  | .error fault => .error fault
  | .ok (inputs, _) =>
    match Compile.tasks [[]] 0 p.children with
    | .error fault => .error fault
    | .ok (tasks, scopes, _) =>
      match Compile.optionalArgument scopes p.returnValue with
      | .error fault => .error fault
      | .ok (output, _) => .ok ⟨p.name, inputs, tasks, output⟩

end Dataflow
