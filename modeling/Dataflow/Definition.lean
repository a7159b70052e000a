/-
# Definitions of components and pipelines

A definition declares the parameters and the result of a component or of a
pipeline. Using a component definition runs nothing; it binds the arguments to
the parameters and records a node.
-/

import Dataflow.Pipeline

namespace Dataflow

/-- A parameter of a component. -/
structure Parameter where
  name : String
  type : ValueType
  /-- What stands in for a missing argument. -/
  fallback : Option Value

/-- The definition of a component. -/
structure ComponentDef where
  /-- The function that the component runs; generated names are based on it. -/
  function : String
  /-- A fixed name for the node. -/
  explicitName : Option String
  parameters : List Parameter
  returns : Option ValueType
  deployment : Deployment
  /-- The computation, if the component can run in process. -/
  body : Option Body

/-- A parameter of a pipeline. Without a type it takes anything. -/
structure PipelineParameter where
  name : String
  /-- The type that an argument must have, if any. -/
  type : Option ValueType

/-- What a pipeline definition declares. Its body is a script. -/
structure PipelineDef where
  /-- The function that builds the pipeline; generated names are based on it. -/
  function : String
  explicitName : Option String
  parameters : List PipelineParameter
  returns : Option ValueType

/-- Check fields one after another against the names before them: they must be
scalars of distinct names. -/
def RecordSchema.checkFields (record : String) (seen : List String) :
    List (String × ValueType) → Except GraphError Unit
  | [] => .ok ()
  | (field, type) :: rest =>
    if !type.isScalar then .error (.contract (.nestedRecord record field))
    else if seen.contains field then .error (.contract (.repeatedField record field))
    else checkFields record (field :: seen) rest

/-- The record schema of these fields, which must be scalars of distinct names. -/
def RecordSchema.make (name : String) (fields : List (String × ValueType)) :
    Except GraphError RecordSchema :=
  (checkFields name [] fields).map fun _ => ⟨name, fields⟩

namespace ComponentDef

/-- The arguments of a call by name. Each must name a parameter, and none may be
given twice. -/
def collect (d : ComponentDef) (given : Named Expr) :
    List (String × Expr) → Except GraphError (Named Expr)
  | [] => .ok given
  | (name, e) :: rest =>
    if !d.parameters.any fun parameter => parameter.name == name then
      .error (.contract (.unknownParameter .component d.function name))
    else if given.contains name then
      .error (.contract (.repeatedArgument .component d.function name))
    else collect d (given.insert name e) rest

/-- Bind parameters one after another: to the argument of their name, which is
used up, or to their fallback. -/
def bindAll (d : ComponentDef) (given bound : Named Expr) :
    List Parameter → Except GraphError (Named Expr)
  | [] => .ok bound
  | parameter :: rest =>
    match (given.get? parameter.name).or (parameter.fallback.map .literal) with
    | none => .error (.contract (.missingArgument d.function parameter.name))
    | some e =>
      match e.typeOf with
      | .error fault => .error fault
      | .ok found =>
        if parameter.type.accepts found then
          bindAll d (given.erase parameter.name) (bound.insert parameter.name e) rest
        else
          .error (.contract
            (.argumentType .component d.function parameter.name parameter.type found))

/-- The inputs of a node made from the definition with these arguments. -/
def bind (d : ComponentDef) (arguments : List (String × Expr)) :
    Except GraphError (Named Expr) :=
  match d.collect .empty arguments with
  | .error fault => .error fault
  | .ok given => d.bindAll given .empty d.parameters

/-- Arguments in the order of the parameters, by name. There may be fewer, but
not more. -/
def nameArguments (d : ComponentDef) (arguments : List Expr) :
    Except GraphError (List (String × Expr)) :=
  if d.parameters.length < arguments.length then
    .error (.contract (.tooManyArguments d.function d.parameters.length arguments.length))
  else .ok ((d.parameters.map Parameter.name).zip arguments)

end ComponentDef

namespace PipelineDef

/-- Check the type of an argument of a typed parameter. -/
def checkType (d : PipelineDef) (parameter : PipelineParameter) (e : Expr) :
    Except GraphError Unit :=
  match parameter.type with
  | none => .ok ()
  | some declared =>
    match e.typeOf with
    | .error fault => .error fault
    | .ok found =>
      if declared.accepts found then .ok ()
      else .error (.contract (.argumentType .pipeline d.function parameter.name declared found))

/-- Bind arguments one after another. Each must name a parameter and have its
type, and none may be given twice. -/
def bindAll (d : PipelineDef) (bound : Named Expr) :
    List (String × Expr) → Except GraphError (Named Expr)
  | [] => .ok bound
  | (name, e) :: rest =>
    match d.parameters.find? fun parameter => parameter.name == name with
    | none => .error (.contract (.unknownParameter .pipeline d.function name))
    | some parameter =>
      match d.checkType parameter e with
      | .error fault => .error fault
      | .ok () =>
        if bound.contains name then
          .error (.contract (.repeatedArgument .pipeline d.function name))
        else bindAll d (bound.insert name e) rest

/-- The inputs of a pipeline made from the definition with these arguments. -/
def bind (d : PipelineDef) (arguments : List (String × Expr)) :
    Except GraphError (Named Expr) :=
  d.bindAll .empty arguments

end PipelineDef

/-- The arguments that the body of a pipeline sees. -/
structure Args where
  /-- The name of the pipeline. -/
  pipeline : String
  /-- The arguments by parameter name. -/
  values : Named Expr

/-- The argument of a name. -/
def Args.get (arguments : Args) (name : String) : Except GraphError Expr :=
  match arguments.values.get? name with
  | some e => .ok e
  | none => .error (.contract (.argumentNotGiven arguments.pipeline name))

end Dataflow
