/-
# Workflow documents

A workflow is the compiled form of a pipeline, for a system that runs containers.
Its tasks keep the order of tracing; the dependencies of a task name the siblings
that it reads from.
-/

import Dataflow.Condition
import Dataflow.Deployment

namespace Dataflow

/-- What a task is given: a value, the output of a task or one field of it, or a record
of arguments. -/
inductive Argument where
  | literal (v : Value)
  | output (task : String) (field : Option String)
  | record (fields : Named Argument)
deriving Inhabited

/-- A comparison that the target system makes. -/
structure WhenClause where
  left : Argument
  comparator : Comparator
  right : Argument

/-- What a container runs. -/
structure Container where
  /-- The function of the component. -/
  component : String
  image : Option String
  /-- Further packages in the image. -/
  packages : List String
  resources : Hardware
  /-- The program and its leading arguments. -/
  command : List String
  outputs : List (String × ValueType)

mutual

/-- A task of a workflow. -/
structure Task where
  name : String
  kind : TaskKind
  arguments : Named Argument
  /-- The siblings that the task reads from, in order of first use. -/
  dependencies : List String
  guard : Option WhenClause

/-- What a task runs. -/
inductive TaskKind where
  | container (spec : Container)
  | dag (tasks : List Task) (output : Option Argument)

end

/-- A compiled pipeline. -/
structure Workflow where
  /-- The name of the root pipeline. -/
  name : String
  /-- The arguments that it was traced with. -/
  inputs : Named Argument
  tasks : List Task
  /-- The return value. -/
  output : Option Argument

/-- The first task of a name at the top of a workflow. -/
def Workflow.task? (workflow : Workflow) (name : String) : Option Task :=
  workflow.tasks.find? fun task => task.name == name

end Dataflow
