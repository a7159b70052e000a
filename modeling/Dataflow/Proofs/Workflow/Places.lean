/-
# Places in a workflow

Every argument in a workflow stands at a place, from which some tasks are in view: those
declared before it in the list of tasks around it, or in a list further out. The output of
a task means the innermost and latest task in view of its name. A task delivers a field if
the document says so: a container lists its outputs, and the output argument of a dag is a
record with this field or refers to a task that delivers it.
-/

import Dataflow.Proofs.FieldPath
import Dataflow.Workflow.Compile

namespace Dataflow

/-- The tasks in view from a place of a workflow: those declared before it in the list of
tasks around it, the latest first, then those in the lists further out. -/
abbrev TaskScopes := List (List Task)

namespace TaskScopes

/-- The names of the tasks in view, as the compiler keeps them. -/
def names (view : TaskScopes) : Compile.Scopes :=
  view.map fun tasks => (tasks.map Task.name).reverse

/-- A name means a task in view, the innermost and latest one of this name, from whose
own place the tasks of the last argument are in view. -/
inductive Declares (name : String) : TaskScopes → Task → TaskScopes → Prop where
  | here {task : Task} {before : List Task} {outer : TaskScopes} (hname : task.name = name) :
      Declares name ((task :: before) :: outer) task (before :: outer)
  | earlier {other task : Task} {before : List Task} {outer around : TaskScopes}
      (hother : other.name ≠ name) (hdeclares : Declares name (before :: outer) task around) :
      Declares name ((other :: before) :: outer) task around
  | further {task : Task} {outer around : TaskScopes} (hdeclares : Declares name outer task around) :
      Declares name ([] :: outer) task around

/-- A name that some scope has means a task in view. -/
theorem exists_declares {view : TaskScopes} {name : String} (hmem : name ∈ view.names.flatten) :
    ∃ task around, view.Declares name task around := by
  induction view with
  | nil => cases hmem
  | cons tasks outer ih =>
    induction tasks with
    | nil =>
      obtain ⟨task, around, hdeclares⟩ := ih (by simpa [names] using hmem)
      exact ⟨task, around, .further hdeclares⟩
    | cons first before ihbefore =>
      by_cases hfirst : first.name = name
      · exact ⟨first, _, .here hfirst⟩
      · have hlater : name ∈ (names (before :: outer)).flatten := by
          simpa [names, Ne.symm hfirst] using hmem
        obtain ⟨task, around, hdeclares⟩ := ihbefore hlater
        exact ⟨task, around, .earlier hfirst hdeclares⟩

end TaskScopes

namespace Argument

mutual

/-- The outputs of tasks in an argument, each with the field that is taken. -/
def outputs : Argument → List (String × Option String)
  | .literal _ => []
  | .output task field => [(task, field)]
  | .record ⟨fields⟩ => fieldOutputs fields

/-- The outputs of tasks in arguments under names. -/
def fieldOutputs : List (String × Argument) → List (String × Option String)
  | [] => []
  | (_, part) :: rest => outputs part ++ fieldOutputs rest

end

theorem fieldOutputs_eq_flatMap (fields : List (String × Argument)) :
    fieldOutputs fields = fields.flatMap fun field => outputs field.2 := by
  induction fields with
  | nil => rfl
  | cons field rest ih => rw [fieldOutputs, ih, List.flatMap_cons]

end Argument

/-- The operands of a guard. -/
def WhenClause.operands (clause : WhenClause) : List Argument := [clause.left, clause.right]

namespace Task

/-- The arguments and the operands of the guard of a task. -/
def given (task : Task) : List Argument :=
  task.arguments.values ++ task.guard.toList.flatMap WhenClause.operands

mutual

/-- The places inside a task, each with the tasks in view from it and the argument that
stands there. -/
def placesInside (view : TaskScopes) : TaskKind → List (TaskScopes × Argument)
  | .container _ => []
  | .dag tasks output =>
    placesAmong [] view tasks ++ output.toList.map fun argument => (tasks.reverse :: view, argument)

/-- The places of tasks in a list, after those that were declared before them. -/
def placesAmong (before : List Task) (outer : TaskScopes) :
    List Task → List (TaskScopes × Argument)
  | [] => []
  | task@⟨_, kind, _, _, _⟩ :: rest =>
    task.given.map (fun argument => (before :: outer, argument)) ++
      placesInside (before :: outer) kind ++ placesAmong (task :: before) outer rest

end

end Task

/-- The places of a workflow: those of its tasks, and those of its own inputs and output. -/
def Workflow.places (w : Workflow) : List (TaskScopes × Argument) :=
  w.inputs.values.map (fun argument => ([[]], argument)) ++ Task.placesAmong [] [] w.tasks ++
    w.output.toList.map fun argument => ([w.tasks.reverse], argument)

mutual

/-- What a task delivers according to the document, with the tasks in view from its
place: something at these paths of field names. -/
inductive Task.Delivers : TaskScopes → Task → List String → Prop where
  | whole {view : TaskScopes} {task : Task} : Task.Delivers view task []
  | container {view : TaskScopes} {task : Task} {spec : Container} {name : String}
      {type : ValueType} {path : List String} (hkind : task.kind = .container spec)
      (houtput : (name, type) ∈ spec.outputs) (hrest : type.Has path) :
      Task.Delivers view task (name :: path)
  /-- A dag delivers what its output argument does, with its own tasks in view. -/
  | dag {view : TaskScopes} {task : Task} {inner : List Task} {output : Argument}
      {path : List String} (hkind : task.kind = .dag inner (some output))
      (houtput : Argument.Delivers (inner.reverse :: view) output path) :
      Task.Delivers view task path

/-- What an argument delivers according to the document, with the tasks in view from its
place. -/
inductive Argument.Delivers : TaskScopes → Argument → List String → Prop where
  | whole {view : TaskScopes} {argument : Argument} : Argument.Delivers view argument []
  | literal {view : TaskScopes} {v : Value} {path : List String} (hhas : v.Has path) :
      Argument.Delivers view (.literal v) path
  | output {view around : TaskScopes} {name : String} {task : Task} {field : Option String}
      {path : List String} (hdeclares : view.Declares name task around)
      (hdelivers : Task.Delivers around task (field.toList ++ path)) :
      Argument.Delivers view (.output name field) path
  | record {view : TaskScopes} {fields : Named Argument} {name : String} {part : Argument}
      {path : List String} (hmem : (name, part) ∈ fields.entries)
      (hpart : Argument.Delivers view part path) :
      Argument.Delivers view (.record fields) (name :: path)

end

end Dataflow
