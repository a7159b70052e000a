/-
# Why pipelines are refused

A pipeline is not compiled for one of two reasons: it reads a task that is not visible where it
is read, or it breaks a rule of graph construction. Each part of the compiler fails for one of
these reasons or because a part that it uses does.
-/

import Dataflow.Proofs.Workflow.Tasks

namespace Dataflow

namespace Compile

/-- An error with which the compiler refuses a pipeline: a task that is read is not visible, or a
rule of graph construction is broken. -/
inductive Refusal : GraphError → Prop where
  | name (task : String) : Refusal (.nameNotProduced task)
  | contract (violation : Violation) : Refusal (.contract violation)

/-- Where nothing is made of a pipeline, it was refused. -/
def Refuses {α : Type} (made : Except GraphError α) : Prop :=
  ∀ fault, made = .error fault → Refusal fault

variable {α β : Type} {scopes : Scopes}

theorem refuses_ok (a : α) : Refuses (.ok a) := nofun

theorem refuses_error {fault : GraphError} (h : Refusal fault) :
    Refuses (.error fault : Except GraphError α) := by
  intro other hother
  exact Except.error.inj hother ▸ h

/-- What fails because a part of it does refuses what the part refuses. -/
theorem Refuses.of_part {part : Except GraphError β} (h : Refuses part) {fault : GraphError}
    (hpart : part = .error fault) : Refuses (.error fault : Except GraphError α) :=
  refuses_error (h fault hpart)

theorem refuses_typeOf (e : Expr) : Refuses e.typeOf := by
  intro fault herror
  unfold Expr.typeOf at herror
  cases hinfer : e.infer with
  | ok type => simp [hinfer, Except.mapError] at herror
  | error violation =>
    simp only [hinfer, Except.mapError, Except.error.injEq] at herror
    exact herror ▸ .contract violation

theorem refuses_taskOutput (task : String) (field : Option String) :
    Refuses (taskOutput scopes task field) := by
  unfold taskOutput
  split
  · exact refuses_ok _
  · exact refuses_error (.name task)

theorem refusal_missing (parent : Expr) (selector : Selector) :
    Refusal (missing parent selector) := by
  cases selector <;> exact .contract _

theorem refuses_outputField (parent : Expr) (type : ValueType) (selector : Selector) :
    Refuses (outputField parent type selector) := by
  unfold outputField
  split
  · dsimp only
    split
    · exact refuses_ok _
    · exact refuses_error (refusal_missing parent selector)
  · exact refuses_error (.contract _)

theorem refuses_pickArgument (parent : Expr) (selector : Selector) (whole : Argument) :
    Refuses (pickArgument parent selector whole) := by
  unfold pickArgument
  split
  · split
    · exact refuses_ok _
    · exact refuses_error (refusal_missing parent selector)
  · split
    · exact refuses_ok _
    · exact refuses_error (refusal_missing parent selector)
  · exact refuses_error (refusal_missing parent selector)

theorem refuses_nodeOutput (ref : NodeRef) (selector : Selector) :
    Refuses (nodeOutput scopes ref selector) := by
  unfold nodeOutput
  split
  · rename_i fault htype
    exact (refuses_typeOf _).of_part htype
  · split
    · rename_i fault hfield
      exact (refuses_outputField _ _ _).of_part hfield
    · exact refuses_taskOutput _ _

/-- A selection is refused for itself or with what it selects from. -/
theorem refuses_selected {parent : Expr} (hparent : Refuses (argument scopes parent))
    (selector : Selector) : Refuses (selected scopes parent selector) := by
  unfold selected
  split
  · exact refuses_nodeOutput _ _
  · unfold pickFrom
    split
    · rename_i fault hwhole
      exact hparent.of_part hwhole
    · split
      · rename_i fault hpart
        exact (refuses_pickArgument _ _ _).of_part hpart
      · exact refuses_ok _

mutual

theorem refuses_argument : ∀ e : Expr, Refuses (argument scopes e)
  | .literal v => by
    rw [argument]
    exact refuses_ok _
  | .node ref => by
    rw [argument]
    exact refuses_taskOutput _ _
  | .field parent name => by
    rw [argument_field]
    exact refuses_selected (refuses_argument parent) _
  | .index parent position => by
    rw [argument_index]
    exact refuses_selected (refuses_argument parent) _
  | .record ⟨fields⟩ => by
    rw [argument]
    split
    · rename_i fault hparts
      exact (refuses_arguments fields).of_part hparts
    · exact refuses_ok _

theorem refuses_arguments : ∀ fields : List (String × Expr), Refuses (arguments scopes fields)
  | [] => by
    rw [arguments]
    exact refuses_ok _
  | (name, e) :: rest => by
    rw [arguments]
    split
    · rename_i fault hpart
      exact (refuses_argument e).of_part hpart
    · split
      · rename_i fault hothers
        exact (refuses_arguments rest).of_part hothers
      · exact refuses_ok _

end

theorem refuses_namedArguments (exprs : Named Expr) : Refuses (namedArguments scopes exprs) := by
  unfold namedArguments
  split
  · rename_i fault hparts
    exact (refuses_arguments _).of_part hparts
  · exact refuses_ok _

theorem refuses_optionalArgument (returnValue : Option Expr) :
    Refuses (optionalArgument scopes returnValue) := by
  unfold optionalArgument
  split
  · exact refuses_ok _
  · split
    · rename_i fault hcompiled
      exact (refuses_argument _).of_part hcompiled
    · exact refuses_ok _

theorem refuses_whenClause (condition : Option Condition) :
    Refuses (whenClause scopes condition) := by
  unfold whenClause
  split
  · exact refuses_ok _
  · split
    · rename_i fault hleft
      exact (refuses_argument _).of_part hleft
    · split
      · rename_i fault hright
        exact (refuses_argument _).of_part hright
      · exact refuses_ok _

mutual

theorem refuses_taskKind : ∀ {scopes : Scopes} (node : Node), Refuses (taskKind scopes node)
  | scopes, .component c => by
    rw [taskKind]
    exact refuses_ok _
  | scopes, .pipeline ⟨_, _, children, _, _, _⟩ => by
    rw [taskKind]
    split
    · rename_i fault hclause
      exact (refuses_whenClause _).of_part hclause
    · split
      · rename_i fault hinner
        exact (refuses_tasks children).of_part hinner
      · split
        · rename_i fault houtput
          exact (refuses_optionalArgument _).of_part houtput
        · exact refuses_ok _

theorem refuses_tasks : ∀ {scopes : Scopes} {level : Nat} (nodes : List Node),
    Refuses (tasks scopes level nodes)
  | scopes, level, [] => by
    rw [tasks]
    exact refuses_ok _
  | scopes, level, child :: rest => by
    rw [tasks]
    split
    · rename_i fault hinputs
      exact (refuses_namedArguments _).of_part hinputs
    · split
      · rename_i fault hkind
        exact (refuses_taskKind child).of_part hkind
      · dsimp only
        split
        · rename_i fault hrest
          exact (refuses_tasks rest).of_part hrest
        · exact refuses_ok _

end

end Compile

/-- A pipeline that is not compiled was refused. -/
theorem Pipeline.refuses_compile (p : Pipeline) : Compile.Refuses p.compile := by
  unfold compile
  split
  · rename_i fault hinputs
    exact (Compile.refuses_namedArguments _).of_part hinputs
  · split
    · rename_i fault htasks
      exact (Compile.refuses_tasks _).of_part htasks
    · split
      · rename_i fault houtput
        exact (Compile.refuses_optionalArgument _).of_part houtput
      · exact Compile.refuses_ok _

end Dataflow
