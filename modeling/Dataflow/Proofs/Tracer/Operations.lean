/-
# Operations keep the open pipelines

An operation that makes a node may open pipelines, and the scripts of their bodies may
record nodes, open further pipelines, fail, or go on after a failure. Whatever they do,
when the operation is done the same pipelines are open as before, and it has put the node
that it made after the nodes of the innermost one, or nothing if it failed.
-/

import Dataflow.Proofs.Tracer.Frames

namespace Dataflow

/-- An operation of a tracer that makes a node, by the type of what it makes: it records a
component, opens a pipeline and closes it again, or does so under a guard that it makes
first. -/
inductive Operation (σ : Type) : Type → Type 1 where
  | call (definition : ComponentDef) (arguments : List (String × Expr)) : Operation σ Component
  | callPositional (definition : ComponentDef) (arguments : List Expr) : Operation σ Component
  | apply (operator : Operator) (operands : List Expr) : Operation σ Component
  | nest (opening : Opening) (body : Args → Script σ (Option Expr)) : Operation σ Pipeline
  | guardedBy (left right : Expr) (comparator : Comparator) (body : Script σ Unit) :
      Operation σ Pipeline

namespace Operation

variable {σ α : Type}

/-- The operation as a script. -/
def script : Operation σ α → Script σ α
  | call definition arguments => .call definition arguments
  | callPositional definition arguments => .callPositional definition arguments
  | apply operator operands => .apply operator operands
  | nest opening body => .nest opening body
  | guardedBy left right comparator body => .guardedBy left right comparator body

/-- What the operation makes, as a node. -/
def node : Operation σ α → α → Node
  | call _ _ | callPositional _ _ | apply _ _ => .component
  | nest _ _ | guardedBy _ _ _ _ => .pipeline

/-- A guard that cannot be made opens nothing; one that is made opens a pipeline. -/
theorem run_guardedBy (left right : Expr) (comparator : Comparator) (body : Script σ Unit)
    (t : Tracer) (s : σ) :
    (guardedBy left right comparator body).script.run t s =
      match Condition.make left right comparator with
      | .error fault => (.error fault, t, s)
      | .ok condition => (Script.guarded condition body).run t s := by
  rw [script, Script.guardedBy, Script.run]
  cases Condition.make left right comparator <;> rfl

/-- An operation appends the node that it makes. -/
theorem appends_run (operation : Operation σ α) (t : Tracer) (s : σ) :
    t.Appends operation.node
      ((operation.script.run t s).1, (operation.script.run t s).2.1) := by
  cases operation with
  | call d arguments => exact t.appends_call d arguments
  | callPositional d arguments => exact t.appends_callPositional d arguments
  | apply operator operands => exact t.appends_apply operator operands
  | nest opening body =>
    exact (Script.appends_nest (fun arguments => (body arguments).builds_run) t s).1
  | guardedBy left right comparator body =>
    rw [run_guardedBy]
    cases Condition.make left right comparator with
    | error fault => rfl
    | ok condition => exact (Script.appends_nest (fun _ => Script.builds_run _) t s).1

/-- When an operation is done, the open pipelines are those from before: as many, with the
names, inputs and guards that they had, and with the nodes that they had. If it made a
node, this one comes after the nodes of the innermost pipeline; with no pipeline open it
stands nowhere. If it failed, nothing was added. -/
theorem frames_of_run (operation : Operation σ α) (t : Tracer) (s : σ) :
    (∀ made t' s', operation.script.run t s = (.ok made, t', s') →
      t'.frames = Frame.extend t.frames [operation.node made]) ∧
    ∀ fault t' s', operation.script.run t s = (.error fault, t', s') → t'.frames = t.frames := by
  have happends := operation.appends_run t s
  constructor
  · intro made t' s' hrun
    rw [hrun] at happends
    exact happends
  · intro fault t' s' hrun
    rw [hrun] at happends
    exact happends

end Operation

namespace Recovery

/-- A tracer with one open pipeline. -/
def opened : Tracer :=
  (Tracer.start { Settings.default with suffixLength := 0 } ⟨fun _ => 0, 0⟩).push
    ⟨"main", .empty, [], none⟩

/-- A nested pipeline whose body fails. -/
def lost : Operation Unit Pipeline :=
  .nest (.scope "lost") fun _ => .fail (.contract .noDependency)

/-- A nested pipeline whose body goes on after this failure. -/
def kept : Operation Unit Pipeline :=
  .nest (.scope "kept") fun _ => .andThen (.attempt lost.script) fun _ => .result none

end Recovery

/-- A nested pipeline is recorded although another one failed in its body, and one that
fails itself leaves no trace. -/
theorem frames_of_run_recovery :
    (∃ made t' s', Recovery.kept.script.run Recovery.opened () = (.ok made, t', s') ∧
      t'.frames = Frame.extend Recovery.opened.frames [.pipeline made]) ∧
    ∃ fault t' s', Recovery.lost.script.run Recovery.opened () = (.error fault, t', s') ∧
      t'.frames = Recovery.opened.frames := by
  have hkept := (Recovery.kept.frames_of_run Recovery.opened ()).1
  have hlost := (Recovery.lost.frames_of_run Recovery.opened ()).2
  exact ⟨⟨_, _, _, rfl, hkept _ _ _ rfl⟩, ⟨_, _, _, rfl, hlost _ _ _ rfl⟩⟩

end Dataflow
