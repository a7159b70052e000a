/-
# Scripts

A script is a program over a tracer: the body of a pipeline, or the whole of what
someone does with a tracer. It records nodes, opens pipelines with bodies that
are scripts, fails, recovers from failures, and keeps a state of its own, of type
`σ`, which no failure takes back.

Scripts are data, so that what holds of every script can be shown by induction.
`Script.run` runs one. A pipeline is open exactly while its body runs.
-/

import Dataflow.Tracer

namespace Dataflow

/-- A program over a tracer with a state of its own. -/
inductive Script (σ : Type) : Type → Type 1 where
  | result {α : Type} (a : α) : Script σ α
  | fail {α : Type} (fault : GraphError) : Script σ α
  | andThen {α β : Type} (first : Script σ α) (next : α → Script σ β) : Script σ β
  /-- Run a script and give its failure as a result. -/
  | attempt {α : Type} (script : Script σ α) : Script σ (Except GraphError α)
  | withState {α : Type} (use : σ → α × σ) : Script σ α
  | inspect {α : Type} (look : Tracer → α) : Script σ α
  | register (operator : Operator) (overload : Overload) : Script σ Unit
  | call (definition : ComponentDef) (arguments : List (String × Expr)) : Script σ Component
  | callPositional (definition : ComponentDef) (arguments : List Expr) : Script σ Component
  | apply (operator : Operator) (operands : List Expr) : Script σ Component
  | nest (opening : Opening) (body : Args → Script σ (Option Expr)) : Script σ Pipeline

namespace Script

variable {σ α : Type}

instance : Monad (Script σ) where
  pure := result
  bind := andThen

instance : MonadExceptOf GraphError (Script σ) where
  throw := fail
  tryCatch script recover :=
    .andThen (.attempt script) fun
      | .ok a => .result a
      | .error fault => recover fault

/-- The result of an action that may fail. -/
def ofExcept (outcome : Except GraphError α) : Script σ α :=
  match outcome with
  | .ok a => .result a
  | .error fault => .fail fault

/-- Trace a pipeline definition with a body and arguments. -/
def invoke (definition : PipelineDef) (arguments : List (String × Expr))
    (body : Args → Script σ (Option Expr)) : Script σ Pipeline :=
  .nest (.invoke definition arguments) body

/-- Trace an ad hoc pipeline. -/
def scope (name : String) (body : Script σ (Option Expr)) : Script σ Pipeline :=
  .nest (.scope name) fun _ => body

/-- Trace a pipeline guarded by a condition. -/
def guarded (condition : Condition) (body : Script σ Unit) : Script σ Pipeline :=
  .nest (.guarded condition) fun _ => .andThen body fun _ => .result none

/-- Trace a pipeline guarded by a comparison. -/
def guardedBy (left right : Expr) (comparator : Comparator) (body : Script σ Unit) :
    Script σ Pipeline :=
  .andThen (ofExcept (Condition.make left right comparator)) fun condition =>
    guarded condition body

/-- Trace a pipeline that runs after other nodes. -/
def dependsOn (dependencies : List Expr) (body : Script σ Unit) : Script σ Pipeline :=
  .nest (.dependsOn dependencies) fun _ => .andThen body fun _ => .result none

/-- Run a script on a tracer and a state. Both are handed on by a script that
fails. -/
def run : {α : Type} → Script σ α → Tracer → σ → Except GraphError α × Tracer × σ
  | _, .result a, t, s => (.ok a, t, s)
  | _, .fail fault, t, s => (.error fault, t, s)
  | _, .andThen first next, t, s =>
    match first.run t s with
    | (.error fault, t', s') => (.error fault, t', s')
    | (.ok a, t', s') => (next a).run t' s'
  | _, .attempt script, t, s =>
    match script.run t s with
    | (ended, t', s') => (.ok ended, t', s')
  | _, .withState use, t, s =>
    match use s with
    | (a, s') => (.ok a, t, s')
  | _, .inspect look, t, s => (.ok (look t), t, s)
  | _, .register operator overload, t, s =>
    (.ok (), { t with registry := t.registry.register operator overload }, s)
  | _, .call definition arguments, t, s =>
    match t.call definition arguments with
    | (made, t') => (made, t', s)
  | _, .callPositional definition arguments, t, s =>
    match t.callPositional definition arguments with
    | (made, t') => (made, t', s)
  | _, .apply operator operands, t, s =>
    match t.apply operator operands with
    | (made, t') => (made, t', s)
  | _, .nest opening body, t, s =>
    match t.prepare opening with
    | (.error fault, t') => (.error fault, t', s)
    | (.ok (frame, declared), t') =>
      match (body ⟨frame.name, frame.inputs⟩).run (t'.push frame) s with
      | (ended, t'', s') =>
        match t''.pop declared ended with
        | (made, t''') => (made, t''', s')

end Script

end Dataflow
