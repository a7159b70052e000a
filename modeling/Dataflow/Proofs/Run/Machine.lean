/-
# Runs step by step

A run visits moments. At each of them some pipelines are open, the innermost first,
each with the nodes that it has behind it and those that it has before it. A moment
moves on by running a component, skipping a guarded pipeline, entering a pipeline or
leaving one, or it fails. `Backend.Reaches` holds of the moments of a run, so what
holds at every moment can be shown by induction on the moves, and `Backend.run` ends
where the moves end.
-/

import Dataflow.Proofs.Expr.Reading
import Dataflow.Proofs.Named
import Dataflow.Run

namespace Dataflow

/-- The status of a node with this value. -/
def StepStatus.ofValue : Option Value → StepStatus
  | none => .skipped
  | some _ => .completed

/-- A pipeline that is open during a run. -/
structure Activation where
  path : String
  pipeline : Pipeline
  /-- The values of its inputs. -/
  arguments : Inputs
  /-- The nodes behind, each with its value, or with nothing if it was skipped. -/
  past : List (Node × Option Value)
  /-- The nodes ahead. -/
  future : List Node

/-- The pipelines that are open during a run, the innermost first. -/
abbrev Stack := List Activation

namespace Activation

/-- The values of the nodes behind that completed, by name and in order. -/
def completed (a : Activation) : List (String × Value) :=
  a.past.filterMap fun entry => entry.2.map fun v => (entry.1.name, v)

/-- What the pipeline puts into its value table, in order: its arguments, then the
values of the nodes behind that completed. -/
def bindings (a : Activation) : List (String × Value) :=
  a.arguments.entries ++ a.completed

/-- The pipeline as it is opened, with everything ahead. -/
def opened (path : String) (p : Pipeline) (arguments : Inputs) : Activation :=
  ⟨path, p, arguments, [], p.children⟩

/-- The pipeline with one more node behind and the rest ahead. -/
def pass (a : Activation) (node : Node) (value : Option Value) (rest : List Node) : Activation :=
  { a with past := a.past ++ [(node, value)], future := rest }

/-- The path of a node of the pipeline. -/
def pathOf (a : Activation) (node : Node) : String := a.path ++ "/" ++ node.name

@[simp]
theorem pass_path (a : Activation) (node : Node) (value : Option Value) (rest : List Node) :
    (a.pass node value rest).path = a.path := rfl

@[simp]
theorem pass_pipeline (a : Activation) (node : Node) (value : Option Value) (rest : List Node) :
    (a.pass node value rest).pipeline = a.pipeline := rfl

@[simp]
theorem pass_arguments (a : Activation) (node : Node) (value : Option Value)
    (rest : List Node) : (a.pass node value rest).arguments = a.arguments := rfl

@[simp]
theorem pass_past (a : Activation) (node : Node) (value : Option Value) (rest : List Node) :
    (a.pass node value rest).past = a.past ++ [(node, value)] := rfl

@[simp]
theorem pass_future (a : Activation) (node : Node) (value : Option Value) (rest : List Node) :
    (a.pass node value rest).future = rest := rfl

theorem mem_completed {a : Activation} {name : String} {v : Value} :
    (name, v) ∈ a.completed ↔ ∃ node, (node, some v) ∈ a.past ∧ node.name = name := by
  simp only [completed, List.mem_filterMap, Option.map_eq_some_iff, Prod.mk.injEq, Prod.exists]
  constructor
  · rintro ⟨node, value, hmem, w, rfl, rfl, rfl⟩
    exact ⟨node, hmem, rfl⟩
  · rintro ⟨node, hmem, rfl⟩
    exact ⟨node, some v, hmem, v, rfl, rfl, rfl⟩

end Activation

namespace Stack

/-- The value table of the innermost open pipeline: what each open pipeline puts into
it, the outermost first. -/
def table : Stack → ValueTable
  | [] => .empty
  | a :: outer => (table outer).insertAll a.bindings

/-- The innermost and last binding of a name. -/
def binding? (stack : Stack) (name : String) : Option Value :=
  stack.findSome? fun a => Named.find name a.bindings.reverse

/-- The table holds the innermost and last binding of each name. -/
theorem get?_table (stack : Stack) (name : String) :
    (table stack).get? name = binding? stack name := by
  induction stack with
  | nil => rfl
  | cons a outer ih =>
    rw [table, Named.get?_insertAll, ih, binding?, binding?, List.findSome?_cons]
    cases Named.find name a.bindings.reverse <;> rfl

/-- The table of a pipeline that is opened extends the one around it by its
arguments. -/
theorem table_opened (path : String) (p : Pipeline) (arguments : Inputs) (outer : Stack) :
    table (Activation.opened path p arguments :: outer) = (table outer).merge arguments := by
  simp [table, Activation.opened, Activation.bindings, Activation.completed, Named.merge]

theorem table_pass_none (a : Activation) (node : Node) (rest : List Node) (outer : Stack) :
    table (a.pass node none rest :: outer) = table (a :: outer) := by
  simp [table, Activation.bindings, Activation.completed]

theorem table_pass_some (a : Activation) (node : Node) (v : Value) (rest : List Node)
    (outer : Stack) :
    table (a.pass node (some v) rest :: outer) = (table (a :: outer)).insert node.name v := by
  have hbindings : (a.pass node (some v) rest).bindings = a.bindings ++ [(node.name, v)] := by
    simp [Activation.bindings, Activation.completed]
  rw [table, table, hbindings, Named.insertAll_append]
  rfl

end Stack

/-- A moment of a run. -/
structure Moment (σ : Type) where
  stack : Stack
  /-- The steps taken so far and the state of the backend. -/
  state : RunState σ

namespace Backend

variable {σ : Type}

/-- One moment of a run follows another: the next node is a component that runs, or a pipeline that
is skipped or entered, or there is no next node and the pipeline is left. -/
inductive Moves (backend : Backend σ) : Moment σ → Moment σ → Prop where
  | run {a : Activation} {outer : Stack} {state after : RunState σ} {c : Component}
      {rest : List Node} {inputs : Inputs} {v : Value}
      (hnext : a.future = .component c :: rest)
      (hinputs : Expr.resolveAll (Stack.table (a :: outer)) c.inputs = .ok inputs)
      (hrun : backend.execute c inputs state = (.ok v, after)) :
      Moves backend ⟨a :: outer, state⟩
        ⟨a.pass (.component c) (some v) rest :: outer,
          after.note (a.pathOf (.component c)) .completed⟩
  | skip {a : Activation} {outer : Stack} {state : RunState σ} {q : Pipeline}
      {rest : List Node} {inputs : Inputs}
      (hnext : a.future = .pipeline q :: rest)
      (hinputs : Expr.resolveAll (Stack.table (a :: outer)) q.inputs = .ok inputs)
      (hguard : Condition.holds (Stack.table (a :: outer)) q.condition = .ok false) :
      Moves backend ⟨a :: outer, state⟩
        ⟨a.pass (.pipeline q) none rest :: outer, state.note (a.pathOf (.pipeline q)) .skipped⟩
  | enter {a : Activation} {outer : Stack} {state : RunState σ} {q : Pipeline}
      {rest : List Node} {inputs : Inputs}
      (hnext : a.future = .pipeline q :: rest)
      (hinputs : Expr.resolveAll (Stack.table (a :: outer)) q.inputs = .ok inputs)
      (hguard : Condition.holds (Stack.table (a :: outer)) q.condition = .ok true) :
      Moves backend ⟨a :: outer, state⟩
        ⟨.opened (a.pathOf (.pipeline q)) q inputs :: a :: outer, state⟩
  /-- A pipeline with nothing ahead is left, and its value is put into the table around
  it. -/
  | leave {inside a : Activation} {outer : Stack} {state : RunState σ} {rest : List Node}
      {value : Option Value} {v : Value}
      (hdone : inside.future = [])
      (hnext : a.future = .pipeline inside.pipeline :: rest)
      (hvalue : Expr.resolveOption (Stack.table (inside :: a :: outer))
        inside.pipeline.returnValue = .ok value)
      (hsettle : inside.pipeline.settle value = .ok v) :
      Moves backend ⟨inside :: a :: outer, state⟩
        ⟨a.pass (.pipeline inside.pipeline) (some v) rest :: outer,
          state.note (a.pathOf (.pipeline inside.pipeline)) .completed⟩

/-- The moments of a run, from that at which the root pipeline is opened. -/
inductive Reaches (backend : Backend σ) (p : Pipeline) (s : σ) : Moment σ → Prop where
  | start {inputs : Inputs} (hinputs : Expr.resolveAll .empty p.inputs = .ok inputs) :
      Reaches backend p s ⟨[.opened p.name p inputs], ⟨[], s⟩⟩
  | move {m m' : Moment σ} (hreach : Reaches backend p s m) (hmove : backend.Moves m m') :
      Reaches backend p s m'

/-- A moment of a run fails, with what the run has done until then: an input of the next node, its
guard or the return value has no value, the next component gives none, or what a nested pipeline
returns is not of the declared type. -/
inductive Fails (backend : Backend σ) : Moment σ → GraphError → RunState σ → Prop where
  | input {a : Activation} {outer : Stack} {state : RunState σ} {node : Node}
      {rest : List Node} {fault : GraphError}
      (hnext : a.future = node :: rest)
      (hinputs : Expr.resolveAll (Stack.table (a :: outer)) node.inputs = .error fault) :
      Fails backend ⟨a :: outer, state⟩ fault state
  | guard {a : Activation} {outer : Stack} {state : RunState σ} {q : Pipeline}
      {rest : List Node} {fault : GraphError}
      (hnext : a.future = .pipeline q :: rest)
      (hguard : Condition.holds (Stack.table (a :: outer)) q.condition = .error fault) :
      Fails backend ⟨a :: outer, state⟩ fault state
  | run {a : Activation} {outer : Stack} {state after : RunState σ} {c : Component}
      {rest : List Node} {inputs : Inputs} {fault : GraphError}
      (hnext : a.future = .component c :: rest)
      (hinputs : Expr.resolveAll (Stack.table (a :: outer)) c.inputs = .ok inputs)
      (hrun : backend.execute c inputs state = (.error fault, after)) :
      Fails backend ⟨a :: outer, state⟩ fault after
  | result {a : Activation} {outer : Stack} {state : RunState σ} {fault : GraphError}
      (hdone : a.future = [])
      (hvalue : Expr.resolveOption (Stack.table (a :: outer)) a.pipeline.returnValue =
        .error fault) :
      Fails backend ⟨a :: outer, state⟩ fault state
  | settle {inside a : Activation} {outer : Stack} {state : RunState σ} {value : Option Value}
      {fault : GraphError}
      (hdone : inside.future = [])
      (hvalue : Expr.resolveOption (Stack.table (inside :: a :: outer))
        inside.pipeline.returnValue = .ok value)
      (hsettle : inside.pipeline.settle value = .error fault) :
      Fails backend ⟨inside :: a :: outer, state⟩ fault state

/-- What a node gives at a moment of a run: the reconstructed result of a component,
the settled return value of a pipeline, or nothing if its guard is false. -/
inductive Yields (backend : Backend σ) (m : Moment σ) : Node → Option Value → Prop where
  | component {c : Component} {inputs : Inputs} {v : Value} {after : RunState σ}
      (hinputs : Expr.resolveAll (Stack.table m.stack) c.inputs = .ok inputs)
      (hrun : backend.execute c inputs m.state = (.ok v, after)) :
      Yields backend m (.component c) (some v)
  | skipped {a : Activation} {outer : Stack} {q : Pipeline} {rest : List Node} {inputs : Inputs}
      (hstack : m.stack = a :: outer) (hnext : a.future = .pipeline q :: rest)
      (hinputs : Expr.resolveAll (Stack.table m.stack) q.inputs = .ok inputs)
      (hguard : Condition.holds (Stack.table m.stack) q.condition = .ok false) :
      Yields backend m (.pipeline q) none
  | pipeline {q : Pipeline} {value : Option Value} {v : Value}
      (hvalue : Expr.resolveOption (Stack.table m.stack) q.returnValue = .ok value)
      (hsettle : q.settle value = .ok v) :
      Yields backend m (.pipeline q) (some v)

theorem steps_of_execute {backend : Backend σ} {c : Component} {inputs : Inputs}
    {state after : RunState σ} {result : Except GraphError Value}
    (hrun : backend.execute c inputs state = (result, after)) : after.steps = state.steps := by
  unfold execute at hrun
  split at hrun
  all_goals
    obtain ⟨-, rfl⟩ := Prod.mk.inj hrun
    rfl

/-- Moves keep the steps taken so far. -/
theorem Moves.steps {backend : Backend σ} {m m' : Moment σ} (h : backend.Moves m m') :
    m.state.steps <+: m'.state.steps := by
  cases h with
  | run _ _ hrun =>
    rw [← steps_of_execute hrun]
    exact List.prefix_append _ _
  | skip _ _ _ => exact List.prefix_append _ _
  | enter _ _ _ => exact List.prefix_rfl
  | leave _ _ _ _ => exact List.prefix_append _ _

/-- A node behind an open pipeline was behind it before the move, or the move passed it
with what it gave and noted its step. -/
theorem Moves.past {backend : Backend σ} {m m' : Moment σ} (h : backend.Moves m m')
    {a : Activation} (ha : a ∈ m'.stack) {node : Node} {value : Option Value}
    (hmem : (node, value) ∈ a.past) :
    (∃ before ∈ m.stack, before.path = a.path ∧ (node, value) ∈ before.past) ∨
      backend.Yields m node value ∧ ⟨a.pathOf node, .ofValue value⟩ ∈ m'.state.steps := by
  cases h with
  | @run top outer state after c rest inputs v hnext hinputs hrun =>
    rcases List.mem_cons.mp ha with rfl | houter
    · rcases List.mem_append.mp hmem with hbefore | hpassed
      · exact .inl ⟨top, List.mem_cons_self, rfl, hbefore⟩
      · obtain ⟨rfl, rfl⟩ := Prod.mk.inj (List.mem_singleton.mp hpassed)
        exact .inr ⟨.component hinputs hrun, List.mem_append_right _ List.mem_cons_self⟩
    · exact .inl ⟨a, List.mem_cons_of_mem _ houter, rfl, hmem⟩
  | @skip top outer state q rest inputs hnext hinputs hguard =>
    rcases List.mem_cons.mp ha with rfl | houter
    · rcases List.mem_append.mp hmem with hbefore | hpassed
      · exact .inl ⟨top, List.mem_cons_self, rfl, hbefore⟩
      · obtain ⟨rfl, rfl⟩ := Prod.mk.inj (List.mem_singleton.mp hpassed)
        exact .inr ⟨.skipped rfl hnext hinputs hguard, List.mem_append_right _ List.mem_cons_self⟩
    · exact .inl ⟨a, List.mem_cons_of_mem _ houter, rfl, hmem⟩
  | enter hnext hinputs hguard =>
    rcases List.mem_cons.mp ha with rfl | houter
    · simp [Activation.opened] at hmem
    · exact .inl ⟨a, houter, rfl, hmem⟩
  | @leave inside top outer state rest value v hdone hnext hvalue hsettle =>
    rcases List.mem_cons.mp ha with rfl | houter
    · rcases List.mem_append.mp hmem with hbefore | hpassed
      · exact .inl ⟨top, List.mem_cons_of_mem _ List.mem_cons_self, rfl, hbefore⟩
      · obtain ⟨rfl, rfl⟩ := Prod.mk.inj (List.mem_singleton.mp hpassed)
        exact .inr ⟨.pipeline hvalue hsettle, List.mem_append_right _ List.mem_cons_self⟩
    · exact .inl ⟨a, List.mem_cons_of_mem _ (List.mem_cons_of_mem _ houter), rfl, hmem⟩

end Backend

end Dataflow
