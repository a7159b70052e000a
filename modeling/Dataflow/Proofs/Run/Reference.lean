/-
# What references resolve to

While a pipeline runs, a reference is looked up by name. What it resolves to is the
innermost binding of that name: in the innermost open pipeline that has one, the value
of a completed node, or else an argument. If names tell nodes apart, this is what the
referred node itself gave; if they do not, another node or an argument may stand in the
way.
-/

import Dataflow.Proofs.Run.Stack
import Dataflow.Proofs.Tracer.Frames

namespace Dataflow

/-- The expressions that a run resolves at a moment: the inputs and the guard of the
next node, or the return value if there is none. -/
def Moment.exprs {σ : Type} (m : Moment σ) : List Expr :=
  match m.stack with
  | [] => []
  | a :: _ =>
    match a.future with
    | [] => a.pipeline.returnValue.toList
    | node :: _ => node.inputs.values ++ node.operands

namespace Stack

/-- The reference resolves to what the referred node itself gave in an open pipeline, or
that node has not completed in any of them and the reference fails. -/
def Exact (stack : Stack) (ref : NodeRef) : Prop :=
  (∃ a ∈ stack, ∃ node v, (node, some v) ∈ a.past ∧ node.ref = ref ∧
      (Expr.node ref).resolve (table stack) = .ok v) ∨
    ((∀ a ∈ stack, ∀ node v, (node, some v) ∈ a.past → node.ref ≠ ref) ∧
      (Expr.node ref).resolve (table stack) = .error (.nameNotProduced ref.name))

/-- A reference resolves to the innermost binding of its name. -/
theorem resolve_node (stack : Stack) (ref : NodeRef) :
    (Expr.node ref).resolve (table stack) =
      match binding? stack ref.name with
      | some v => .ok v
      | none => .error (.nameNotProduced ref.name) := by
  cases hbound : binding? stack ref.name with
  | none => simp [Expr.resolve, ValueTable.lookup, get?_table, hbound]
  | some v => simp [Expr.resolve, ValueTable.lookup, get?_table, hbound]

/-- In an unambiguous pipeline every reference is exact. -/
theorem OpenIn.exact {p : Pipeline} {stack : Stack} (h : OpenIn p stack) (hp : p.Unambiguous)
    {ref : NodeRef} (href : ref ∈ p.references) : Exact stack ref := by
  cases hget : (table stack).get? ref.name with
  | some v =>
    left
    obtain ⟨a, ha, node, hmem, hnode⟩ := h.exists_referent hp href hget
    refine ⟨a, ha, node, v, hmem, hnode, ?_⟩
    rw [Expr.resolve, ValueTable.lookup, hget]
  | none =>
    right
    constructor
    · intro a ha node v hmem hnode
      have hsome := isSome_get?_of_mem_past ha hmem
      rw [← Node.ref_name, hnode, hget] at hsome
      cases hsome
    · rw [Expr.resolve, ValueTable.lookup, hget]

end Stack

namespace Backend

variable {σ : Type} {backend : Backend σ} {p : Pipeline} {s : σ} {m : Moment σ}

/-- What a run resolves are expressions of the pipeline. -/
theorem Reaches.mem_exprs (h : backend.Reaches p s m) {e : Expr} (he : e ∈ m.exprs) :
    e ∈ p.exprs := by
  have hopen := h.openIn
  obtain ⟨stack, state⟩ := m
  cases stack with
  | nil => simp [Moment.exprs] at he
  | cons a outer =>
    cases hnext : a.future with
    | nil =>
      have hresult : e ∈ a.pipeline.returnValue.toList := by simpa [Moment.exprs, hnext] using he
      rcases hopen.eq_or_mem_nodes a List.mem_cons_self with hroot | hnode
      · rw [hroot] at hresult
        exact List.mem_append_left _ (List.mem_append_right _ hresult)
      · exact Pipeline.mem_exprs_of_mem_nodes hnode (List.mem_append_right _ hresult)
    | cons node rest =>
      have hread : e ∈ node.inputs.values ++ node.operands := by
        simpa [Moment.exprs, hnext] using he
      have hwalks := hopen.walks a List.mem_cons_self
      have hahead : node ∈ a.future := by simp [hnext]
      have hnode := hopen.mem_nodes List.mem_cons_self (hwalks.mem_of_future hahead)
      exact Pipeline.mem_exprs_of_mem_nodes hnode (List.mem_append_left _ hread)

/-- Whatever a run resolves, a reference in it gives the innermost binding of its name,
or fails if there is none. In an unambiguous pipeline this is what the referred node
itself gave, or that node has not completed in an open pipeline. -/
theorem resolve_reference_of_reaches (h : backend.Reaches p s m) {e : Expr} (he : e ∈ m.exprs)
    {ref : NodeRef} (href : ref ∈ e.references) :
    (Expr.node ref).resolve (Stack.table m.stack) =
        (match Stack.binding? m.stack ref.name with
        | some v => .ok v
        | none => .error (.nameNotProduced ref.name)) ∧
      (p.Unambiguous → Stack.Exact m.stack ref) := by
  constructor
  · exact Stack.resolve_node m.stack ref
  · intro hp
    exact h.openIn.exact hp (List.mem_flatMap.mpr ⟨e, h.mem_exprs he, href⟩)

end Backend

/-- A definition of a component that returns its only argument. -/
def echo (name : String) : ComponentDef where
  function := "echo"
  explicitName := some name
  parameters := [⟨"text", .string, none⟩]
  returns := some .string
  deployment := .none
  body := some fun inputs => inputs.require "text"

/-- The component that `echo` makes of an argument. -/
def echoed (name : String) (input : Expr) : Component where
  name := name
  function := "echo"
  inputs := ⟨[("text", input)]⟩
  returns := .string
  deployment := Settings.default.resolveDeployment .none
  body := some fun inputs => inputs.require "text"

namespace Shadowing

/-- A node that a nested pipeline reads. -/
def greeting : Component := echoed "greeting" (.literal (.string "hello"))

/-- The node that reads it. -/
def after : Component := echoed "after" greeting.expr

/-- The pipeline around the reading node, with an argument of some name. -/
def inner (argument : String) : Pipeline :=
  ⟨"inner", ⟨[(argument, .literal (.string "argument"))]⟩, [.component after],
    some after.expr, some .string, none⟩

/-- The root pipeline. -/
def root (argument : String) : Pipeline :=
  ⟨"main", .empty, [.component greeting, .pipeline (inner argument)],
    some (inner argument).expr, some .string, none⟩

/-- The root pipeline when its first node has run. -/
def rootActivation (argument : String) : Activation :=
  ⟨"main", root argument, .empty, [(.component greeting, some (.string "hello"))],
    [.pipeline (inner argument)]⟩

/-- The moment at which the nested pipeline is about to read the node. -/
def moment (argument : String) : Moment Unit :=
  ⟨[.opened ((rootActivation argument).pathOf (.pipeline (inner argument))) (inner argument)
      ⟨[(argument, .string "argument")]⟩, rootActivation argument],
    (⟨[], ()⟩ : RunState Unit).note "main/greeting" .completed⟩

/-- A run of the root pipeline reaches the moment. -/
theorem reaches_moment (argument : String) :
    Backend.inProcess.Reaches (root argument) () (moment argument) := by
  have hstart : Backend.inProcess.Reaches (root argument) ()
      ⟨[.opened "main" (root argument) .empty], ⟨[], ()⟩⟩ := .start rfl
  have hran : Backend.inProcess.Reaches (root argument) ()
      ⟨[rootActivation argument], (⟨[], ()⟩ : RunState Unit).note "main/greeting" .completed⟩ :=
    hstart.move (.run rfl rfl rfl)
  exact hran.move (.enter rfl rfl rfl)

/-- Tracing returns the root pipeline whose nested pipeline has an argument with the name
of the node that it reads. -/
theorem root_traced : (root "greeting").Traced := by
  refine ⟨Unit, .invoke ⟨"main", some "main", [], none⟩ [], fun _ => do
    let greeting ← .call (echo "greeting") [("text", .literal (.string "hello"))]
    let inner ← .nest (.invoke ⟨"inner", some "inner", [⟨"greeting", none⟩], none⟩
      [("greeting", .literal (.string "argument"))]) fun _ => do
        let after ← .call (echo "after") [("text", greeting.expr)]
        return some after.expr
    return some inner.expr, .start .default ⟨fun _ => 0, 0⟩, (), ?_⟩
  rfl

/-- The node reads as the argument of its name. -/
theorem resolve_greeting :
    greeting.expr.resolve (Stack.table (moment "greeting").stack) = .ok (.string "argument") := rfl

end Shadowing

/-- Where the argument has a name of its own, the nested pipeline reads the node. -/
theorem resolve_reference_of_reaches_word :
    Backend.inProcess.Reaches (Shadowing.root "word") () (Shadowing.moment "word") ∧
      Shadowing.greeting.expr ∈ (Shadowing.moment "word").exprs ∧
      Shadowing.greeting.ref ∈ Shadowing.greeting.expr.references ∧
      (Shadowing.root "word").Unambiguous ∧
      Shadowing.greeting.expr.resolve (Stack.table (Shadowing.moment "word").stack) =
        .ok (.string "hello") ∧
      Stack.Exact (Shadowing.moment "word").stack Shadowing.greeting.ref := by
  have hreach := Shadowing.reaches_moment "word"
  have hread : Shadowing.greeting.expr ∈ (Shadowing.moment "word").exprs := List.mem_cons_self
  have href : Shadowing.greeting.ref ∈ Shadowing.greeting.expr.references := List.mem_cons_self
  have hp : (Shadowing.root "word").Unambiguous := by decide
  have hresolve := Backend.resolve_reference_of_reaches hreach hread href
  exact ⟨hreach, hread, href, hp, hresolve.1, hresolve.2 hp⟩

/-- Not every reference in a traced pipeline is exact: an argument may have the name of
a node. -/
theorem not_exact_of_shadowing : ¬ ∀ p : Pipeline, p.Traced →
    ∀ (σ : Type) (backend : Backend σ) (s : σ) (m : Moment σ), backend.Reaches p s m →
      ∀ e ∈ m.exprs, ∀ ref ∈ e.references, Stack.Exact m.stack ref := by
  intro hexact
  have hread := hexact (Shadowing.root "greeting") Shadowing.root_traced Unit .inProcess ()
    (Shadowing.moment "greeting") (Shadowing.reaches_moment "greeting") Shadowing.greeting.expr
    List.mem_cons_self Shadowing.greeting.ref List.mem_cons_self
  rcases hread with ⟨a, ha, node, v, hmem, -, hv⟩ | ⟨-, hmissing⟩
  · obtain rfl : .string "argument" = v := Except.ok.inj (Shadowing.resolve_greeting.symm.trans hv)
    rcases List.mem_cons.mp ha with rfl | houter
    · simp [Activation.opened] at hmem
    · obtain rfl := List.mem_singleton.mp houter
      simp [Shadowing.rootActivation] at hmem
  · exact nomatch Shadowing.resolve_greeting.symm.trans hmissing

end Dataflow
