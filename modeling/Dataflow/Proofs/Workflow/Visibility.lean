/-
# Compiled pipelines read what is there

While a compiled pipeline runs, the scopes of the compiler are the names of the nodes
behind the open pipelines, so whatever is resolved next compiled in these scopes. A name
that is missing therefore is that of a node behind, which was skipped: no run of a compiled
pipeline misses a name unless a guard was false, and it never misses a field or an element.
-/

import Dataflow.Proofs.Run.Soundness
import Dataflow.Proofs.Workflow.Dependencies

namespace Dataflow

namespace Stack

/-- The names of the nodes behind the open pipelines, the innermost first. -/
def scopes (stack : Stack) : Compile.Scopes :=
  stack.map fun a => a.past.map fun entry => entry.1.name

/-- What lies ahead of the open pipelines compiles, in the scopes of what is behind. -/
def Compiles : Stack → Prop
  | [] => True
  | a :: outer =>
    (∃ compiled final reads,
      Compile.tasks (scopes (a :: outer)) outer.length a.future = .ok (compiled, final, reads) ∧
      ∃ output outputReads,
        Compile.optionalArgument final a.pipeline.returnValue = .ok (output, outputReads)) ∧
    Compiles outer

theorem scopes_pass (a : Activation) (node : Node) (value : Option Value) (rest : List Node)
    (outer : Stack) :
    scopes (a.pass node value rest :: outer) =
      Compile.declare node.name (scopes (a :: outer)) := by
  simp [scopes, Compile.declare]

theorem Compiles.pass {a : Activation} {outer : Stack} {node : Node} {rest : List Node}
    (h : Compiles (a :: outer)) (hnext : a.future = node :: rest) (value : Option Value) :
    Compiles (a.pass node value rest :: outer) := by
  obtain ⟨⟨compiled, final, reads, hcompiled, hresult⟩, houter⟩ := h
  rw [hnext] at hcompiled
  obtain ⟨-, -, -, -, -, further, furtherReads, -, -, hrest, -, -⟩ :=
    Compile.exists_of_tasks_cons hcompiled
  refine ⟨⟨further, final, furtherReads, ?_, hresult⟩, houter⟩
  rw [scopes_pass]
  exact hrest

/-- A nested pipeline that compiles does so when it is opened. -/
theorem Compiles.enter {a : Activation} {outer : Stack} {q : Pipeline} {rest : List Node}
    (h : Compiles (a :: outer)) (hnext : a.future = .pipeline q :: rest) (path : String)
    (arguments : Inputs) : Compiles (.opened path q arguments :: a :: outer) := by
  refine ⟨?_, h⟩
  obtain ⟨⟨compiled, final, reads, hcompiled, -⟩, -⟩ := h
  rw [hnext] at hcompiled
  obtain ⟨-, -, kind, clause, innerReads, -, -, -, hkind, -, -, -⟩ :=
    Compile.exists_of_tasks_cons hcompiled
  obtain ⟨-, inner, innerScopes, reads', output, outputReads, -, hinner, houtput, -, -⟩ :=
    Compile.exists_of_taskKind_pipeline hkind
  have hlevel : (scopes (a :: outer)).length = (a :: outer).length := by simp [scopes]
  rw [hlevel] at hinner
  exact ⟨inner, innerScopes, reads', hinner, output, outputReads, houtput⟩

/-- A name that some scope declares is that of a node behind an open pipeline. -/
theorem exists_past_of_levelOf? {stack : Stack} {name : String} {level : Nat}
    (hlevel : Compile.levelOf? name (scopes stack) = some level) :
    ∃ a ∈ stack, ∃ node value, (node, value) ∈ a.past ∧ node.name = name := by
  obtain ⟨scope, hscope, hname⟩ := List.mem_flatten.mp (Compile.mem_flatten_of_levelOf? hlevel)
  obtain ⟨a, ha, rfl⟩ := List.mem_map.mp hscope
  obtain ⟨⟨node, value⟩, hmem, hnode⟩ := List.mem_map.mp hname
  exact ⟨a, ha, node, value, hmem, hnode⟩

end Stack

namespace Backend

variable {σ : Type} {backend : Backend σ} {p : Pipeline} {s : σ} {m : Moment σ} {w : Workflow}

/-- What lies ahead in a run of a compiled pipeline compiles. -/
theorem Reaches.compiles (h : backend.Reaches p s m) (hcompile : p.compile = .ok w) :
    m.stack.Compiles := by
  induction h with
  | start hinputs =>
    obtain ⟨-, -, scopes, reads, output, outputReads, -, htasks, houtput, -⟩ :=
      Compile.exists_of_compile hcompile
    exact ⟨⟨_, scopes, reads, htasks, output, outputReads, houtput⟩, trivial⟩
  | move _ hmove ih =>
    cases hmove with
    | run hnext _ _ => exact ih.pass hnext _
    | skip hnext _ _ => exact ih.pass hnext _
    | enter hnext _ _ => exact ih.enter hnext _ _
    | leave _ hnext _ _ => exact Stack.Compiles.pass ih.2 hnext _

/-- What a run of a compiled pipeline resolves at a moment compiles in the scopes of that
moment. -/
theorem Reaches.visible (h : backend.Reaches p s m) (hcompile : p.compile = .ok w) {e : Expr}
    (he : e ∈ m.exprs) : Compile.Visible m.stack.scopes e := by
  have hcompiles := h.compiles hcompile
  obtain ⟨stack, state⟩ := m
  cases stack with
  | nil => cases he
  | cons a outer =>
    obtain ⟨⟨compiled, final, reads, htasks, output, outputReads, houtput⟩, -⟩ := hcompiles
    cases hnext : a.future with
    | nil =>
      rw [hnext, Compile.tasks, Except.ok.injEq, Prod.mk.injEq, Prod.mk.injEq] at htasks
      rw [← htasks.2.1] at houtput
      have hresult : a.pipeline.returnValue = some e := by
        simpa [Moment.exprs, hnext] using he
      rw [hresult] at houtput
      obtain ⟨compiled', hargument, -⟩ := Compile.argument_of_optionalArgument houtput
      exact ⟨compiled', outputReads, hargument⟩
    | cons node rest =>
      rw [hnext] at htasks
      obtain ⟨inputs, inputReads, kind, clause, innerReads, -, -, hinputs, hkind, -, -, -⟩ :=
        Compile.exists_of_tasks_cons htasks
      have hread : e ∈ node.inputs.values ++ node.operands := by
        simpa [Moment.exprs, hnext] using he
      rcases List.mem_append.mp hread with hinput | hoperand
      · exact Compile.visible_of_namedArguments hinputs e hinput
      · exact Compile.visible_of_taskKind hkind e hoperand

/-- The inputs of a compiled pipeline resolve where nothing is there. -/
theorem resolveAll_ne_error_of_compile (hcompile : p.compile = .ok w) (fault : GraphError) :
    Expr.resolveAll .empty p.inputs ≠ .error fault := by
  intro herror
  obtain ⟨inputs, inputReads, -, -, -, -, hinputs, -⟩ := Compile.exists_of_compile hcompile
  obtain ⟨e, he, hresolve⟩ := Expr.exists_of_resolveAll_eq_error herror
  obtain ⟨compiled, reads, hargument⟩ := Compile.visible_of_namedArguments hinputs e he
  have htyped : ∀ ref ∈ e.references, ref.TypedIn .empty := by
    intro ref _ v hget
    cases hget
  obtain ⟨ref, href, -⟩ := Compile.exists_missing_of_argument e hargument htyped hresolve
  -- Nothing is declared where the root pipeline stands.
  obtain ⟨read, -, -, hlevel⟩ :=
    Compile.exists_readFor (Compile.reads_of_argument e hargument) href
  cases hlevel

/-- Every guard that a run evaluates is true. -/
def GuardsHold (backend : Backend σ) (p : Pipeline) (s : σ) : Prop :=
  ∀ m, backend.Reaches p s m → ∀ a outer q rest inputs, m.stack = a :: outer →
    a.future = .pipeline q :: rest → Expr.resolveAll (Stack.table m.stack) q.inputs = .ok inputs →
      Condition.holds (Stack.table m.stack) q.condition ≠ .ok false

/-- Where every guard is true, nothing is skipped. -/
theorem GuardsHold.not_skipped (hguards : backend.GuardsHold p s) (h : backend.Reaches p s m)
    {node : Node} : ¬ backend.Yields m node none := by
  intro hyields
  cases hyields with
  | skipped hstack hnext hinputs hguard =>
    exact hguards m h _ _ _ _ _ hstack hnext hinputs hguard

/-- An expression that does not resolve in a run of a compiled pipeline misses a guarded
pipeline that was skipped. -/
theorem Reaches.exists_skipped (h : backend.Reaches p s m) (ht : p.Traced) (hp : p.Unambiguous)
    (hw : p.WellFormed) (hd : p.DeclaresTypes) (hcompile : p.compile = .ok w) {e : Expr}
    (he : e ∈ m.exprs) {fault : GraphError}
    (herror : e.resolve (Stack.table m.stack) = .error fault) :
    ∃ path q, (path, .pipeline q) ∈ p.placed ∧ q.isConditional = true ∧
      fault = .nameNotProduced q.name ∧ ⟨path, .skipped⟩ ∈ m.state.steps ∧
        ¬ backend.GuardsHold p s := by
  have hopen := h.openIn
  have htyped := hopen.typedIn_of_mem_exprs hp (h.typed ht hp hw hd) (h.mem_exprs he)
  obtain ⟨compiled, reads, hargument⟩ := h.visible hcompile he
  obtain ⟨ref, href, hmissing, rfl⟩ :=
    Compile.exists_missing_of_argument e hargument htyped herror
  obtain ⟨read, -, -, hlevel⟩ :=
    Compile.exists_readFor (Compile.reads_of_argument e hargument) href
  obtain ⟨a, ha, node, value, hmem, hname⟩ := Stack.exists_past_of_levelOf? hlevel
  cases value with
  | some v =>
    have hthere := Stack.isSome_get?_of_mem_past ha hmem
    rw [hname, hmissing] at hthere
    cases hthere
  | none =>
    obtain ⟨q, rfl, hguarded⟩ := h.guarded ha hmem
    have hchild := (hopen.walks a ha).mem_of_past hmem
    obtain ⟨⟨passed, hpassed, hyields⟩, hstep⟩ := h.exists_yields a ha _ _ hmem
    refine ⟨a.pathOf (.pipeline q), q, hopen.mem_placed a ha _ hchild, hguarded, ?_, hstep,
      fun hguards => hguards.not_skipped hpassed hyields⟩
    rw [← hname]
    rfl

/-- A run of a compiled pipeline that misses a name has skipped the guarded pipeline of this
name, because its guard was false. -/
theorem exists_skipped_of_run_eq_nameNotProduced (ht : p.Traced) (hp : p.Unambiguous)
    (hw : p.WellFormed) (hd : p.DeclaresTypes) (hb : backend.FailsOwn)
    (hcompile : p.compile = .ok w) {name : String} {after : RunState σ}
    (hrun : backend.run p s = (.error (.nameNotProduced name), after)) :
    ∃ path q, (path, .pipeline q) ∈ p.placed ∧ q.isConditional = true ∧ q.name = name ∧
      ⟨path, .skipped⟩ ∈ after.steps ∧ ¬ backend.GuardsHold p s := by
  rcases exists_fails_of_run_eq_error hrun with ⟨hinputs, -⟩ | ⟨m, hreach, hfails⟩
  · exact absurd hinputs (resolveAll_ne_error_of_compile hcompile _)
  · have hcause := hfails.cause hreach ht hp hw hd hb
    generalize hfault : GraphError.nameNotProduced name = fault at hcause
    cases hcause with
    | @missing e _ he hresolve hafter =>
      obtain ⟨path, q, hplaced, hguarded, hname, hstep⟩ :=
        hreach.exists_skipped ht hp hw hd hcompile he hresolve
      rw [← hfault] at hname
      rw [hafter]
      exact ⟨path, q, hplaced, hguarded, (GraphError.nameNotProduced.inj hname).symm, hstep⟩
    | contract | backend | output => cases hfault

/-- A run of a compiled pipeline misses a name only if it is that of a guarded pipeline
which the run has skipped before. If every guard is true, a run misses no name, neither of
a node nor of a field or an element. -/
theorem missing_only_skipped_of_compile (ht : p.Traced) (hp : p.Unambiguous)
    (hw : p.WellFormed) (hd : p.DeclaresTypes) (hb : backend.FailsOwn)
    (hcompile : p.compile = .ok w) :
    (∀ name after, backend.run p s = (.error (.nameNotProduced name), after) →
      ∃ path q, (path, .pipeline q) ∈ p.placed ∧ q.isConditional = true ∧ q.name = name ∧
        ⟨path, .skipped⟩ ∈ after.steps) ∧
    (backend.GuardsHold p s →
      ∀ name after, backend.run p s ≠ (.error (.nameNotProduced name), after)) := by
  constructor
  · intro name after hrun
    obtain ⟨path, q, hplaced, hguarded, hname, hstep, -⟩ :=
      exists_skipped_of_run_eq_nameNotProduced ht hp hw hd hb hcompile hrun
    exact ⟨path, q, hplaced, hguarded, hname, hstep⟩
  · intro hguards name after hrun
    obtain ⟨path, q, -, -, -, -, hfalse⟩ :=
      exists_skipped_of_run_eq_nameNotProduced ht hp hw hd hb hcompile hrun
    exact hfalse hguards

end Backend

namespace Unspoken

/-- A text. -/
def text : Component := echoed "text" (.literal (.string "hello"))

/-- A node that runs only after another text. -/
def answer : Component := echoed "answer" text.expr

/-- The guarded pipeline of the node. -/
def guarded : Pipeline :=
  ⟨"condition", .empty, [.component answer], none, none,
    some ⟨text.expr, .literal (.string "bye"), .equal⟩⟩

/-- A pipeline whose argument is the guarded pipeline. -/
def waiting : Pipeline := ⟨"waiting", ⟨[("given", guarded.expr)]⟩, [], none, none, none⟩

/-- The root pipeline. -/
def root : Pipeline :=
  ⟨"main", .empty, [.component text, .pipeline guarded, .pipeline waiting], none, none, none⟩

theorem root_traced : root.Traced := by
  refine ⟨Unit, .invoke ⟨"main", some "main", [], none⟩ [], fun _ => do
    let text ← .call (echo "text") [("text", .literal (.string "hello"))]
    let guarded ← .guardedBy text.expr (.literal (.string "bye")) .equal do
      let _ ← .call (echo "answer") [("text", text.expr)]
      return ()
    let _ ← .nest (.invoke ⟨"waiting", some "waiting", [⟨"given", none⟩], none⟩
      [("given", guarded.expr)]) fun _ => .result none
    return none,
    .start { Settings.default with suffixLength := 0 } ⟨fun _ => 0, 0⟩, (), ?_⟩
  rfl

theorem root_declaresTypes : root.DeclaresTypes :=
  Pipeline.declaresTypes_of_isScalar (by decide)

end Unspoken

/-- A run that misses the value of a guarded pipeline has skipped it. -/
theorem missing_only_skipped_of_compile_unspoken :
    Unspoken.root.Traced ∧ Unspoken.root.Unambiguous ∧ Unspoken.root.WellFormed ∧
      Unspoken.root.DeclaresTypes ∧ Backend.inProcess.FailsOwn ∧
      ∃ w after, Unspoken.root.compile = .ok w ∧
        Backend.inProcess.run Unspoken.root () = (.error (.nameNotProduced "condition"), after) ∧
        ∃ path q, (path, .pipeline q) ∈ Unspoken.root.placed ∧ q.isConditional = true ∧
          q.name = "condition" ∧ ⟨path, .skipped⟩ ∈ after.steps := by
  have hp : Unspoken.root.Unambiguous := by decide
  have hw : Unspoken.root.WellFormed := by decide
  have hcompile : ∃ w, Unspoken.root.compile = .ok w := ⟨_, rfl⟩
  have hmisses : ∃ after,
      Backend.inProcess.run Unspoken.root () = (.error (.nameNotProduced "condition"), after) :=
    ⟨_, rfl⟩
  obtain ⟨w, hcompile⟩ := hcompile
  obtain ⟨after, hrun⟩ := hmisses
  exact ⟨Unspoken.root_traced, hp, hw, Unspoken.root_declaresTypes, Backend.inProcess_failsOwn, w,
    after, hcompile, hrun, (Backend.missing_only_skipped_of_compile Unspoken.root_traced hp hw
      Unspoken.root_declaresTypes Backend.inProcess_failsOwn hcompile).1 "condition" after hrun⟩

end Dataflow
