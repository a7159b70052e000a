/-
# Outlines of pipelines and workflows

A traced pipeline and the workflow that it is compiled to have one outline: the same tree of
names, where components stand for containers and pipelines for dags, with the same names of
inputs, the same comparators in the guards, and return values in the same places. Where there is
no workflow, a name was not visible or a rule of graph construction was violated.
-/

import Dataflow.Proofs.Tracer.Inputs
import Dataflow.Proofs.Workflow.Acceptance
import Dataflow.Proofs.Workflow.Conformance
import Dataflow.Proofs.Workflow.Mentions
import Dataflow.Proofs.Workflow.Refusal

namespace Dataflow

/-- What a node and a task have in common if the one is compiled to the other. -/
inductive Outline where
  /-- A component or a container. -/
  | leaf (name : String) (inputs : List String) (guard : Option Comparator)
  /-- A pipeline or a dag, with what is in it and whether it returns something. -/
  | branch (name : String) (inputs : List String) (guard : Option Comparator)
      (inside : List Outline) (returns : Bool)

namespace Node

mutual

/-- The outline of a node. -/
def outline : Node → Outline
  | .component c => .leaf c.name c.inputs.names none
  | .pipeline ⟨name, inputs, children, returnValue, _, condition⟩ =>
    .branch name inputs.names (condition.map Condition.comparator) (outlines children)
      returnValue.isSome

/-- The outlines of nodes, in order. -/
def outlines : List Node → List Outline
  | [] => []
  | child :: rest => outline child :: outlines rest

end

theorem outlines_eq_map (nodes : List Node) : outlines nodes = nodes.map outline := by
  induction nodes with
  | nil => rfl
  | cons child rest ih => rw [outlines, ih, List.map_cons]

end Node

namespace Task

mutual

/-- The outline of a task. -/
def outline : Task → Outline
  | ⟨name, kind, arguments, _, guard⟩ =>
    outlineOfKind name arguments.names (guard.map WhenClause.comparator) kind

/-- The outline of a task that runs this, under a name and with inputs and a guard. -/
def outlineOfKind (name : String) (inputs : List String) (guard : Option Comparator) :
    TaskKind → Outline
  | .container _ => .leaf name inputs guard
  | .dag tasks output => .branch name inputs guard (outlines tasks) output.isSome

/-- The outlines of tasks, in order. -/
def outlines : List Task → List Outline
  | [] => []
  | task :: rest => outline task :: outlines rest

end

theorem outlines_eq_map (tasks : List Task) : outlines tasks = tasks.map outline := by
  induction tasks with
  | nil => rfl
  | cons task rest ih => rw [outlines, ih, List.map_cons]

end Task

/-- The outline of a pipeline that is compiled to a workflow, which has no place for a guard. -/
def Pipeline.outline (p : Pipeline) : Outline :=
  .branch p.name p.inputs.names none (p.children.map Node.outline) p.returnValue.isSome

/-- The outline of a workflow. -/
def Workflow.outline (w : Workflow) : Outline :=
  .branch w.name w.inputs.names none (w.tasks.map Task.outline) w.output.isSome

namespace Compile

variable {scopes : Scopes} {reads : List Reference}

/-- Expressions under distinct names become arguments under the same names. -/
theorem names_of_namedArguments {exprs : Named Expr} {inputs : Named Argument}
    (hdistinct : exprs.Distinct)
    (hcompiled : namedArguments scopes exprs = .ok (inputs, reads)) :
    inputs.names = exprs.names := by
  obtain ⟨parts, hparts, rfl⟩ := exists_of_namedArguments hcompiled
  have hnames : parts.map Prod.fst = exprs.names := map_fst_of_arguments hparts
  rw [Named.ofList_eq_of_nodup (hnames ▸ hdistinct)]
  exact hnames

theorem isSome_of_optionalArgument {returnValue : Option Expr} {output : Option Argument}
    (hcompiled : optionalArgument scopes returnValue = .ok (output, reads)) :
    output.isSome = returnValue.isSome := by
  cases returnValue with
  | none =>
    rw [optionalArgument, Except.ok.injEq, Prod.mk.injEq] at hcompiled
    rw [← hcompiled.1]
    rfl
  | some e =>
    obtain ⟨compiled, -, rfl⟩ := argument_of_optionalArgument hcompiled
    rfl

theorem comparator_of_whenClause {condition : Option Condition} {clause : Option WhenClause}
    (hcompiled : whenClause scopes condition = .ok (clause, reads)) :
    clause.map WhenClause.comparator = condition.map Condition.comparator := by
  cases condition with
  | none =>
    rw [whenClause, Except.ok.injEq, Prod.mk.injEq] at hcompiled
    rw [← hcompiled.1]
    rfl
  | some condition =>
    obtain ⟨left, right, first, further, -, -, rfl, -⟩ := arguments_of_whenClause hcompiled
    rfl

mutual

/-- A task has the outline of the node that it was compiled from. -/
theorem outline_of_taskKind : ∀ (node : Node) {scopes : Scopes} {kind : TaskKind}
    {clause : Option WhenClause} {reads : List Reference} {inputs : Named Argument}
    (dependencies : List String), node.Labelled → inputs.names = node.inputs.names →
    taskKind scopes node = .ok (kind, clause, reads) →
      (Task.mk node.name kind inputs dependencies clause).outline = node.outline
  | .component c, scopes, kind, clause, reads, inputs, dependencies, _, hinputs, hkind => by
    rw [taskKind, Except.ok.injEq, Prod.mk.injEq, Prod.mk.injEq] at hkind
    obtain ⟨rfl, rfl, -⟩ := hkind
    rw [Task.outline, hinputs]
    rfl
  | .pipeline ⟨name, exprs, children, returnValue, returns, condition⟩, scopes, kind, clause,
      reads, inputs, dependencies, hlabelled, hinputs, hkind => by
    cases hlabelled with
    | pipeline _ hchildren =>
      obtain ⟨guardReads, inner, final, innerReads, output, outputReads, hclause, hinner, houtput,
        rfl, -⟩ := exists_of_taskKind_pipeline hkind
      rw [Task.outline, Task.outlineOfKind, hinputs, comparator_of_whenClause hclause,
        isSome_of_optionalArgument houtput, outlines_of_tasks children hchildren hinner]
      rfl

/-- Tasks have the outlines of the nodes that they were compiled from. -/
theorem outlines_of_tasks : ∀ (nodes : List Node) {scopes final : Scopes} {level : Nat}
    {compiled : List Task} {reads : List Reference}, (∀ node ∈ nodes, node.Labelled) →
    tasks scopes level nodes = .ok (compiled, final, reads) →
      Task.outlines compiled = Node.outlines nodes
  | [], scopes, final, level, compiled, reads, _, hcompiled => by
    rw [tasks, Except.ok.injEq, Prod.mk.injEq] at hcompiled
    rw [← hcompiled.1]
    rfl
  | child :: rest, scopes, final, level, compiled, reads, hlabelled, hcompiled => by
    obtain ⟨inputs, inputReads, kind, clause, innerReads, further, furtherReads, hinputs, hkind,
      hrest, rfl, -⟩ := exists_of_tasks_cons hcompiled
    have hchild : child.Labelled := hlabelled child List.mem_cons_self
    have hothers : ∀ node ∈ rest, node.Labelled := fun node hnode =>
      hlabelled node (List.mem_cons_of_mem _ hnode)
    rw [Task.outlines, Node.outlines, outlines_of_tasks rest hothers hrest,
      outline_of_taskKind child _ hchild (names_of_namedArguments hchild.distinct hinputs) hkind]

end

end Compile

/-- The nodes of every list in a traced pipeline have inputs of distinct names. -/
theorem Pipeline.Traced.labelled_of_listAt? {p : Pipeline} (h : p.Traced) {address : List Nat}
    {nodes : List Node} (hnodes : p.listAt? address = some nodes) :
    ∀ node ∈ nodes, node.Labelled := by
  intro node hnode
  have hmem : node ∈ (Node.pipeline p).inner := by
    rw [Node.inner_pipeline]
    exact p.subset_nodes_of_listAt? hnodes hnode
  exact Node.forall_mem_inner (fun _ => Node.Labelled.children) _ h.labelled node hmem

/-- The tasks of every list in a compiled workflow have the outlines of the nodes at the same
address in the pipeline. -/
theorem Pipeline.Traced.map_outline_of_listAt? {p : Pipeline} (h : p.Traced) {w : Workflow}
    (hcompile : p.compile = .ok w) {address : List Nat} {tasks : List Task}
    (htasks : w.listAt? address = some tasks) :
    ∃ nodes, p.listAt? address = some nodes ∧ tasks.map Task.outline = nodes.map Node.outline ∧
      tasks.map Task.name = nodes.map Node.name := by
  obtain ⟨nodes, around, final, reads, hnodes, hcompiled⟩ :=
    Pipeline.exists_of_listAt? hcompile htasks
  have houtlines := Compile.outlines_of_tasks nodes (h.labelled_of_listAt? hnodes) hcompiled
  rw [Task.outlines_eq_map, Node.outlines_eq_map] at houtlines
  exact ⟨nodes, hnodes, houtlines, Compile.map_name_of_tasks hcompiled⟩

/-- A workflow has the outline of the traced pipeline that it was compiled from. -/
theorem Pipeline.Traced.outline_eq {p : Pipeline} (h : p.Traced) {w : Workflow}
    (hcompile : p.compile = .ok w) : w.outline = p.outline := by
  have hroot : w.listAt? [] = some w.tasks := rfl
  obtain ⟨nodes, hnodes, htasks, -⟩ := h.map_outline_of_listAt? hcompile hroot
  obtain rfl : p.children = nodes := Option.some.inj hnodes
  obtain ⟨inputs, inputReads, final, reads, output, outputReads, hinputs, -, houtput, hw⟩ :=
    Compile.exists_of_compile hcompile
  rw [Workflow.outline, Pipeline.outline, htasks, hw,
    Compile.names_of_namedArguments h.labelled.distinct hinputs,
    Compile.isSome_of_optionalArgument houtput]
  rfl

/-- A traced pipeline that compiles has the outline of its workflow, and so has every list of
nodes in it, from which tasks of distinct names were made one by one. A pipeline that does not
compile reads a task that is not visible or breaks a rule of graph construction. -/
theorem Pipeline.outline_of_compile {p : Pipeline} (h : p.Traced) :
    (∀ w, p.compile = .ok w → w.outline = p.outline ∧
      ∀ address tasks, w.listAt? address = some tasks →
        ∃ nodes, p.listAt? address = some nodes ∧
          tasks.map Task.outline = nodes.map Node.outline ∧ (tasks.map Task.name).Nodup) ∧
    ∀ fault, p.compile = .error fault →
      (∃ name, fault = .nameNotProduced name) ∨ ∃ violation, fault = .contract violation := by
  refine ⟨fun w hcompile => ⟨h.outline_eq hcompile, fun address tasks htasks => ?_⟩,
    fun fault hcompile => ?_⟩
  · obtain ⟨nodes, hnodes, houtlines, hnames⟩ := h.map_outline_of_listAt? hcompile htasks
    exact ⟨nodes, hnodes, houtlines, hnames ▸ h.nodup_names_of_listAt? hnodes⟩
  · cases p.refuses_compile fault hcompile with
    | name task => exact .inl ⟨task, rfl⟩
    | contract violation => exact .inr ⟨violation, rfl⟩

/-- The workflow of a pipeline with a guarded pipeline in it, and in that one a pipeline that
returns a text, has the outline of the pipeline, and the tasks in the guarded pipeline have those
of its nodes. A pipeline that takes a field of a pair in a tuple breaks a rule. -/
theorem Pipeline.outline_of_compile_layered :
    Layered.root.Traced ∧
      (∃ w tasks nodes, Layered.root.compile = .ok w ∧ w.outline = Layered.root.outline ∧
        w.listAt? [2] = some tasks ∧ Layered.root.listAt? [2] = some nodes ∧
        tasks.map Task.outline = nodes.map Node.outline ∧
        tasks.map Task.outline =
          [.leaf "text" ["text"] none, .leaf "last" ["text"] none,
            .branch "returning" [] none [] true] ∧
        (tasks.map Task.name).Nodup) ∧
      (Boxed.root Boxed.boxed).Traced ∧
      ∃ fault violation, (Boxed.root Boxed.boxed).compile = .error fault ∧
        fault = .contract violation := by
  obtain ⟨w, tasks, hcompile, htasks, hinside⟩ :
      ∃ w tasks, Layered.root.compile = .ok w ∧ w.listAt? [2] = some tasks ∧
        tasks.map Task.outline =
          [.leaf "text" ["text"] none, .leaf "last" ["text"] none,
            .branch "returning" [] none [] true] := ⟨_, _, rfl, rfl, rfl⟩
  obtain ⟨hroot, hlists⟩ := (Pipeline.outline_of_compile Layered.root_traced).1 w hcompile
  obtain ⟨nodes, hnodes, houtlines, hdistinct⟩ := hlists [2] tasks htasks
  have hrefused := (Pipeline.outline_of_compile Boxed.boxed_traced).2 _ Boxed.compile_boxed
  obtain ⟨name, hname⟩ | ⟨violation, hviolation⟩ := hrefused
  · cases hname
  · exact ⟨Layered.root_traced, ⟨w, tasks, nodes, hcompile, hroot, htasks, hnodes, houtlines,
      hinside, hdistinct⟩, Boxed.boxed_traced, _, violation, Boxed.compile_boxed, hviolation⟩

end Dataflow
