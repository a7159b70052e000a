/-
# Lists of tasks at every depth

A list of nodes inside a pipeline has an address: the positions of the pipelines around it,
the outermost first. The lists of tasks in a workflow are addressed alike, through the dags
around them. At every address where a compiled workflow has a list of tasks, the pipeline
has a list of nodes, and the compiler made the tasks from these nodes, one from each.
-/

import Dataflow.Proofs.Tracer.Names
import Dataflow.Proofs.Workflow.Schedule

namespace Dataflow

/-- The list of nodes at an address below these nodes. -/
def Node.listAt? : List Nat → List Node → Option (List Node)
  | [], nodes => some nodes
  | position :: address, nodes =>
    match nodes[position]? with
    | some (.pipeline q) => listAt? address q.children
    | _ => none

/-- The list of tasks at an address below these tasks. -/
def Task.listAt? : List Nat → List Task → Option (List Task)
  | [], tasks => some tasks
  | position :: address, tasks =>
    match (tasks[position]?).map Task.kind with
    | some (.dag inner _) => listAt? address inner
    | _ => none

/-- The list of nodes at an address in a pipeline. -/
def Pipeline.listAt? (p : Pipeline) (address : List Nat) : Option (List Node) :=
  Node.listAt? address p.children

/-- The list of tasks at an address in a workflow. -/
def Workflow.listAt? (w : Workflow) (address : List Nat) : Option (List Task) :=
  Task.listAt? address w.tasks

namespace Node

variable {nodes found : List Node} {address : List Nat}

/-- An address below nodes leads to these nodes or into a pipeline among them. -/
theorem listAt?_cons_eq_some {position : Nat} :
    listAt? (position :: address) nodes = some found ↔
      ∃ q, nodes[position]? = some (.pipeline q) ∧ listAt? address q.children = some found := by
  rw [listAt?]
  cases nodes[position]? with
  | none => simp
  | some node => cases node <;> simp

/-- Every list of nodes below nodes is listed with them. -/
theorem subset_listed_of_listAt? (hfound : listAt? address nodes = some found) :
    found ⊆ listed nodes := by
  induction address generalizing nodes with
  | nil =>
    obtain rfl : nodes = found := Option.some.inj hfound
    exact subset_listed nodes
  | cons position address ih =>
    obtain ⟨q, hq, hinner⟩ := listAt?_cons_eq_some.mp hfound
    have hlisted := inner_subset_listed (List.mem_of_getElem? hq)
    rw [inner_pipeline] at hlisted
    exact List.Subset.trans (ih hinner) hlisted

/-- In tidy nodes, the nodes of every list have distinct names. -/
theorem nodup_names_of_listAt? (htidy : ∀ node ∈ nodes, node.Tidy)
    (hdistinct : (nodes.map name).Nodup) (hfound : listAt? address nodes = some found) :
    (found.map name).Nodup := by
  induction address generalizing nodes with
  | nil =>
    obtain rfl : nodes = found := Option.some.inj hfound
    exact hdistinct
  | cons position address ih =>
    obtain ⟨q, hq, hinner⟩ := listAt?_cons_eq_some.mp hfound
    cases htidy _ (List.mem_of_getElem? hq) with
    | pipeline _ hdistinct hchildren => exact ih hchildren hdistinct hinner

end Node

theorem Task.listAt?_cons_eq_some {tasks found : List Task} {position : Nat} {address : List Nat} :
    listAt? (position :: address) tasks = some found ↔
      ∃ task inner output, tasks[position]? = some task ∧ task.kind = .dag inner output ∧
        listAt? address inner = some found := by
  rw [listAt?]
  cases tasks[position]? with
  | none => simp
  | some task => cases hkind : task.kind <;> simp [hkind]

/-- Nodes at an address in a pipeline are nodes of the pipeline. -/
theorem Pipeline.subset_nodes_of_listAt? {p : Pipeline} {address : List Nat} {nodes : List Node}
    (hnodes : p.listAt? address = some nodes) : nodes ⊆ p.nodes :=
  Node.subset_listed_of_listAt? hnodes

/-- In a traced pipeline, the nodes of every list have distinct names. -/
theorem Pipeline.Traced.nodup_names_of_listAt? {p : Pipeline} (h : p.Traced) {address : List Nat}
    {nodes : List Node} (hnodes : p.listAt? address = some nodes) :
    (nodes.map Node.name).Nodup := by
  cases h.tidy with
  | pipeline _ hdistinct hchildren =>
    exact Node.nodup_names_of_listAt? hchildren hdistinct hnodes

namespace Compile

variable {outer : Scopes} {scope : List String} {nodes : List Node} {compiled : List Task}
  {final : Scopes} {reads : List Reference}

/-- A component is compiled to its container. -/
theorem CompilesTo.kind_component {scopes : Scopes} {level : Nat} {c : Component} {task : Task}
    {reads : List Reference} (htask : CompilesTo scopes level (.component c) task reads) :
    task.kind = .container (container c) := by
  obtain ⟨inputs, inputReads, kind, clause, innerReads, -, hkind, rfl, -⟩ := htask
  rw [taskKind, Except.ok.injEq, Prod.mk.injEq] at hkind
  exact hkind.1.symm

/-- There is one task for each node, under its name. -/
theorem map_name_of_tasks {level : Nat} {scopes : Scopes}
    (hcompiled : tasks scopes level nodes = .ok (compiled, final, reads)) :
    compiled.map Task.name = nodes.map Node.name := by
  induction nodes generalizing scopes compiled reads with
  | nil =>
    rw [tasks, Except.ok.injEq, Prod.mk.injEq] at hcompiled
    rw [← hcompiled.1, List.map_nil, List.map_nil]
  | cons child rest ih =>
    obtain ⟨inputs, inputReads, kind, clause, innerReads, further, furtherReads, hinputs, hkind,
      hrest, rfl, hreads⟩ := exists_of_tasks_cons hcompiled
    rw [List.map_cons, List.map_cons, ih hrest]

/-- The task at a position was made from the node there, after the nodes before it. -/
theorem exists_compilesTo_of_getElem?
    (hcompiled : tasks (scope :: outer) outer.length nodes = .ok (compiled, final, reads))
    {position : Nat} {task : Task} (htask : compiled[position]? = some task) :
    ∃ node nodeReads, nodes[position]? = some node ∧
      CompilesTo ((scope ++ (nodes.take position).map Node.name) :: outer) outer.length node task
        nodeReads := by
  induction nodes generalizing scope compiled reads position with
  | nil =>
    rw [tasks, Except.ok.injEq, Prod.mk.injEq] at hcompiled
    rw [← hcompiled.1] at htask
    cases htask
  | cons child rest ih =>
    obtain ⟨inputs, inputReads, kind, clause, innerReads, further, furtherReads, hinputs, hkind,
      hrest, rfl, -⟩ := exists_of_tasks_cons hcompiled
    cases position with
    | zero =>
      obtain rfl := Option.some.inj htask
      refine ⟨child, inputReads ++ innerReads, rfl, ?_⟩
      rw [List.take_zero, List.map_nil, List.append_nil]
      exact ⟨inputs, inputReads, kind, clause, innerReads, hinputs, hkind, rfl, rfl⟩
    | succ position =>
      obtain ⟨node, nodeReads, hnode, hcompiles⟩ := ih hrest htask
      refine ⟨node, nodeReads, hnode, ?_⟩
      rw [List.append_assoc] at hcompiles
      exact hcompiles

/-- Every list of tasks below compiled tasks was made from the list of nodes at the same
address, in the scopes around it. -/
theorem exists_of_listAt? {address : List Nat} {found : List Task}
    (hcompiled : tasks ([] :: outer) outer.length nodes = .ok (compiled, final, reads))
    (hfound : Task.listAt? address compiled = some found) :
    ∃ inner around innerFinal innerReads, Node.listAt? address nodes = some inner ∧
      tasks ([] :: around) around.length inner = .ok (found, innerFinal, innerReads) := by
  induction address generalizing outer nodes compiled final reads with
  | nil =>
    obtain rfl : compiled = found := Option.some.inj hfound
    exact ⟨nodes, outer, final, reads, rfl, hcompiled⟩
  | cons position address ih =>
    obtain ⟨task, below, output, htask, hkind, hbelow⟩ := Task.listAt?_cons_eq_some.mp hfound
    obtain ⟨node, nodeReads, hnode, hcompiles⟩ := exists_compilesTo_of_getElem? hcompiled htask
    cases node with
    | component c =>
      rw [hcompiles.kind_component] at hkind
      cases hkind
    | pipeline q =>
      obtain ⟨inputs, inputReads, below', belowScopes, belowReads, output', returnReads, clause,
        htasks, houtput, hkind', hclause⟩ := hcompiles.exists_of_pipeline
      rw [hkind, TaskKind.dag.injEq] at hkind'
      obtain ⟨rfl, -⟩ := hkind'
      obtain ⟨inner, around, innerFinal, innerReads, hinner, hmade⟩ := ih htasks hbelow
      exact ⟨inner, around, innerFinal, innerReads,
        Node.listAt?_cons_eq_some.mpr ⟨q, hnode, hinner⟩, hmade⟩

end Compile

/-- Every list of tasks in a compiled workflow was made from the list of nodes at the same
address in the pipeline. -/
theorem Pipeline.exists_of_listAt? {p : Pipeline} {w : Workflow} (hcompile : p.compile = .ok w)
    {address : List Nat} {tasks : List Task} (htasks : w.listAt? address = some tasks) :
    ∃ nodes around final reads, p.listAt? address = some nodes ∧
      Compile.tasks ([] :: around) around.length nodes = .ok (tasks, final, reads) := by
  obtain ⟨-, -, scopes, reads, -, -, -, hcompiled, -⟩ := Compile.exists_of_compile hcompile
  have hroot : Compile.tasks ([] :: []) ([] : Compile.Scopes).length p.children =
      .ok (w.tasks, scopes, reads) := hcompiled
  exact Compile.exists_of_listAt? hroot htasks

/-- Every task of a compiled workflow that runs a container was made from a component, at the
same place in the pipeline, and runs the container of this component. -/
theorem Pipeline.exists_component_of_container {p : Pipeline} {w : Workflow}
    (hcompile : p.compile = .ok w) {address : List Nat} {tasks : List Task}
    (htasks : w.listAt? address = some tasks) {position : Nat} {task : Task}
    (htask : tasks[position]? = some task) {box : Container} (hkind : task.kind = .container box) :
    ∃ nodes c, p.listAt? address = some nodes ∧ nodes[position]? = some (.component c) ∧
      box = Compile.container c := by
  obtain ⟨nodes, around, final, reads, hnodes, hcompiled⟩ := exists_of_listAt? hcompile htasks
  obtain ⟨node, nodeReads, hnode, hcompiles⟩ :=
    Compile.exists_compilesTo_of_getElem? hcompiled htask
  cases node with
  | component c =>
    rw [hcompiles.kind_component, TaskKind.container.injEq] at hkind
    exact ⟨nodes, c, hnodes, hnode, hkind.symm⟩
  | pipeline q =>
    obtain ⟨-, -, inner, -, -, output, -, -, -, -, hdag, -⟩ := hcompiles.exists_of_pipeline
    rw [hdag] at hkind
    cases hkind

end Dataflow
