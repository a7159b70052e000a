/-
# Every schedule gives the same result

The nodes of a compiled pipeline may be run in any order in which each of them comes after
the siblings that its task depends on, and so may the nodes of the pipelines inside it. By
induction on the evaluation of a node, it evaluates to the same value in every table that
agrees with its own on what its task reads and on the names inside it. A node that is
moved past others keeps its value, because the siblings that it reads are still behind it
and whatever else it reads is not among them.
-/

import Dataflow.Proofs.Run.Evaluation
import Dataflow.Proofs.Run.Reference
import Dataflow.Proofs.Workflow.Dependencies
import Mathlib.Data.List.Perm.Basic

namespace Dataflow

/-- Each task comes after the siblings that it depends on, given the siblings behind. -/
def Task.Scheduled (behind : List String) : List (Task × Node) → Prop
  | [] => True
  | (task, node) :: rest =>
    task.dependencies ⊆ behind ∧ Scheduled (behind ++ [node.name]) rest

/-- The dependencies of a task are behind it. -/
theorem Task.Scheduled.dependencies_subset {behind : List String} {order : List (Task × Node)}
    (h : Task.Scheduled behind order) {before after : List (Task × Node)} {task : Task}
    {node : Node} (hsplit : order = before ++ (task, node) :: after) :
    task.dependencies ⊆ behind ++ (before.map Prod.snd).map Node.name := by
  induction before generalizing behind order with
  | nil =>
    rw [hsplit] at h
    rw [List.map_nil, List.map_nil, List.append_nil]
    exact h.1
  | cons entry before ih =>
    rw [hsplit] at h
    have hrest := ih h.2 rfl
    rw [List.append_assoc] at hrest
    exact hrest

/-- The same steps in another order, inside the nodes as well. -/
theorem Step.perm_ofNodes {path : String} {values : String → Option Value}
    {inside inside' : String → List Step} {names names' : List String}
    (hnames : names'.Perm names) (hinside : ∀ name ∈ names', (inside' name).Perm (inside name)) :
    (ofNodes path values inside' names').Perm (ofNodes path values inside names) := by
  have hsame : (ofNodes path values inside' names').Perm (ofNodes path values inside names') :=
    List.Perm.flatMap_left _ fun name hname => (hinside name hname).append_right _
  exact hsame.trans (hnames.flatMap_right _)

namespace Node

mutual

/-- A node has the nodes of the pipelines inside it in some order that its task allows. -/
inductive Rearranged : Task → Node → Node → Prop where
  | component (task : Task) (c : Component) : Rearranged task (.component c) (.component c)
  | pipeline {task : Task} {q : Pipeline} {nodes : List Node} {inner : List Task}
      {output : Option Argument} (hkind : task.kind = .dag inner output)
      (hnodes : Reordered inner q.children nodes) :
      Rearranged task (.pipeline q) (.pipeline { q with children := nodes })

/-- Each of the nodes has been rearranged, and stands with its task. -/
inductive RearrangedAll : List Task → List Node → List (Task × Node) → Prop where
  | nil : RearrangedAll [] [] []
  | cons {task : Task} {tasks : List Task} {node node' : Node} {nodes : List Node}
      {pairs : List (Task × Node)} (hnode : Rearranged task node node')
      (hrest : RearrangedAll tasks nodes pairs) :
      RearrangedAll (task :: tasks) (node :: nodes) ((task, node') :: pairs)

/-- Nodes have been rearranged and put in an order in which each of them comes after the
siblings that its task depends on. -/
inductive Reordered : List Task → List Node → List Node → Prop where
  | intro {tasks : List Task} {nodes : List Node} {pairs order : List (Task × Node)}
      (hnodes : RearrangedAll tasks nodes pairs) (hperm : order.Perm pairs)
      (hschedule : Task.Scheduled [] order) : Reordered tasks nodes (order.map Prod.snd)

end

theorem Rearranged.name_eq {task : Task} {node node' : Node} (h : Rearranged task node node') :
    node'.name = node.name := by
  cases h <;> rfl

theorem RearrangedAll.map_name {tasks : List Task} {nodes : List Node}
    {pairs : List (Task × Node)} (h : RearrangedAll tasks nodes pairs) :
    (pairs.map Prod.snd).map name = nodes.map name := by
  induction nodes generalizing tasks pairs with
  | nil =>
    cases h
    rfl
  | cons node rest ih =>
    cases h with
    | cons hnode hrest =>
      rw [List.map_cons, List.map_cons, List.map_cons, ih hrest, hnode.name_eq]

/-- Reordered nodes have the same names, in another order. -/
theorem Reordered.perm_names {tasks : List Task} {nodes nodes' : List Node}
    (h : Reordered tasks nodes nodes') : (nodes'.map name).Perm (nodes.map name) := by
  cases h with
  | intro hnodes hperm _ =>
    rw [← hnodes.map_name]
    exact (hperm.map Prod.snd).map name

/-- If there is something for each node with the nodes before it, it can be told by
name. -/
theorem exists_by_name {α : Type} [Inhabited α] {nodes : List Node}
    (hdistinct : (nodes.map name).Nodup) {holds : List Node → Node → α → Prop}
    (heach : ∀ before node after, nodes = before ++ node :: after →
      ∃ found, holds before node found) :
    ∃ choice : String → α, ∀ before node after, nodes = before ++ node :: after →
      holds before node (choice node.name) := by
  induction nodes generalizing holds with
  | nil => exact ⟨fun _ => default, fun before node after hsplit => by simp at hsplit⟩
  | cons first rest ih =>
    rw [List.map_cons, List.nodup_cons] at hdistinct
    obtain ⟨⟨found, hfound⟩, hrest⟩ := forall_split_cons.mp heach
    obtain ⟨choice, hchoice⟩ := ih hdistinct.2 hrest
    refine ⟨Function.update choice first.name found, forall_split_cons.mpr ⟨?_, ?_⟩⟩
    · rw [Function.update_self]
      exact hfound
    · rintro before node after rfl
      have hmem : node.name ∈ (before ++ node :: after).map name :=
        List.mem_map_of_mem (by simp)
      rw [Function.update_of_ne (ne_of_mem_of_not_mem hmem hdistinct.1)]
      exact hchoice before node after rfl

end Node

namespace Compile

/-- A node is compiled to this task in these scopes, and reads these tasks. -/
def CompilesTo (scopes : Scopes) (level : Nat) (node : Node) (task : Task)
    (reads : List Reference) : Prop :=
  ∃ inputs inputReads kind clause innerReads,
    namedArguments scopes node.inputs = .ok (inputs, inputReads) ∧
    taskKind scopes node = .ok (kind, clause, innerReads) ∧
    task = ⟨node.name, kind, inputs, siblings level reads, clause⟩ ∧
    reads = inputReads ++ innerReads

theorem CompilesTo.resolveAll_congr {scopes : Scopes} {level : Nat} {node : Node} {task : Task}
    {reads : List Reference} {table table' : ValueTable}
    (htask : CompilesTo scopes level node task reads)
    (hagree : table.AgreeOn table' (reads.map Reference.task)) :
    Expr.resolveAll table node.inputs = Expr.resolveAll table' node.inputs := by
  obtain ⟨inputs, inputReads, -, -, innerReads, hinputs, -, -, rfl⟩ := htask
  apply resolveAll_congr_of_namedArguments hinputs
  rw [List.map_append] at hagree
  exact hagree.mono (List.subset_append_left _ _)

/-- A nested pipeline is compiled to tasks of its own. What its guard, its tasks and its
return value read in the scopes around it, the pipeline reads. -/
theorem CompilesTo.exists_of_pipeline {scopes : Scopes} {level : Nat} {q : Pipeline}
    {task : Task} {reads : List Reference}
    (htask : CompilesTo scopes level (.pipeline q) task reads) :
    ∃ clause guardReads inner final innerReads output outputReads,
      whenClause scopes q.condition = .ok (clause, guardReads) ∧
      tasks ([] :: scopes) scopes.length q.children = .ok (inner, final, innerReads) ∧
      optionalArgument final q.returnValue = .ok (output, outputReads) ∧
      task.kind = .dag inner output ∧
      guardReads ⊆ reads ∧ innerReads ⊆ reads ∧ outside scopes.length outputReads ⊆ reads := by
  obtain ⟨inputs, inputReads, kind, clause, kindReads, -, hkind, rfl, rfl⟩ := htask
  obtain ⟨guardReads, inner, final, innerReads, output, outputReads, hclause, hinner, houtput,
    rfl, rfl⟩ := exists_of_taskKind_pipeline hkind
  refine ⟨clause, guardReads, inner, final, innerReads, output, outputReads, hclause, hinner,
    houtput, rfl, ?_, ?_, ?_⟩
  all_goals
    intro read hread
    simp [hread]

/-- A node that was rearranged was compiled to its task after the nodes before it, and what
it reads outside is read outside by all of them. -/
theorem exists_of_mem_rearranged {scope : List String} {outer : Scopes} {nodes : List Node}
    {compiled : List Task} {final : Scopes} {reads : List Reference}
    {pairs : List (Task × Node)} {task : Task} {node' : Node}
    (hcompiled : tasks (scope :: outer) outer.length nodes = .ok (compiled, final, reads))
    (hnodes : Node.RearrangedAll compiled nodes pairs) (hmem : (task, node') ∈ pairs) :
    ∃ before node after nodeReads, nodes = before ++ node :: after ∧
      CompilesTo ((scope ++ before.map Node.name) :: outer) outer.length node task nodeReads ∧
      outside outer.length nodeReads ⊆ reads ∧ Node.Rearranged task node node' := by
  induction nodes generalizing scope compiled reads pairs with
  | nil =>
    cases hnodes
    cases hmem
  | cons first rest ih =>
    obtain ⟨inputs, inputReads, kind, clause, innerReads, further, furtherReads, hinputs, hkind,
      hrest, rfl, rfl⟩ := exists_of_tasks_cons hcompiled
    cases hnodes with
    | cons hfirst hothers =>
      rcases List.mem_cons.mp hmem with hhead | htail
      · obtain ⟨rfl, rfl⟩ := Prod.mk.inj hhead
        refine ⟨[], first, rest, inputReads ++ innerReads, rfl, ?_,
          List.subset_append_left _ _, hfirst⟩
        rw [List.map_nil, List.append_nil]
        exact ⟨inputs, inputReads, kind, clause, innerReads, hinputs, hkind, rfl, rfl⟩
      · obtain ⟨before, node, after, nodeReads, rfl, htask, hreads, hnode⟩ :=
          ih hrest hothers htail
        refine ⟨first :: before, node, after, nodeReads, rfl, ?_,
          List.subset_append_of_subset_right _ hreads, hnode⟩
        rw [List.append_assoc] at htask
        exact htask

end Compile

namespace Node

open Compile

variable {answer : Component → Inputs → Except GraphError Value}

/-- However the nodes inside a node are rearranged, it evaluates to the same value and takes
the same steps up to order, in every table that agrees with this one on the tasks that the
node reads and on the names inside it. -/
def Rearrangeable (answer : Component → Inputs → Except GraphError Value) (node : Node)
    (path : String) (table : ValueTable) (value : Option Value) (steps : List Step) : Prop :=
  ∀ {scopes : Scopes} {level : Nat} {task : Task} {reads : List Reference} {node' : Node}
    {table' : ValueTable},
    CompilesTo scopes level node task reads → Rearranged task node node' →
    (node.inner.map name).Nodup → (∀ sought ∈ node.inner.map name, sought ∉ scopes.flatten) →
    table.AgreeOn table' (reads.map Reference.task ++ node.inner.map name) →
      ∃ steps', Evaluates answer node' path table' value steps' ∧ steps'.Perm steps

variable {outer : Scopes} {nodes nodes' : List Node} {compiled : List Task} {final : Scopes}
  {reads : List Reference} {path : String} {table table' : ValueTable}
  {values : String → Option Value} {inside : String → List Step}

/-- What a node reads, and the names inside it, stand in the table that the nodes before it
leave exactly as in the one that the nodes before it leave in another schedule. -/
theorem agreeOn_settleAll {before before' : List String} {node : Node} {task : Task}
    {nodeReads : List Reference}
    (htask : CompilesTo (before :: outer) outer.length node task nodeReads)
    (hreads : outside outer.length nodeReads ⊆ reads) (hnode : node ∈ nodes)
    (hdistinct : ((listed nodes).map name).Nodup)
    (hapart : ∀ sought ∈ (listed nodes).map name, sought ∉ outer.flatten)
    (hagree : table.AgreeOn table' (reads.map Reference.task ++ (listed nodes).map name))
    (hbefore : before ⊆ nodes.map name) (hbefore' : before' ⊆ nodes.map name)
    (hscheduled : task.dependencies ⊆ before') :
    (table.settleAll values before).AgreeOn (table'.settleAll values before')
      (nodeReads.map Reference.task ++ node.inner.map name) := by
  have hlisted : nodes.map name ⊆ (listed nodes).map name := List.map_subset _ (subset_listed nodes)
  obtain ⟨inputs, inputReads, kind, clause, innerReads, hinputs, hkind, rfl, rfl⟩ := htask
  have hreadIn := (readIn_of_namedArguments hinputs).append (readIn_of_taskKind node hkind)
  intro sought hsought
  rcases List.mem_append.mp hsought with htasks | hinner
  · obtain ⟨read, hread, rfl⟩ := List.mem_map.mp htasks
    rcases cases_of_levelOf?_cons (hreadIn read hread) with ⟨hlevel, hdeclared⟩ | ⟨hlevel, houter⟩
    · -- A sibling: it is behind the node in both orders.
      have hdependency : read.task ∈ siblings outer.length (inputReads ++ innerReads) := by
        rw [mem_siblings, ← hlevel]
        exact hread
      apply ValueTable.get?_settleAll_congr
      · exact hagree _ (List.mem_append_right _ (hlisted (hbefore hdeclared)))
      · exact iff_of_true hdeclared (hscheduled hdependency)
    · -- A task from further out: no node of this pipeline has its name.
      have hnew : read.task ∉ (listed nodes).map name := fun hmem =>
        hapart _ hmem (mem_flatten_of_levelOf? houter)
      have houtside : read ∈ outside outer.length (inputReads ++ innerReads) :=
        List.mem_filter.mpr ⟨hread, decide_eq_true hlevel⟩
      apply ValueTable.get?_settleAll_congr
      · exact hagree _ (List.mem_append_left _ (List.mem_map_of_mem (hreads houtside)))
      · exact iff_of_false (fun hmem => hnew (hlisted (hbefore hmem)))
          (fun hmem => hnew (hlisted (hbefore' hmem)))
  · have hnew := (nodup_names_inner_of_listed hdistinct hnode).2 sought hinner
    apply ValueTable.get?_settleAll_congr
    · exact hagree _ (List.mem_append_right _
        (List.map_subset _ (inner_subset_listed hnode) hinner))
    · exact iff_of_false (fun hmem => hnew (hbefore hmem)) (fun hmem => hnew (hbefore' hmem))

/-- A node that may be rearranged evaluates to its value wherever the siblings that its task
depends on are behind it. -/
theorem exists_evaluates_of_scheduled {before after : List Node} {node node' : Node}
    {task : Task} {nodeReads : List Reference} {before' : List String}
    (hsplit : nodes = before ++ node :: after)
    (htask : CompilesTo (before.map name :: outer) outer.length node task nodeReads)
    (hreads : outside outer.length nodeReads ⊆ reads) (hnode : Rearranged task node node')
    (hdistinct : ((listed nodes).map name).Nodup)
    (hapart : ∀ sought ∈ (listed nodes).map name, sought ∉ outer.flatten)
    (hagree : table.AgreeOn table' (reads.map Reference.task ++ (listed nodes).map name))
    (hbefore' : before' ⊆ nodes.map name) (hscheduled : task.dependencies ⊆ before')
    (hrearrangeable : Rearrangeable answer node (path ++ "/" ++ node.name)
      (table.settleAll values (before.map name)) (values node.name) (inside node.name)) :
    ∃ steps', Evaluates answer node' (path ++ "/" ++ node'.name)
      (table'.settleAll values before') (values node'.name) steps' ∧
        steps'.Perm (inside node'.name) := by
  have hmem : node ∈ nodes := by simp [hsplit]
  have hbefore : before.map name ⊆ nodes.map name := by
    rw [hsplit]
    exact List.map_subset _ (List.subset_append_left _ _)
  obtain ⟨hinner, hinnerNew⟩ := nodup_names_inner_of_listed hdistinct hmem
  have hinnerApart : ∀ sought ∈ node.inner.map name,
      sought ∉ List.flatten (before.map name :: outer) := by
    intro sought hsought hflat
    rcases List.mem_append.mp hflat with hscope | houter
    · exact hinnerNew sought hsought (hbefore hscope)
    · exact hapart sought (List.map_subset _ (inner_subset_listed hmem) hsought) houter
  rw [hnode.name_eq]
  exact hrearrangeable htask hnode hinner hinnerApart
    (agreeOn_settleAll htask hreads hmem hdistinct hapart hagree hbefore hbefore' hscheduled)

/-- Nodes that may be rearranged evaluate to the same values in every schedule of their
tasks. -/
theorem exists_evaluateAll_of_reordered
    (hcompiled : tasks ([] :: outer) outer.length nodes = .ok (compiled, final, reads))
    (hreordered : Reordered compiled nodes nodes')
    (hdistinct : ((listed nodes).map name).Nodup)
    (hapart : ∀ sought ∈ (listed nodes).map name, sought ∉ outer.flatten)
    (hagree : table.AgreeOn table' (reads.map Reference.task ++ (listed nodes).map name))
    (heach : ∀ before node after, nodes = before ++ node :: after →
      Rearrangeable answer node (path ++ "/" ++ node.name)
        (table.settleAll values (before.map name)) (values node.name) (inside node.name)) :
    ∃ inside', EvaluateAll answer nodes' path table' values inside' ∧
      (nodes'.map name).Perm (nodes.map name) ∧
      (Step.ofNodes path values inside' (nodes'.map name)).Perm
        (Step.ofNodes path values inside (nodes.map name)) := by
  have hnames := hreordered.perm_names
  cases hreordered with
  | @intro _ _ pairs order hnodes hperm hschedule =>
    have hall : ∀ before' node' after', order.map Prod.snd = before' ++ node' :: after' →
        ∃ steps', Evaluates answer node' (path ++ "/" ++ node'.name)
          (table'.settleAll values (before'.map name)) (values node'.name) steps' ∧
            steps'.Perm (inside node'.name) := by
      intro before' node' after' hsplit'
      have hbefore' : before'.map name ⊆ nodes.map name := by
        intro sought hsought
        rw [← hnames.mem_iff, hsplit', List.map_append]
        exact List.mem_append_left _ hsought
      obtain ⟨front, others, rfl, rfl, hothers⟩ := List.map_eq_append_iff.mp hsplit'
      obtain ⟨⟨task, node''⟩, back, rfl, rfl, rfl⟩ := List.map_eq_cons_iff.mp hothers
      have hmem : (task, node'') ∈ pairs := hperm.mem_iff.mp (by simp)
      obtain ⟨before, node, after, nodeReads, hsplit, htask, hreads, hnode⟩ :=
        exists_of_mem_rearranged hcompiled hnodes hmem
      exact exists_evaluates_of_scheduled hsplit htask hreads hnode hdistinct hapart hagree
        hbefore' (hschedule.dependencies_subset rfl) (heach before node after hsplit)
    have hdistinct' := hnames.nodup_iff.mpr (nodup_names_of_listed hdistinct)
    obtain ⟨inside', hinside'⟩ := exists_by_name hdistinct' hall
    refine ⟨inside', fun before' node' after' hsplit => (hinside' before' node' after' hsplit).1,
      hnames, Step.perm_ofNodes hnames ?_⟩
    intro sought hsought
    obtain ⟨node', hmem, rfl⟩ := List.mem_map.mp hsought
    obtain ⟨before', after', hsplit⟩ := List.append_of_mem hmem
    exact (hinside' before' node' after' hsplit).2

/-- The table that the nodes of a pipeline leave in another order holds the same under what
the return value reads. -/
theorem agreeOn_settleAll_of_perm {output : Option Argument} {outputReads : List Reference}
    {result : Option Expr} (values : String → Option Value)
    (hcompiled : tasks ([] :: outer) outer.length nodes = .ok (compiled, final, reads))
    (houtput : optionalArgument final result = .ok (output, outputReads))
    (hnames : (nodes'.map name).Perm (nodes.map name))
    (hagree : table.AgreeOn table' ((outside outer.length outputReads).map Reference.task ++
      nodes.map name)) :
    (table.settleAll values (nodes.map name)).AgreeOn
      (table'.settleAll values (nodes'.map name)) (outputReads.map Reference.task) := by
  obtain ⟨-, rfl⟩ := readIn_of_tasks nodes hcompiled
  have hreadIn := readIn_of_optionalArgument houtput
  intro sought hsought
  obtain ⟨read, hread, rfl⟩ := List.mem_map.mp hsought
  apply ValueTable.get?_settleAll_congr
  · apply hagree
    rcases cases_of_levelOf?_cons (hreadIn read hread) with ⟨-, hdeclared⟩ | ⟨hlevel, -⟩
    · exact List.mem_append_right _ hdeclared
    · exact List.mem_append_left _
        (List.mem_map_of_mem (List.mem_filter.mpr ⟨hread, decide_eq_true hlevel⟩))
  · exact hnames.mem_iff.symm

/-- A node that evaluates may be rearranged. -/
theorem Evaluates.rearrangeable {node : Node} {value : Option Value} {steps : List Step}
    (heval : Evaluates answer node path table value steps) :
    Rearrangeable answer node path table value steps := by
  induction heval with
  | @component c path table inputs raw v hinputs hanswer hvalue =>
    intro scopes level task reads node' table' htask hnode _ _ hagree
    cases hnode
    have hsame := htask.resolveAll_congr (ValueTable.agreeOn_append.mp hagree).1
    exact ⟨[], .component (hsame.symm.trans hinputs) hanswer hvalue, .refl _⟩
  | @skipped q path table inputs hinputs hguard =>
    intro scopes level task reads node' table' htask hnode _ _ hagree
    cases hnode
    obtain ⟨hreads, -⟩ := ValueTable.agreeOn_append.mp hagree
    have hsame := htask.resolveAll_congr hreads
    obtain ⟨clause, guardReads, -, -, -, -, -, hclause, -, -, -, hsubset, -⟩ :=
      htask.exists_of_pipeline
    have hguards := holds_congr_of_whenClause hclause (hreads.mono (List.map_subset _ hsubset))
    exact ⟨[], .skipped (hsame.symm.trans hinputs) (hguards.symm.trans hguard), .refl _⟩
  | @pipeline q path table inputs values inside value v hinputs hguard _ hresult hvalue ih =>
    intro scopes level task reads node' table' htask hnode hdistinct hapart hagree
    rw [inner_pipeline] at hdistinct hapart hagree
    obtain ⟨hreads, hinside⟩ := ValueTable.agreeOn_append.mp hagree
    have hsame := htask.resolveAll_congr hreads
    obtain ⟨clause, guardReads, inner, final, innerReads, output, outputReads, hclause, hinner,
      houtput, hkind, hguardReads, hinnerReads, houtputReads⟩ := htask.exists_of_pipeline
    have hguards := holds_congr_of_whenClause hclause (hreads.mono (List.map_subset _ hguardReads))
    cases hnode with
    | @pipeline _ _ nodes inner' output' hkind' hnodes =>
      rw [hkind, TaskKind.dag.injEq] at hkind'
      obtain ⟨rfl, rfl⟩ := hkind'
      have hread := hreads.merge inputs
      have hnamed := hinside.merge inputs
      have hbody := ValueTable.agreeOn_append.mpr
        ⟨hread.mono (List.map_subset _ hinnerReads), hnamed⟩
      obtain ⟨inside', hall, hnames, hsteps⟩ :=
        exists_evaluateAll_of_reordered hinner hnodes hdistinct hapart hbody ih
      have hend := ValueTable.agreeOn_append.mpr
        ⟨hread.mono (List.map_subset _ houtputReads),
          hnamed.mono (List.map_subset _ (subset_listed q.children))⟩
      have hfinal := resolveOption_congr_of_optionalArgument houtput
        (agreeOn_settleAll_of_perm values hinner houtput hnames hend)
      exact ⟨_, .pipeline (hsame.symm.trans hinputs) (hguards.symm.trans hguard) hall
        (hfinal.symm.trans hresult) hvalue, hsteps⟩

end Node

namespace Backend

variable {σ : Type} {backend : Backend σ} {answer : Component → Inputs → Except GraphError Value}
  {p : Pipeline} {w : Workflow} {nodes : List Node} {s : σ} {outcome : RunOutcome}
  {after : RunState σ}

/-- The dependencies of a compiled pipeline are sufficient for any schedule. If the nodes of
the pipeline and of the pipelines inside it are put in an order in which each of them comes
after the siblings that its task depends on, a run that succeeded still succeeds, with the
same return value, the same final table and the same steps up to order. -/
theorem run_eq_ok_of_reordered (hdistinct : (p.nodes.map Node.name).Nodup)
    (hcompile : p.compile = .ok w) (hreordered : Node.Reordered w.tasks p.children nodes)
    (hanswers : backend.Answers answer) (hrun : backend.run p s = (.ok outcome, after)) (s' : σ) :
    ∃ outcome' after', backend.run { p with children := nodes } s' = (.ok outcome', after') ∧
      outcome'.value = outcome.value ∧
      (∀ name, outcome'.values.get? name = outcome.values.get? name) ∧
      outcome'.steps.Perm outcome.steps := by
  obtain ⟨inputs, hinputs, hroot, hsteps⟩ := run_eq_ok.mp hrun
  obtain ⟨hchildren, hvalue⟩ := runPipeline_eq_ok.mp hroot
  obtain ⟨values, inside, hall, hfinal, hafter⟩ :=
    evaluateAll_of_runChildren hanswers p.children hdistinct hchildren
  obtain ⟨-, -, final, reads, output, outputReads, -, htasks, houtput, -⟩ :=
    Compile.exists_of_compile hcompile
  -- Nothing lies outside of the root pipeline, and both runs start from its arguments.
  have hagree : ∀ names, ValueTable.AgreeOn (Named.merge .empty inputs)
      (Named.merge .empty inputs) names := fun names name hname => rfl
  obtain ⟨inside', hall', hnames, hperm⟩ :=
    Node.exists_evaluateAll_of_reordered htasks hreordered hdistinct
      (fun sought hsought => List.not_mem_nil) (hagree _)
      fun before node rest hsplit => (hall before node rest hsplit).rearrangeable
  have hresult := Compile.resolveOption_congr_of_optionalArgument houtput
    (Node.agreeOn_settleAll_of_perm values htasks houtput hnames (hagree _))
  obtain ⟨after', hrun', hsteps'⟩ := exists_runChildren_of_performs
    (fun before node rest hsplit => hanswers.performs (hall' before node rest hsplit))
    (List.nil_append nodes).symm ⟨[], s'⟩
  rw [hfinal] at hvalue
  have hroot' : backend.runPipeline { p with children := nodes } p.name
      (Named.merge .empty inputs) ⟨[], s'⟩ =
        (.ok (outcome.value,
          ValueTable.settleAll (Named.merge .empty inputs) values (nodes.map Node.name)), after') :=
    runPipeline_eq_ok.mpr ⟨hrun', hresult.symm.trans hvalue⟩
  refine ⟨⟨outcome.value, _, after'.steps⟩, after',
    run_eq_ok.mpr ⟨inputs, hinputs, hroot', rfl⟩, rfl, ?_, ?_⟩
  · intro name
    rw [hfinal]
    exact ValueTable.get?_settleAll_congr rfl hnames.mem_iff
  · rw [hsteps, hsteps', hafter]
    exact hperm

end Backend

namespace Swapped

/-- A text. -/
def first : Component := echoed "first" (.literal (.string "hello"))

/-- Another text. -/
def second : Component := echoed "second" (.literal (.string "bye"))

/-- A node of a nested pipeline that reads the first text. -/
def third : Component := echoed "third" first.expr

/-- A node of the nested pipeline that reads nothing. -/
def fourth : Component := echoed "fourth" (.literal (.string "again"))

/-- The nested pipeline with its nodes in some order. -/
def inner (nodes : List Node) : Pipeline :=
  ⟨"inner", .empty, nodes, some third.expr, some .string, none⟩

/-- The nodes of the root pipeline as they are declared. -/
def declared : List Node :=
  [.component first, .component second, .pipeline (inner [.component third, .component fourth])]

/-- The same nodes in another order, also those of the nested pipeline. -/
def moved : List Node :=
  [.component second, .component first, .pipeline (inner [.component fourth, .component third])]

/-- The root pipeline with its nodes in some order. -/
def root (nodes : List Node) : Pipeline :=
  ⟨"main", .empty, nodes, some (inner []).expr, some .string, none⟩

/-- The task of a component that reads nothing. -/
def constant (c : Component) (v : Value) : Task :=
  ⟨c.name, .container (Compile.container c), ⟨[("text", .literal v)]⟩, [], none⟩

/-- The task of the node that reads the first text, which is no sibling. -/
def reading : Task :=
  ⟨"third", .container (Compile.container third), ⟨[("text", .output "first" none)]⟩, [], none⟩

/-- The tasks of the nested pipeline. -/
def innerTasks : List Task := [reading, constant fourth (.string "again")]

/-- The task of the nested pipeline, which depends on the first text. -/
def nested : Task :=
  ⟨"inner", .dag innerTasks (some (.output "third" none)), .empty, ["first"], none⟩

/-- The compiled pipeline. -/
def workflow : Workflow where
  name := "main"
  inputs := .empty
  tasks := [constant first (.string "hello"), constant second (.string "bye"), nested]
  output := some (.output "inner" none)

theorem compile_root : (root declared).compile = .ok workflow := rfl

/-- The nodes of the nested pipeline may be swapped. -/
theorem reordered_inner : Node.Reordered innerTasks [.component third, .component fourth]
    [.component fourth, .component third] := by
  have hnodes : Node.RearrangedAll innerTasks [.component third, .component fourth]
      [(reading, .component third), (constant fourth (.string "again"), .component fourth)] :=
    .cons (.component _ _) (.cons (.component _ _) .nil)
  refine .intro hnodes (.swap _ _ []) ⟨List.nil_subset _, List.nil_subset _, trivial⟩

/-- The nodes of both pipelines may be swapped. The nested one stays behind the text that it
reads. -/
theorem reordered_moved : Node.Reordered workflow.tasks declared moved := by
  have hnodes : Node.RearrangedAll workflow.tasks declared
      [(constant first (.string "hello"), .component first),
        (constant second (.string "bye"), .component second),
        (nested, .pipeline (inner [.component fourth, .component third]))] :=
    .cons (.component _ _) (.cons (.component _ _) (.cons (.pipeline rfl reordered_inner) .nil))
  have hdependency : nested.dependencies ⊆ ["second", "first"] := by decide
  exact .intro hnodes (.swap _ _ _)
    ⟨List.nil_subset _, List.nil_subset _, hdependency, trivial⟩

end Swapped

/-- Two texts and the nodes of a nested pipeline may be run the other way round. -/
theorem run_eq_ok_of_reordered_swapped :
    ((Swapped.root Swapped.declared).nodes.map Node.name).Nodup ∧
      (Swapped.root Swapped.declared).compile = .ok Swapped.workflow ∧
      Node.Reordered Swapped.workflow.tasks Swapped.declared Swapped.moved ∧
      ∃ answer, Backend.inProcess.Answers answer ∧
        ∃ outcome after,
          Backend.inProcess.run (Swapped.root Swapped.declared) () = (.ok outcome, after) ∧
          outcome.value = some (.string "hello") ∧
          ∃ outcome' after',
            Backend.inProcess.run (Swapped.root Swapped.moved) () = (.ok outcome', after') ∧
            outcome'.value = outcome.value ∧
            (∀ name, outcome'.values.get? name = outcome.values.get? name) ∧
            outcome'.steps.Perm outcome.steps := by
  have hdistinct : ((Swapped.root Swapped.declared).nodes.map Node.name).Nodup := by decide
  have hanswers : Backend.inProcess.Answers
      fun c inputs => (Backend.inProcess.runComponent c inputs ()).1 := fun c inputs s => rfl
  have hruns : ∃ outcome after,
      Backend.inProcess.run (Swapped.root Swapped.declared) () = (.ok outcome, after) ∧
        outcome.value = some (.string "hello") := ⟨_, _, rfl, rfl⟩
  obtain ⟨outcome, after, hrun, hvalue⟩ := hruns
  exact ⟨hdistinct, Swapped.compile_root, Swapped.reordered_moved, _, hanswers, outcome, after,
    hrun, hvalue, Backend.run_eq_ok_of_reordered hdistinct Swapped.compile_root
      Swapped.reordered_moved hanswers hrun ()⟩

end Dataflow
