/-
# The dependencies of a task, read off the node

Every reference inside a node mentions a name, past the names that the pipelines between
the node and the reference have declared before it. If one of them has declared the name,
the reference means a task inside the node; otherwise it means one outside. The dependencies
of a task are exactly the siblings before it that its node mentions in this way, in the order
of their first mention. So every dependency is an earlier sibling, and where siblings have
distinct names no task depends on itself, not even through others.
-/

import Dataflow.Proofs.Run.Reference
import Dataflow.Proofs.Workflow.Nesting
import Mathlib.Logic.Relation

namespace Dataflow

/-- A name that is mentioned inside a node. -/
structure Mention where
  name : String
  /-- The names that each pipeline between the node and the mention has declared before it,
  the innermost pipeline first. -/
  between : List (List String)

namespace Mention

/-- What expressions mention, in order, where they stand. -/
def ofExprs (exprs : List Expr) : List Mention :=
  (exprs.flatMap Expr.references).map fun ref => ⟨ref.name, []⟩

/-- A mention, seen from outside of a pipeline that has declared these names before it. -/
def inside (declared : List String) (m : Mention) : Mention :=
  ⟨m.name, m.between ++ [declared]⟩

/-- No pipeline in between has declared the name. -/
def IsFree (m : Mention) : Prop :=
  ∀ declared ∈ m.between, m.name ∉ declared

instance (m : Mention) : Decidable m.IsFree :=
  inferInstanceAs (Decidable (∀ declared ∈ m.between, m.name ∉ declared))

/-- The mention means one of the siblings declared before the node. -/
def MeansOneOf (declared : List String) (m : Mention) : Prop :=
  m.IsFree ∧ m.name ∈ declared

instance (declared : List String) (m : Mention) : Decidable (m.MeansOneOf declared) :=
  inferInstanceAs (Decidable (m.IsFree ∧ m.name ∈ declared))

/-- The names that are mentioned and mean something outside of the node. -/
def free (mentions : List Mention) : List String :=
  (mentions.filter fun m => m.IsFree).map name

@[simp]
theorem inside_name (declared : List String) (m : Mention) : (m.inside declared).name = m.name :=
  rfl

@[simp]
theorem isFree_inside {declared : List String} {m : Mention} :
    (m.inside declared).IsFree ↔ m.IsFree ∧ m.name ∉ declared := by
  simp [IsFree, inside, or_imp, forall_and]

@[simp]
theorem free_append (mentions further : List Mention) :
    free (mentions ++ further) = free mentions ++ free further := by
  simp [free]

theorem ofExprs_append (exprs further : List Expr) :
    ofExprs (exprs ++ further) = ofExprs exprs ++ ofExprs further := by
  simp [ofExprs]

/-- Where they stand, expressions have nothing in between. -/
theorem free_ofExprs (exprs : List Expr) :
    free (ofExprs exprs) = (exprs.flatMap Expr.references).map NodeRef.name := by
  simp [free, ofExprs, IsFree, List.filter_map, Function.comp_def]

/-- Outside of a pipeline, only those names are meant that it has not declared. -/
theorem free_inside (declared : List String) (mentions : List Mention) :
    free (mentions.map (inside declared)) =
      (free mentions).filter fun name => name ∉ declared := by
  simp [free, List.filter_map, List.filter_filter, Function.comp_def, Bool.and_comm]

/-- The names that mean siblings are the names outside of the node that siblings have. -/
theorem map_name_meansOneOf (declared : List String) (mentions : List Mention) :
    (mentions.filter fun m => m.MeansOneOf declared).map name =
      (free mentions).filter fun name => name ∈ declared := by
  rw [free, List.filter_map, List.filter_filter]
  refine congrArg (List.map Mention.name) (List.filter_congr fun m _ => ?_)
  rw [Function.comp_apply, ← Bool.decide_and, decide_eq_decide]
  exact and_comm

end Mention

namespace Node

mutual

/-- What is mentioned inside a nested pipeline: by its nodes, and then by its return value. -/
def mentionsInside : Node → List Mention
  | .component _ => []
  | .pipeline ⟨_, _, children, returnValue, _, _⟩ =>
    mentionsAmong [] children ++
      (Mention.ofExprs returnValue.toList).map (.inside (children.map name))

/-- What the nodes of a pipeline mention one after another, seen from outside of the
pipeline, after the nodes with these names. -/
def mentionsAmong (before : List String) : List Node → List Mention
  | [] => []
  | child :: rest =>
    (Mention.ofExprs (child.inputs.values ++ child.operands) ++ mentionsInside child).map
        (.inside before) ++
      mentionsAmong (before ++ [child.name]) rest

end

/-- What a node mentions: its inputs, then the operands of its guard, and then whatever is
inside it. -/
def mentions (node : Node) : List Mention :=
  Mention.ofExprs (node.inputs.values ++ node.operands) ++ node.mentionsInside

/-- What a node mentions of the siblings before it, the nodes with these names. -/
def siblingsMentioned (before : List String) (node : Node) : List String :=
  (node.mentions.filter fun m => m.MeansOneOf before).map Mention.name

theorem mem_of_mem_siblingsMentioned {before : List String} {node : Node} {name : String}
    (hname : name ∈ node.siblingsMentioned before) : name ∈ before := by
  obtain ⟨m, hm, rfl⟩ := List.mem_map.mp hname
  have hmeans : m.MeansOneOf before := by simpa using (List.mem_filter.mp hm).2
  exact hmeans.2

end Node

/-- A list of names has those of another list, each once, in the order of their first
occurrences. -/
structure ListsFirst (found occurrences : List String) : Prop where
  /-- No name is repeated. -/
  nodup : found.Nodup
  /-- The names are the same. -/
  mem_iff : ∀ name, name ∈ found ↔ name ∈ occurrences
  /-- A name that occurs first comes first. -/
  ordered : found.Pairwise fun name other => occurrences.idxOf name < occurrences.idxOf other

/-- Expressions under names refer to nodes one after another. -/
theorem Expr.fieldReferences_eq_flatMap (fields : List (String × Expr)) :
    fieldReferences fields = (fields.map Prod.snd).flatMap references := by
  induction fields with
  | nil => rfl
  | cons field rest ih => rw [fieldReferences, ih, List.map_cons, List.flatMap_cons]

/-- Names in order of first occurrence. -/
theorem Expr.listsFirst_firstOccurrences (names : List String) :
    ListsFirst (firstOccurrences names) names := by
  have hordered : (firstOccurrences names).Pairwise fun name other =>
      names.idxOf name < names.idxOf other := by
    induction names with
    | nil => exact .nil
    | cons first rest ih =>
      have hother : ∀ name ∈ (firstOccurrences rest).filter (· != first), first ≠ name := by
        intro name hname
        have hne := (List.mem_filter.mp hname).2
        rw [bne_iff_ne] at hne
        exact hne.symm
      rw [firstOccurrences, List.pairwise_cons]
      refine ⟨fun name hname => ?_, (ih.filter _).imp_of_mem fun hname hlater hlt => ?_⟩
      · rw [List.idxOf_cons_self, List.idxOf_cons_ne rest (hother name hname)]
        exact Nat.succ_pos _
      · rw [List.idxOf_cons_ne rest (hother _ hname), List.idxOf_cons_ne rest (hother _ hlater)]
        exact Nat.succ_lt_succ hlt
  refine ⟨hordered.imp ?_, fun name => mem_firstOccurrences, hordered⟩
  rintro name _ hlt rfl
  exact Nat.lt_irrefl _ hlt

namespace Compile

variable {scopes outer : Scopes} {scope : List String} {reads : List Reference}

/-- A name is declared at the innermost level exactly if the innermost pipeline has declared
it. -/
theorem level_eq_iff_mem {name : String} {level : Nat}
    (hlevel : levelOf? name (scope :: outer) = some level) :
    level = outer.length ↔ name ∈ scope := by
  constructor
  · intro hinnermost
    rcases cases_of_levelOf?_cons hlevel with ⟨-, hmem⟩ | ⟨hlt, -⟩
    · exact hmem
    · exact absurd hinnermost (Nat.ne_of_lt hlt)
  · intro hmem
    rw [levelOf?, if_pos (List.contains_iff_mem.mpr hmem)] at hlevel
    exact (Option.some.inj hlevel).symm

/-- Of the tasks that are read, those of the innermost pipeline are the ones that it has
declared. -/
theorem map_task_at_level (hreads : ReadIn (scope :: outer) reads) :
    (reads.filter fun read => read.level == outer.length).map Reference.task =
      (reads.map Reference.task).filter fun name => name ∈ scope := by
  rw [List.filter_map]
  refine congrArg (List.map Reference.task) (List.filter_congr fun read hread => ?_)
  rw [beq_eq_decide, Function.comp_apply, decide_eq_decide]
  exact level_eq_iff_mem (hreads read hread)

/-- Of the tasks that are read, those outside of the innermost pipeline are the ones that it
has not declared. -/
theorem map_task_outside (hreads : ReadIn (scope :: outer) reads) :
    (outside outer.length reads).map Reference.task =
      (reads.map Reference.task).filter fun name => name ∉ scope := by
  rw [outside, List.filter_map]
  refine congrArg (List.map Reference.task) (List.filter_congr fun read hread => ?_)
  have hlevel := hreads read hread
  have hlt : read.level < outer.length + 1 := lt_length_of_levelOf? hlevel
  rw [Function.comp_apply, decide_eq_decide, ← level_eq_iff_mem hlevel]
  omega

theorem map_task_of_readFor {refs : List NodeRef}
    (hreads : List.Forall₂ (ReadFor scopes) refs reads) :
    reads.map Reference.task = refs.map NodeRef.name := by
  induction hreads with
  | nil => rfl
  | cons hfirst _ ih => rw [List.map_cons, List.map_cons, hfirst.1, ih]

/-- The inputs of a node read what they mention. -/
theorem map_task_of_namedArguments {exprs : Named Expr} {inputs : Named Argument}
    (hcompiled : namedArguments scopes exprs = .ok (inputs, reads)) :
    reads.map Reference.task = Mention.free (Mention.ofExprs exprs.values) := by
  obtain ⟨parts, hparts, -⟩ := exists_of_namedArguments hcompiled
  rw [map_task_of_readFor (reads_of_arguments _ hparts), Mention.free_ofExprs,
    Expr.fieldReferences_eq_flatMap, Named.values]

/-- A return value reads what it mentions. -/
theorem map_task_of_optionalArgument {result : Option Expr} {output : Option Argument}
    (hcompiled : optionalArgument scopes result = .ok (output, reads)) :
    reads.map Reference.task = Mention.free (Mention.ofExprs result.toList) := by
  cases result with
  | none =>
    rw [optionalArgument, Except.ok.injEq, Prod.mk.injEq] at hcompiled
    rw [← hcompiled.2]
    rfl
  | some e =>
    obtain ⟨compiled, hargument, -⟩ := argument_of_optionalArgument hcompiled
    rw [map_task_of_readFor (reads_of_argument e hargument), Mention.free_ofExprs]
    simp

/-- A guard reads what its operands mention. -/
theorem map_task_of_whenClause {q : Pipeline} {clause : Option WhenClause}
    (hcompiled : whenClause scopes q.condition = .ok (clause, reads)) :
    reads.map Reference.task = Mention.free (Mention.ofExprs (Node.pipeline q).operands) := by
  have hsame : (Node.pipeline q).guard = q.condition := rfl
  cases hguard : q.condition with
  | none =>
    rw [hguard, whenClause, Except.ok.injEq, Prod.mk.injEq] at hcompiled
    rw [← hcompiled.2, Node.operands_of_guard_eq_none (hsame.trans hguard)]
    rfl
  | some condition =>
    rw [hguard] at hcompiled
    obtain ⟨left, right, first, further, hleft, hright, -, rfl⟩ :=
      arguments_of_whenClause hcompiled
    rw [List.map_append, map_task_of_readFor (reads_of_argument _ hleft),
      map_task_of_readFor (reads_of_argument _ hright), Mention.free_ofExprs,
      Node.operands_of_guard_eq_some (hsame.trans hguard)]
    simp

mutual

/-- What is read inside a nested pipeline, and not declared there, is mentioned there. -/
theorem map_task_of_taskKind : ∀ (node : Node) {kind : TaskKind} {clause : Option WhenClause}
    {scopes : Scopes} {reads : List Reference},
    taskKind scopes node = .ok (kind, clause, reads) →
      reads.map Reference.task = Mention.free (Mention.ofExprs node.operands) ++
        Mention.free node.mentionsInside
  | .component c, kind, clause, scopes, reads, hcompiled => by
    rw [taskKind, Except.ok.injEq, Prod.mk.injEq, Prod.mk.injEq] at hcompiled
    rw [← hcompiled.2.2]
    rfl
  | .pipeline ⟨name, given, children, returnValue, returns, condition⟩, kind, clause, scopes,
    reads, hcompiled => by
    obtain ⟨guardReads, inner, final, innerReads, output, outputReads, hclause, hinner, houtput,
      -, rfl⟩ := exists_of_taskKind_pipeline hcompiled
    -- The return value is compiled where all nodes are declared.
    obtain ⟨-, rfl⟩ := readIn_of_tasks children hinner
    rw [List.map_append, List.map_append, map_task_of_whenClause hclause,
      map_task_of_tasks children hinner, map_task_outside (readIn_of_optionalArgument houtput),
      map_task_of_optionalArgument houtput, Node.mentionsInside, Mention.free_append,
      Mention.free_inside, List.nil_append, List.append_assoc]

/-- What the nodes of a pipeline read outside of it, they mention. -/
theorem map_task_of_tasks : ∀ (nodes : List Node) {scope : List String} {outer : Scopes}
    {compiled : List Task} {final : Scopes} {reads : List Reference},
    tasks (scope :: outer) outer.length nodes = .ok (compiled, final, reads) →
      reads.map Reference.task = Mention.free (Node.mentionsAmong scope nodes)
  | [], scope, outer, compiled, final, reads, hcompiled => by
    rw [tasks, Except.ok.injEq, Prod.mk.injEq, Prod.mk.injEq] at hcompiled
    rw [← hcompiled.2.2]
    rfl
  | child :: rest, scope, outer, compiled, final, reads, hcompiled => by
    obtain ⟨inputs, inputReads, kind, clause, innerReads, further, furtherReads, hinputs, hkind,
      hrest, -, rfl⟩ := exists_of_tasks_cons hcompiled
    have hread := (readIn_of_namedArguments hinputs).append (readIn_of_taskKind child hkind)
    rw [List.map_append, map_task_outside hread, List.map_append,
      map_task_of_namedArguments hinputs, map_task_of_taskKind child hkind,
      map_task_of_tasks rest hrest, Node.mentionsAmong, Mention.free_append, Mention.free_inside,
      Mention.free_append, Mention.ofExprs_append, Mention.free_append, List.append_assoc]

end

/-- What a node that is compiled reads, it mentions. -/
theorem CompilesTo.map_task {level : Nat} {node : Node} {task : Task}
    (hcompiles : CompilesTo scopes level node task reads) :
    reads.map Reference.task = Mention.free node.mentions := by
  obtain ⟨inputs, inputReads, kind, clause, innerReads, hinputs, hkind, -, rfl⟩ := hcompiles
  rw [List.map_append, map_task_of_namedArguments hinputs, map_task_of_taskKind node hkind,
    Node.mentions, Mention.free_append, Mention.ofExprs_append, Mention.free_append,
    List.append_assoc]

/-- The dependencies of a task are the siblings before it that its node mentions. -/
theorem CompilesTo.dependencies_eq {node : Node} {task : Task}
    (hcompiles : CompilesTo (scope :: outer) outer.length node task reads) :
    task.dependencies = Expr.firstOccurrences (node.siblingsMentioned scope) := by
  have hmentions := hcompiles.map_task
  obtain ⟨inputs, inputReads, kind, clause, innerReads, hinputs, hkind, rfl, rfl⟩ := hcompiles
  have hread := (readIn_of_namedArguments hinputs).append (readIn_of_taskKind node hkind)
  rw [siblings, map_task_at_level hread, hmentions, Node.siblingsMentioned,
    Mention.map_name_meansOneOf]

end Compile

namespace Task

/-- In a list of tasks, the task of a name depends on the task of another name. -/
def WaitsFor (tasks : List Task) (name other : String) : Prop :=
  ∃ task ∈ tasks, task.name = name ∧ other ∈ task.dependencies

/-- No task depends on itself, neither directly nor through others. -/
def Acyclic (tasks : List Task) : Prop :=
  ∀ name, ¬ Relation.TransGen (WaitsFor tasks) name name

/-- The tasks were made from these nodes, and the dependencies of each task are the siblings
before it that its node mentions. -/
structure DependsAsMentioned (tasks : List Task) (nodes : List Node) : Prop where
  /-- There is one task for each node, under its name. -/
  names : tasks.map name = nodes.map Node.name
  /-- The dependencies of a task are what its node mentions of the nodes before it. -/
  mentioned : ∀ (position : Nat) (task : Task), tasks[position]? = some task →
    ∃ node : Node, nodes[position]? = some node ∧
      ListsFirst task.dependencies
        (node.siblingsMentioned ((nodes.take position).map Node.name))
  /-- The dependencies of a task are tasks before it. -/
  earlier : ∀ (position : Nat) (task : Task), tasks[position]? = some task →
    task.dependencies ⊆ (tasks.take position).map name

/-- Where tasks with distinct names depend on earlier ones only, there is no cycle. -/
theorem DependsAsMentioned.acyclic {tasks : List Task} {nodes : List Node}
    (h : DependsAsMentioned tasks nodes) (hdistinct : (nodes.map Node.name).Nodup) :
    Acyclic tasks := by
  rw [← h.names] at hdistinct
  -- Every dependency stands before its task.
  have hearlier : ∀ name other, WaitsFor tasks name other →
      (tasks.map Task.name).idxOf other < (tasks.map Task.name).idxOf name := by
    rintro _ other ⟨task, htask, rfl, hother⟩
    obtain ⟨position, hlt, rfl⟩ := List.mem_iff_getElem.mp htask
    have hmem := h.earlier position _ (List.getElem?_eq_getElem hlt) hother
    rw [List.map_take] at hmem
    have hplace : (tasks.map Task.name).idxOf tasks[position].name = position := by
      have hfound := hdistinct.idxOf_getElem position (by simpa using hlt)
      rwa [List.getElem_map] at hfound
    rw [hplace]
    exact (List.mem_take_iff_idxOf_lt (List.mem_of_mem_take hmem)).mp hmem
  intro name hcycle
  have hbefore : Relation.TransGen (fun place place' : Nat => place' < place)
      ((tasks.map Task.name).idxOf name) ((tasks.map Task.name).idxOf name) :=
    Relation.TransGen.lift ((tasks.map Task.name).idxOf ·) hearlier name name hcycle
  rw [Relation.transGen_eq_self] at hbefore
  exact Nat.lt_irrefl _ hbefore

end Task

/-- Compiled tasks depend on exactly the siblings that their nodes mention. -/
theorem Compile.dependsAsMentioned_of_tasks {outer : Scopes} {nodes : List Node}
    {compiled : List Task} {final : Scopes} {reads : List Reference}
    (hcompiled : tasks ([] :: outer) outer.length nodes = .ok (compiled, final, reads)) :
    Task.DependsAsMentioned compiled nodes := by
  have hnames := map_name_of_tasks hcompiled
  have hmentioned : ∀ (position : Nat) (task : Task), compiled[position]? = some task →
      ∃ node : Node, nodes[position]? = some node ∧ ListsFirst task.dependencies
        (node.siblingsMentioned ((nodes.take position).map Node.name)) := by
    intro position task htask
    obtain ⟨node, nodeReads, hnode, hcompiles⟩ := exists_compilesTo_of_getElem? hcompiled htask
    refine ⟨node, hnode, ?_⟩
    rw [hcompiles.dependencies_eq, List.nil_append]
    exact Expr.listsFirst_firstOccurrences _
  refine ⟨hnames, hmentioned, ?_⟩
  intro position task htask name hname
  obtain ⟨node, -, hlists⟩ := hmentioned position task htask
  rw [List.map_take, hnames, ← List.map_take]
  exact Node.mem_of_mem_siblingsMentioned ((hlists.mem_iff name).mp hname)

/-- The dependencies of every task of a compiled pipeline, however deep inside, are exactly
the siblings before it that are mentioned inside its node, each once and in the order of their
first mention. The tasks of a traced pipeline depend on each other without a cycle. -/
theorem Pipeline.dependencies_of_compile {p : Pipeline} {w : Workflow}
    (hcompile : p.compile = .ok w) :
    ∀ address tasks, w.listAt? address = some tasks →
      (∃ nodes, p.listAt? address = some nodes ∧ Task.DependsAsMentioned tasks nodes) ∧
        (p.Traced → Task.Acyclic tasks) := by
  intro address tasks htasks
  obtain ⟨nodes, around, final, reads, hnodes, hcompiled⟩ := exists_of_listAt? hcompile htasks
  have hdepends := Compile.dependsAsMentioned_of_tasks hcompiled
  exact ⟨⟨nodes, hnodes, hdepends⟩,
    fun htraced => hdepends.acyclic (htraced.nodup_names_of_listAt? hnodes)⟩

namespace Layered

/-- A text. -/
def text : Component := echoed "text" (.literal (.string "hello"))

/-- Another text, made from it. -/
def other : Component := echoed "other" text.expr

/-- A pipeline that only returns the other text. -/
def returning : Pipeline := ⟨"returning", .empty, [], some other.expr, some .string, none⟩

/-- A guarded pipeline that declares the name of the text again, and then reads it. -/
def guarded : Pipeline :=
  ⟨"condition", .empty,
    [.component (echoed "text" text.expr), .component (echoed "last" text.expr),
      .pipeline returning], none, none,
    some ⟨other.expr, .literal (.string "hello"), .equal⟩⟩

/-- The root pipeline. -/
def root : Pipeline :=
  ⟨"main", .empty, [.component text, .component other, .pipeline guarded], none, none, none⟩

theorem root_traced : root.Traced := by
  refine ⟨Unit, .invoke ⟨"main", some "main", [], none⟩ [], fun _ => do
    let text ← .call (echo "text") [("text", .literal (.string "hello"))]
    let other ← .call (echo "other") [("text", text.expr)]
    let _ ← .guardedBy other.expr (.literal (.string "hello")) .equal do
      let again ← .call (echo "text") [("text", text.expr)]
      let _ ← .call (echo "last") [("text", again.expr)]
      let _ ← .nest (.invoke ⟨"returning", some "returning", [], none⟩ []) fun _ =>
        .result (some other.expr)
      return ()
    return none,
    .start { Settings.default with suffixLength := 0 } ⟨fun _ => 0, 0⟩, (), ?_⟩
  rfl

end Layered

/-- Inside the guarded pipeline, the name of the text means the text outside before it is
declared again, and the inner one afterwards. -/
theorem dependencies_of_compile_layered :
    Layered.root.Traced ∧ ∃ w tasks inner nodes, Layered.root.compile = .ok w ∧
      w.listAt? [] = some tasks ∧ w.listAt? [2] = some inner ∧
      tasks.map Task.dependencies = [[], ["text"], ["other", "text"]] ∧
      inner.map Task.dependencies = [[], ["text"], []] ∧
      Layered.root.listAt? [2] = some nodes ∧ Task.DependsAsMentioned inner nodes ∧
      Task.Acyclic tasks := by
  obtain ⟨w, tasks, inner, hcompile, htasks, hinner, hdependencies, hwithin⟩ :
      ∃ w tasks inner, Layered.root.compile = .ok w ∧
        w.listAt? [] = some tasks ∧ w.listAt? [2] = some inner ∧
        tasks.map Task.dependencies = [[], ["text"], ["other", "text"]] ∧
        inner.map Task.dependencies = [[], ["text"], []] :=
    ⟨_, _, _, rfl, rfl, rfl, rfl, rfl⟩
  obtain ⟨-, hacyclic⟩ := Pipeline.dependencies_of_compile hcompile [] tasks htasks
  obtain ⟨⟨nodes, hnodes, hmentions⟩, -⟩ :=
    Pipeline.dependencies_of_compile hcompile [2] inner hinner
  exact ⟨Layered.root_traced, w, tasks, inner, nodes, hcompile, htasks, hinner, hdependencies,
    hwithin, hnodes, hmentions, hacyclic Layered.root_traced⟩

end Dataflow
