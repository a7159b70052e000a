/-
# Documents refer to what is delivered

Compiling a pipeline only makes outputs of tasks in view. That such a task also delivers
the field that is read rests on the names of its type: they are those of the document
unless a nested pipeline returns a positional record under a type with names of its own.
The compiler leaves the positional names in the document, whereas a run replaces them.
-/

import Dataflow.Proofs.Run.Reference
import Dataflow.Proofs.Workflow.Conformance

namespace Dataflow

namespace Pipeline

/-- What a nested pipeline declares to return has no other field names than its return
value. A positional record under a type with names of its own breaks this. -/
def KeepsNames (p : Pipeline) : Prop :=
  ∀ q, .pipeline q ∈ p.nodes → ∀ type e found, q.returns = some type →
    q.returnValue = some e → e.infer = .ok found → ∀ path, type.Has path → found.Has path

/-- Where no nested pipeline returns a positional record, the names are kept. -/
theorem Traced.keepsNames {p : Pipeline} (h : p.Traced)
    (hnamed : ∀ q, .pipeline q ∈ p.nodes → ∀ e found, q.returnValue = some e →
      e.infer = .ok found → found.isNamed = true) : p.KeepsNames := by
  intro q hq type e found hreturns he hinfer path hhas
  have hchecked := h.checked (.inr hq)
  rw [Checked, hreturns] at hchecked
  obtain ⟨e', found', he', hinfer', haccepts⟩ := hchecked
  obtain rfl : e' = e := Option.some.inj (he'.symm.trans he)
  obtain rfl : found' = found := Except.ok.inj (hinfer'.symm.trans hinfer)
  exact hhas.of_accepts haccepts (hnamed q hq e' found' he hinfer)

end Pipeline

/-- Every task in view is that of a node of its name, and it delivers what values of the
type of the node have if the names of fields are kept. -/
def TaskScopes.Serves (p : Pipeline) (view : TaskScopes) : Prop :=
  ∀ name task around, view.Declares name task around → ∃ node ∈ p.nodes, node.name = name ∧
    (p.KeepsNames → ∀ type, node.ref.type = some type → ∀ path, type.Has path →
      task.Delivers around path)

namespace TaskScopes

variable {p : Pipeline} {view : TaskScopes}

theorem Serves.open (h : view.Serves p) : Serves p ([] :: view) := by
  intro name task around hdeclares
  cases hdeclares with
  | further houter => exact h name task around houter

theorem serves_root (p : Pipeline) : Serves p [[]] := by
  intro name task around hdeclares
  cases hdeclares with
  | further houter => cases houter

/-- A task that is declared for a node comes into view. -/
theorem Serves.declare {before : List Task} {outer : TaskScopes} (h : Serves p (before :: outer))
    {node : Node} (hnode : node ∈ p.nodes) (task : Task) (hname : task.name = node.name)
    (hdelivers : p.KeepsNames → ∀ type, node.ref.type = some type → ∀ path, type.Has path →
      task.Delivers (before :: outer) path) : Serves p ((task :: before) :: outer) := by
  intro name declared around hdeclares
  cases hdeclares with
  | here hsame => exact ⟨node, hnode, hname.symm.trans hsame, hdelivers⟩
  | earlier _ hbefore => exact h name declared around hbefore

/-- The nodes that expressions of the pipeline refer to are served. -/
theorem Serves.served (h : view.Serves p) (hp : p.NamesApart) (hkeeps : p.KeepsNames)
    {ref : NodeRef} (href : ref ∈ p.references) : Compile.Served view ref := by
  intro task around hdeclares type htype
  obtain ⟨node, hnode, hname, hdelivers⟩ := h ref.name task around hdeclares
  rw [← hp.faithful ref href node hnode hname] at htype
  exact hdelivers hkeeps type htype

@[simp]
theorem names_declare (task : Task) (before : List Task) (outer : TaskScopes) :
    names ((task :: before) :: outer) = Compile.declare task.name (names (before :: outer)) := by
  simp [names, Compile.declare]

end TaskScopes

namespace Compile

variable {p : Pipeline}

/-- At this place stands what an expression of the pipeline is compiled to, and the tasks in
view are served. -/
def Sourced (p : Pipeline) (place : TaskScopes × Argument) : Prop :=
  place.1.Serves p ∧ ∃ e ∈ p.exprs, ∃ reads, argument place.1.names e = .ok (place.2, reads)

theorem exists_of_mem_arguments {scopes : Scopes} {fields : List (String × Expr)}
    {parts : List (String × Argument)} {reads : List Reference}
    (hcompiled : arguments scopes fields = .ok (parts, reads)) :
    ∀ part ∈ parts, ∃ e ∈ fields.map Prod.snd, ∃ reads, argument scopes e = .ok (part.2, reads) := by
  induction fields generalizing parts reads with
  | nil =>
    obtain ⟨rfl, -⟩ := arguments_nil_eq_ok.mp hcompiled
    exact fun part hpart => absurd hpart List.not_mem_nil
  | cons field rest ih =>
    obtain ⟨part, first, others, further, hpart, hothers, rfl, -⟩ :=
      arguments_cons_eq_ok.mp hcompiled
    intro other hother
    rcases List.mem_cons.mp hother with rfl | hlater
    · exact ⟨field.2, List.mem_cons_self, first, hpart⟩
    · obtain ⟨e, he, hargument⟩ := ih hothers other hlater
      exact ⟨e, List.mem_cons_of_mem _ he, hargument⟩

theorem sourced_of_namedArguments {view : TaskScopes} {exprs : Named Expr}
    {inputs : Named Argument} {reads : List Reference}
    (hcompiled : namedArguments view.names exprs = .ok (inputs, reads)) (hview : view.Serves p)
    (hexprs : exprs.values ⊆ p.exprs) : ∀ given ∈ inputs.values, Sourced p (view, given) := by
  obtain ⟨parts, hparts, rfl⟩ := exists_of_namedArguments hcompiled
  intro given hgiven
  obtain ⟨part, hpart, rfl⟩ := List.mem_map.mp hgiven
  obtain ⟨e, he, hargument⟩ := exists_of_mem_arguments hparts part (Named.subset_ofList parts hpart)
  exact ⟨hview, e, hexprs he, hargument⟩

theorem operands_subset_exprs {q : Pipeline} (hq : .pipeline q ∈ p.nodes) {condition : Condition}
    (hcondition : q.condition = some condition) :
    [condition.left, condition.right] ⊆ p.exprs := by
  have hguard : (Node.pipeline q).guard = some condition := hcondition
  rw [← Node.operands_of_guard_eq_some hguard]
  intro e he
  exact Pipeline.mem_exprs_of_mem_nodes hq (List.mem_append_left _ (List.mem_append_right _ he))

theorem sourced_of_whenClause {view : TaskScopes} {guard : Option Condition}
    {clause : Option WhenClause} {reads : List Reference}
    (hcompiled : whenClause view.names guard = .ok (clause, reads)) (hview : view.Serves p)
    (hguard : ∀ condition, guard = some condition →
      [condition.left, condition.right] ⊆ p.exprs) :
    ∀ operand ∈ clause.toList.flatMap WhenClause.operands, Sourced p (view, operand) := by
  cases guard with
  | none =>
    rw [whenClause, Except.ok.injEq, Prod.mk.injEq] at hcompiled
    rw [← hcompiled.1]
    exact fun operand hoperand => absurd hoperand List.not_mem_nil
  | some condition =>
    have hoperands := hguard condition rfl
    have hright := hoperands (List.mem_cons_of_mem _ List.mem_cons_self)
    obtain ⟨left, right, first, further, hfirst, hsecond, rfl, -⟩ :=
      arguments_of_whenClause hcompiled
    intro operand hoperand
    simp only [Option.toList_some, List.flatMap_cons, List.flatMap_nil, List.append_nil,
      WhenClause.operands, List.mem_cons, List.not_mem_nil, or_false] at hoperand
    rcases hoperand with rfl | rfl
    · exact ⟨hview, condition.left, hoperands List.mem_cons_self, first, hfirst⟩
    · exact ⟨hview, condition.right, hright, further, hsecond⟩

theorem sourced_of_optionalArgument {view : TaskScopes} {result : Option Expr}
    {output : Option Argument} {reads : List Reference}
    (hcompiled : optionalArgument view.names result = .ok (output, reads)) (hview : view.Serves p)
    (hresult : result.toList ⊆ p.exprs) :
    ∀ returned ∈ output.toList, Sourced p (view, returned) := by
  cases result with
  | none =>
    rw [optionalArgument, Except.ok.injEq, Prod.mk.injEq] at hcompiled
    rw [← hcompiled.1]
    exact fun returned hreturned => absurd hreturned List.not_mem_nil
  | some e =>
    obtain ⟨compiled, hargument, rfl⟩ := argument_of_optionalArgument hcompiled
    intro returned hreturned
    obtain rfl := List.mem_singleton.mp hreturned
    exact ⟨hview, e, hresult List.mem_cons_self, reads, hargument⟩

theorem delivers_container {view : TaskScopes} {c : Component} {task : Task}
    (hkind : task.kind = .container (container c)) {path : List String}
    (hhas : c.returns.Has path) : task.Delivers view path := by
  cases path with
  | nil => exact .whole
  | cons name rest =>
    cases hreturns : c.returns with
    | string | integer | float | boolean =>
      rw [hreturns] at hhas
      exact hhas.elim
    | record schema =>
      rw [hreturns] at hhas
      obtain ⟨type, hmem, hrest⟩ := hhas
      refine .container hkind ?_ hrest
      rw [container, hreturns]
      exact hmem

/-- The dag of a nested pipeline delivers what values of its type have, if the names of
fields are kept. -/
theorem delivers_dag (ht : p.Traced) (hp : p.NamesApart) (hkeeps : p.KeepsNames) {q : Pipeline}
    (hq : .pipeline q ∈ p.nodes) {view : TaskScopes} {task : Task} {inner : List Task}
    {output : Option Argument} {reads : List Reference} (hkind : task.kind = .dag inner output)
    (hinner : TaskScopes.Serves p (inner.reverse :: view))
    (houtput : optionalArgument (TaskScopes.names (inner.reverse :: view)) q.returnValue =
      .ok (output, reads)) {type : ValueType} (htype : q.returns = some type)
    {path : List String} (hhas : type.Has path) : task.Delivers view path := by
  have hchecked := ht.checked (.inr hq)
  rw [Pipeline.Checked, htype] at hchecked
  obtain ⟨e, found, he, hinfer, -⟩ := hchecked
  rw [he] at houtput
  obtain ⟨compiled, hargument, rfl⟩ := argument_of_optionalArgument houtput
  have hexpr : e ∈ p.exprs :=
    Pipeline.mem_exprs_of_mem_nodes hq (List.mem_append_right _ (by simp [Node.result, he]))
  have hconforms : Conforms (inner.reverse :: view) compiled found :=
    conforms_of_argument e hargument hinfer fun ref href =>
      hinner.served hp hkeeps (List.mem_flatMap.mpr ⟨e, hexpr, href⟩)
  exact .dag hkind (hconforms.delivers (hkeeps q hq type e found htype he hinfer path hhas))

mutual

/-- Whatever stands inside a task is compiled from expressions of the pipeline, in view of
tasks that are served, and the task serves its node. -/
theorem sourced_of_taskKind (ht : p.Traced) (hp : p.NamesApart) : ∀ (node : Node)
    {view : TaskScopes} {kind : TaskKind} {clause : Option WhenClause} {reads : List Reference},
    node ∈ p.nodes → node.inner ⊆ p.nodes →
    taskKind view.names node = .ok (kind, clause, reads) → view.Serves p →
      (∀ place ∈ Task.placesInside view kind, Sourced p place) ∧
      (∀ operand ∈ clause.toList.flatMap WhenClause.operands, Sourced p (view, operand)) ∧
      ∀ task : Task, task.kind = kind → p.KeepsNames → ∀ type, node.ref.type = some type →
        ∀ path, type.Has path → task.Delivers view path
  | .component c, view, kind, clause, reads, _, _, hcompiled, _ => by
    rw [taskKind, Except.ok.injEq, Prod.mk.injEq, Prod.mk.injEq] at hcompiled
    obtain ⟨rfl, rfl, rfl⟩ := hcompiled
    refine ⟨fun place hplace => absurd hplace List.not_mem_nil,
      fun operand hoperand => absurd hoperand List.not_mem_nil, ?_⟩
    intro task hkind _ type htype path hhas
    obtain rfl : c.returns = type := Option.some.inj htype
    exact delivers_container hkind hhas
  | .pipeline ⟨name, inputs, children, returnValue, returns, condition⟩, view, kind, clause,
    reads, hnode, hinner, hcompiled, hview => by
    obtain ⟨guardReads, inner, innerScopes, innerReads, output, outputReads, hclause, htasks,
      houtput, rfl, -⟩ := exists_of_taskKind_pipeline hcompiled
    have hopened : tasks (TaskScopes.names ([] :: view)) view.names.length children =
        .ok (inner, innerScopes, innerReads) := htasks
    obtain ⟨hplaces, rfl, hserves⟩ := sourced_of_tasks ht hp children hinner hopened hview.open
    rw [List.append_nil] at houtput hserves
    refine ⟨?_, ?_, ?_⟩
    · intro place hplace
      rw [Task.placesInside, List.mem_append] at hplace
      rcases hplace with hamong | hresult
      · exact hplaces place hamong
      · obtain ⟨returned, hreturned, rfl⟩ := List.mem_map.mp hresult
        refine sourced_of_optionalArgument houtput hserves ?_ returned hreturned
        intro e he
        exact Pipeline.mem_exprs_of_mem_nodes hnode (List.mem_append_right _ he)
    · exact sourced_of_whenClause hclause hview fun condition hcondition =>
        operands_subset_exprs hnode hcondition
    · intro task hkind hkeeps type htype path hhas
      exact delivers_dag ht hp hkeeps hnode hkind hserves houtput htype hhas

theorem sourced_of_tasks (ht : p.Traced) (hp : p.NamesApart) : ∀ (nodes : List Node)
    {before : List Task} {outer : TaskScopes} {level : Nat} {compiled : List Task}
    {final : Scopes} {reads : List Reference}, Node.listed nodes ⊆ p.nodes →
    tasks (TaskScopes.names (before :: outer)) level nodes = .ok (compiled, final, reads) →
    TaskScopes.Serves p (before :: outer) →
      (∀ place ∈ Task.placesAmong before outer compiled, Sourced p place) ∧
      final = TaskScopes.names ((compiled.reverse ++ before) :: outer) ∧
      TaskScopes.Serves p ((compiled.reverse ++ before) :: outer)
  | [], before, outer, level, compiled, final, reads, _, hcompiled, hview => by
    rw [tasks, Except.ok.injEq, Prod.mk.injEq, Prod.mk.injEq] at hcompiled
    obtain ⟨rfl, rfl, -⟩ := hcompiled
    exact ⟨fun place hplace => absurd hplace List.not_mem_nil, rfl, hview⟩
  | child :: rest, before, outer, level, compiled, final, reads, hnodes, hcompiled, hview => by
    obtain ⟨inputs, inputReads, kind, clause, innerReads, further, furtherReads, hinputs, hkind,
      hrest, rfl, -⟩ := exists_of_tasks_cons hcompiled
    rw [Node.listed, List.cons_subset, List.append_subset] at hnodes
    obtain ⟨hchild, hinner, hlater⟩ := hnodes
    obtain ⟨hinside, hclause, hdelivers⟩ := sourced_of_taskKind ht hp child hchild hinner hkind hview
    have hserves := hview.declare hchild
      ⟨child.name, kind, inputs, siblings level (inputReads ++ innerReads), clause⟩ rfl
      (hdelivers _ rfl)
    have hdeclared : tasks (TaskScopes.names ((⟨child.name, kind, inputs,
        siblings level (inputReads ++ innerReads), clause⟩ :: before) :: outer)) level rest =
        .ok (further, final, furtherReads) := by
      rw [TaskScopes.names_declare]
      exact hrest
    obtain ⟨hplaces, rfl, hfinal⟩ := sourced_of_tasks ht hp rest hlater hdeclared hserves
    rw [List.reverse_cons, List.append_assoc]
    refine ⟨?_, rfl, hfinal⟩
    intro place hplace
    rw [Task.placesAmong, List.mem_append, List.mem_append] at hplace
    rcases hplace with (hown | hinsideTask) | hfurther
    · obtain ⟨given, hgiven, rfl⟩ := List.mem_map.mp hown
      rcases List.mem_append.mp hgiven with hargument | hoperand
      · refine sourced_of_namedArguments hinputs hview ?_ given hargument
        intro e he
        exact Pipeline.mem_exprs_of_mem_nodes hchild
          (List.mem_append_left _ (List.mem_append_left _ he))
      · exact hclause given hoperand
    · exact hinside place hinsideTask
    · exact hplaces place hfurther

end

/-- Whatever stands in a workflow is compiled from an expression of the pipeline, in view of
tasks that are served. -/
theorem sourced_of_compile (ht : p.Traced) (hp : p.NamesApart) {w : Workflow}
    (hcompile : p.compile = .ok w) : ∀ place ∈ w.places, Sourced p place := by
  obtain ⟨inputs, inputReads, scopes, reads, output, outputReads, hinputs, htasks, houtput, hw⟩ :=
    exists_of_compile hcompile
  have hroot := TaskScopes.serves_root p
  have hopened : tasks (TaskScopes.names [[]]) 0 p.children = .ok (w.tasks, scopes, reads) := htasks
  have hgivens : namedArguments (TaskScopes.names [[]]) p.inputs = .ok (inputs, inputReads) :=
    hinputs
  obtain ⟨hplaces, rfl, hserves⟩ :=
    sourced_of_tasks ht hp p.children (List.Subset.refl _) hopened hroot
  rw [List.append_nil] at houtput hserves
  intro place hplace
  rw [hw, Workflow.places, List.mem_append, List.mem_append] at hplace
  rcases hplace with (hown | htask) | hresult
  · obtain ⟨given, hgiven, rfl⟩ := List.mem_map.mp hown
    refine sourced_of_namedArguments hgivens hroot ?_ given hgiven
    intro e he
    exact List.mem_append_left _ (List.mem_append_left _ he)
  · exact hplaces place htask
  · obtain ⟨returned, hreturned, rfl⟩ := List.mem_map.mp hresult
    refine sourced_of_optionalArgument houtput hserves ?_ returned hreturned
    intro e he
    exact List.mem_append_left _ (List.mem_append_right _ he)

end Compile

/-- Every output of a task in a compiled workflow is that of a task in view. If the names of
fields are kept, a field that is taken is one that this task delivers according to the
document. -/
theorem Pipeline.outputs_delivered_of_compile {p : Pipeline} (ht : p.Traced) (hp : p.NamesApart)
    {w : Workflow} (hcompile : p.compile = .ok w) :
    ∀ view argument, (view, argument) ∈ w.places → ∀ name field,
      (name, field) ∈ argument.outputs →
        ∃ task around, view.Declares name task around ∧
          (p.KeepsNames → ∀ f, field = some f → task.Delivers around [f]) := by
  intro view argument hplace name field houtput
  obtain ⟨hserves, e, he, reads, hargument⟩ := Compile.sourced_of_compile ht hp hcompile _ hplace
  obtain ⟨ref, href, rfl, hmem, htakes⟩ := Compile.outputFor_of_argument e hargument _ houtput
  obtain ⟨task, around, hdeclares⟩ := TaskScopes.exists_declares hmem
  refine ⟨task, around, hdeclares, ?_⟩
  intro hkeeps f hfield
  obtain ⟨type, htype, hhas⟩ := htakes f hfield
  have hserved := hserves.served hp hkeeps (List.mem_flatMap.mpr ⟨e, he, href⟩)
  exact hserved task around hdeclares type htype _ hhas

namespace Relabelled

/-- A text. -/
def word : Component := echoed "word" (.literal (.string "hello"))

/-- The type that the nested pipeline declares to return. -/
def declared : ValueType := .record ⟨"Pair", [("left", .string), ("right", .string)]⟩

/-- A pair without names of its own. -/
def positional : Expr := .tuple [word.expr, .literal (.string "bye")]

/-- A pair under the declared names. -/
def named : Expr := .ofFields [("left", word.expr), ("right", .literal (.string "bye"))]

/-- The nested pipeline, which returns a pair under the declared type. -/
def pair (returned : Expr) : Pipeline :=
  ⟨"pair", .empty, [.component word], some returned, some declared, none⟩

/-- A node that reads a field of the pair by its declared name. -/
def after : Component := echoed "after" (.field (.node ⟨"pair", some declared⟩) "left")

/-- The root pipeline. -/
def root (returned : Expr) : Pipeline :=
  ⟨"main", .empty, [.pipeline (pair returned), .component after], some after.expr, some .string,
    none⟩

/-- The task of the text. -/
def wordTask : Task :=
  ⟨"word", .container (Compile.container word), ⟨[("text", .literal (.string "hello"))]⟩, [], none⟩

/-- The task of the nested pipeline, whose output has these names. -/
def pairTask (first second : String) : Task :=
  ⟨"pair", .dag [wordTask]
    (some (.record ⟨[(first, .output "word" none), (second, .literal (.string "bye"))]⟩)),
    .empty, [], none⟩

/-- The task that reads a field of the pair. -/
def afterTask : Task :=
  ⟨"after", .container (Compile.container after), ⟨[("text", .output "pair" (some "left"))]⟩,
    ["pair"], none⟩

/-- The compiled pipeline. -/
def workflow (first second : String) : Workflow :=
  ⟨"main", .empty, [pairTask first second, afterTask], some (.output "after" none)⟩

theorem compile_positional : (root positional).compile = .ok (workflow "0" "1") := rfl

theorem compile_named : (root named).compile = .ok (workflow "left" "right") := rfl

theorem positional_traced : (root positional).Traced := by
  refine ⟨Unit, .invoke ⟨"main", some "main", [], none⟩ [], fun _ => do
    let pair ← .nest (.invoke ⟨"pair", some "pair", [], some declared⟩ []) fun _ => do
      let word ← .call (echo "word") [("text", .literal (.string "hello"))]
      return some (.tuple [word.expr, .literal (.string "bye")])
    let after ← .call (echo "after") [("text", .field pair.expr "left")]
    return some after.expr,
    .start { Settings.default with suffixLength := 0 } ⟨fun _ => 0, 0⟩, (), ?_⟩
  rfl

theorem named_traced : (root named).Traced := by
  refine ⟨Unit, .invoke ⟨"main", some "main", [], none⟩ [], fun _ => do
    let pair ← .nest (.invoke ⟨"pair", some "pair", [], some declared⟩ []) fun _ => do
      let word ← .call (echo "word") [("text", .literal (.string "hello"))]
      return some (.ofFields [("left", word.expr), ("right", .literal (.string "bye"))])
    let after ← .call (echo "after") [("text", .field pair.expr "left")]
    return some after.expr,
    .start { Settings.default with suffixLength := 0 } ⟨fun _ => 0, 0⟩, (), ?_⟩
  rfl

theorem named_keepsNames : (root named).KeepsNames := by
  apply named_traced.keepsNames
  intro q hq e found he hinfer
  have hpair : q = pair named := by
    simpa [root, pair, Pipeline.nodes, Node.listed, Node.inner] using hq
  rw [hpair] at he
  obtain rfl : named = e := Option.some.inj he
  obtain rfl : ValueType.record (.inferred [("left", .string), ("right", .string)]) = found :=
    Except.ok.inj hinfer
  rfl

theorem mem_places (first second : String) :
    ([[pairTask first second]], .output "pair" (some "left")) ∈ (workflow first second).places := by
  simp [workflow, Workflow.places, Task.placesAmong, Task.placesInside, Task.given, afterTask,
    pairTask, wordTask, Named.values, Named.empty]

theorem eq_of_declares {first second : String} {task : Task} {around : TaskScopes}
    (hdeclares : TaskScopes.Declares "pair" [[pairTask first second]] task around) :
    task = pairTask first second := by
  cases hdeclares with
  | here _ => rfl
  | earlier hother _ => exact absurd rfl hother

theorem not_delivers_left {around : TaskScopes} :
    ¬ (pairTask "0" "1").Delivers around ["left"] := by
  intro hdelivers
  cases hdelivers with
  | container hkind _ _ => cases hkind
  | dag hkind houtput =>
    cases hkind
    cases houtput with
    | record hmem _ => simp at hmem

end Relabelled

/-- Where a nested pipeline returns a pair under the declared names, its task delivers the
field that is read. -/
theorem outputs_delivered_of_compile_named :
    (Relabelled.root Relabelled.named).Traced ∧ (Relabelled.root Relabelled.named).NamesApart ∧
      (Relabelled.root Relabelled.named).KeepsNames ∧
      (Relabelled.root Relabelled.named).compile = .ok (Relabelled.workflow "left" "right") ∧
      ∃ around, (Relabelled.pairTask "left" "right").Delivers around ["left"] := by
  have hp : (Relabelled.root Relabelled.named).NamesApart := by decide
  obtain ⟨task, around, hdeclares, hdelivers⟩ :=
    Pipeline.outputs_delivered_of_compile Relabelled.named_traced hp Relabelled.compile_named _ _
      (Relabelled.mem_places "left" "right") "pair" (some "left") List.mem_cons_self
  rw [Relabelled.eq_of_declares hdeclares] at hdelivers
  exact ⟨Relabelled.named_traced, hp, Relabelled.named_keepsNames, Relabelled.compile_named, around,
    hdelivers Relabelled.named_keepsNames "left" rfl⟩

/-- Not every field that is read in a workflow is delivered: a nested pipeline may return a
positional pair under a type with names of its own. -/
theorem not_delivered_of_positional : ¬ ∀ p : Pipeline, p.Traced → p.NamesApart →
    ∀ w, p.compile = .ok w → ∀ view argument, (view, argument) ∈ w.places → ∀ name field,
      (name, field) ∈ argument.outputs → ∃ task around, view.Declares name task around ∧
        ∀ f, field = some f → task.Delivers around [f] := by
  intro hall
  have hp : (Relabelled.root Relabelled.positional).NamesApart := by decide
  obtain ⟨task, around, hdeclares, hdelivers⟩ :=
    hall (Relabelled.root Relabelled.positional) Relabelled.positional_traced hp _
      Relabelled.compile_positional _ _ (Relabelled.mem_places "0" "1") "pair" (some "left")
      List.mem_cons_self
  rw [Relabelled.eq_of_declares hdeclares] at hdelivers
  exact Relabelled.not_delivers_left (hdelivers "left" rfl)

end Dataflow
