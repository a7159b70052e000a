/-
# What the compiler accepts of what runs

A run that succeeds with every guard true passes every node of the pipeline, and whatever
it resolves on the way has a value. So the nodes behind compile as the run passes them, as
long as the expressions are direct: the names in scope are those of the nodes behind, and
whatever is selected of the value of a node is an output of its task. In the end the whole
pipeline compiles, and it does only if all its expressions are direct.
-/

import Dataflow.Proofs.Workflow.Direct
import Dataflow.Proofs.Workflow.Visibility

namespace Dataflow

open Compile (Selector Visible)

/-- Whatever can be selected of a value, the type of the node has. -/
def Node.Covers (node : Node) (v : Value) : Prop :=
  ∀ fields, v = .record fields → ∀ selector : Selector, ∀ w, selector.pick fields = some w →
    ∃ schema field type, node.ref.type = some (.record schema) ∧ selector.Finds schema field type

theorem Node.covers_of_reconstruct {node : Node} {type : ValueType} {owner : String}
    {raw v : Value} (htype : node.ref.type = some type)
    (hreconstruct : reconstruct owner type raw = .ok v) : node.Covers v := by
  rintro fields rfl selector w hpick
  obtain ⟨schema, rebuilt, rfl, rfl, hnames⟩ := exists_of_reconstruct_eq_record hreconstruct
  cases selector with
  | field name =>
    have hmem : name ∈ (Named.ofList rebuilt).names :=
      List.mem_map_of_mem (Named.mem_of_find_eq_some hpick)
    rw [Named.mem_names_ofList, hnames] at hmem
    cases hfield : schema.fieldType? name with
    | none => exact absurd hmem (Named.find_eq_none_iff.mp hfield)
    | some found => exact ⟨schema, name, found, htype, rfl, hfield⟩
  | element position =>
    obtain ⟨entry, hentry, -⟩ := Option.map_eq_some_iff.mp hpick
    have hsize : position < schema.fields.length := by
      have hlength := congrArg List.length hnames
      rw [RecordSchema.fieldNames, List.length_map, List.length_map] at hlength
      have hbuilt := Named.length_ofList_le rebuilt
      have hposition := (List.getElem?_eq_some_iff.mp hentry).1
      omega
    exact ⟨schema, _, _, htype, List.getElem?_eq_getElem hsize⟩

theorem Node.covers_of_settle {q : Pipeline} (hchecked : q.Checked) {table : ValueTable}
    {value : Option Value} {v : Value}
    (hvalue : Expr.resolveOption table q.returnValue = .ok value)
    (hsettle : q.settle value = .ok v) : (Node.pipeline q).Covers v := by
  unfold Pipeline.Checked at hchecked
  cases hreturns : q.returns with
  | none =>
    rw [hreturns] at hchecked
    rw [hchecked] at hvalue
    obtain rfl : none = value := Except.ok.inj hvalue
    obtain rfl : Value.emptyRecord = v := Except.ok.inj hsettle
    intro fields hfields selector w hpick
    obtain rfl : .empty = fields := Value.record.inj hfields
    cases selector with
    | field name => cases hpick
    | element position => cases hpick
  | some type =>
    rw [hreturns] at hchecked
    obtain ⟨e, -, he, -, -⟩ := hchecked
    rw [he] at hvalue
    cases hresolve : e.resolve table with
    | error fault => simp [Expr.resolveOption, hresolve, Except.map] at hvalue
    | ok raw =>
      simp only [Expr.resolveOption, hresolve, Except.map, Except.ok.injEq] at hvalue
      rw [← hvalue, Pipeline.settle, hreturns] at hsettle
      exact Node.covers_of_reconstruct hreturns hsettle

namespace Backend

variable {σ : Type} {backend : Backend σ} {p : Pipeline} {s : σ} {m : Moment σ}

/-- What a node of a traced pipeline gives is covered by its type. -/
theorem Yields.covers (ht : p.Traced) {node : Node} (hnode : node ∈ p.nodes) {v : Value}
    (hyields : backend.Yields m node (some v)) : node.Covers v := by
  cases hyields with
  | component hinputs hrun =>
    obtain ⟨raw, hraw⟩ := exists_reconstruct_of_execute hrun
    exact Node.covers_of_reconstruct rfl hraw
  | pipeline hvalue hsettle => exact Node.covers_of_settle (ht.checked (.inr hnode)) hvalue hsettle

/-- A reference that has a value at a moment of a run may be read in the scopes of that
moment. -/
theorem Reaches.readable (h : backend.Reaches p s m) (ht : p.Traced) (hp : p.Unambiguous)
    {ref : NodeRef} (href : ref ∈ p.references)
    (hthere : ((Stack.table m.stack).get? ref.name).isSome) :
    Compile.Readable m.stack.scopes (Stack.table m.stack) ref := by
  have hopen := h.openIn
  obtain ⟨v, hget⟩ := Option.isSome_iff_exists.mp hthere
  obtain ⟨a, ha, node, hmem, rfl⟩ := hopen.exists_referent hp href hget
  have hnode := hopen.mem_nodes ha ((hopen.walks a ha).mem_of_past hmem)
  constructor
  · intro fields hfields
    obtain ⟨⟨passed, -, hyields⟩, -⟩ := h.exists_yields a ha node (some v) hmem
    rw [hget] at hfields
    exact hyields.covers ht hnode fields (Option.some.inj hfields)
  · rw [Node.ref_name]
    refine List.mem_flatten.mpr ⟨_, List.mem_map_of_mem ha, ?_⟩
    exact List.mem_map.mpr ⟨(node, some v), hmem, rfl⟩

/-- What a run resolves compiles in the scopes of that moment if it is direct. -/
theorem Reaches.visible_of_resolve (h : backend.Reaches p s m) (ht : p.Traced)
    (hp : p.Unambiguous) (hdirect : ∀ e ∈ p.exprs, e.isDirect = true) {e : Expr}
    (he : e ∈ m.exprs) {v : Value} (hresolve : e.resolve (Stack.table m.stack) = .ok v) :
    Visible m.stack.scopes e := by
  have hexpr := h.mem_exprs he
  refine Compile.visible_of_resolve e (hdirect e hexpr) hresolve fun ref href => ?_
  exact h.readable ht hp (List.mem_flatMap.mpr ⟨e, hexpr, href⟩)
    (Expr.isSome_get?_of_resolve e hresolve ref href)

end Backend

namespace Compile

variable {scopes : Scopes}

theorem exists_arguments {fields : List (String × Expr)}
    (hvisible : ∀ e ∈ fields.map Prod.snd, Visible scopes e) :
    ∃ parts reads, arguments scopes fields = .ok (parts, reads) := by
  induction fields with
  | nil => exact ⟨[], [], rfl⟩
  | cons field rest ih =>
    obtain ⟨name, e⟩ := field
    obtain ⟨part, first, hpart⟩ := hvisible e List.mem_cons_self
    obtain ⟨parts, further, hparts⟩ := ih fun other hother =>
      hvisible other (List.mem_cons_of_mem _ hother)
    exact ⟨_, _, arguments_cons_eq_ok.mpr ⟨part, first, parts, further, hpart, hparts, rfl, rfl⟩⟩

theorem exists_namedArguments {exprs : Named Expr}
    (hvisible : ∀ e ∈ exprs.values, Visible scopes e) :
    ∃ inputs reads, namedArguments scopes exprs = .ok (inputs, reads) := by
  obtain ⟨parts, reads, hparts⟩ := exists_arguments hvisible
  exact ⟨_, _, by rw [namedArguments, hparts]⟩

theorem exists_optionalArgument {result : Option Expr}
    (hvisible : ∀ e ∈ result.toList, Visible scopes e) :
    ∃ output reads, optionalArgument scopes result = .ok (output, reads) := by
  cases result with
  | none => exact ⟨none, [], rfl⟩
  | some e =>
    obtain ⟨compiled, reads, hcompiled⟩ := hvisible e List.mem_cons_self
    exact ⟨_, _, by rw [optionalArgument, hcompiled]⟩

theorem exists_taskKind_pipeline {q : Pipeline} {inner : List Task} {innerScopes : Scopes}
    {innerReads : List Reference}
    (hguard : ∀ e ∈ (Node.pipeline q).operands, Visible scopes e)
    (hinner : tasks ([] :: scopes) scopes.length q.children = .ok (inner, innerScopes, innerReads))
    (hresult : ∀ e ∈ q.returnValue.toList, Visible innerScopes e) :
    ∃ kind clause reads, taskKind scopes (.pipeline q) = .ok (kind, clause, reads) := by
  obtain ⟨output, outputReads, houtput⟩ := exists_optionalArgument hresult
  obtain ⟨name, inputs, children, returnValue, returns, condition⟩ := q
  have hclause : ∃ clause reads, whenClause scopes condition = .ok (clause, reads) := by
    cases condition with
    | none => exact ⟨none, [], rfl⟩
    | some condition =>
      obtain ⟨left, first, hleft⟩ := hguard condition.left List.mem_cons_self
      obtain ⟨right, further, hright⟩ :=
        hguard condition.right (List.mem_cons_of_mem _ List.mem_cons_self)
      rw [whenClause, hleft]
      simp only [hright]
      exact ⟨_, _, rfl⟩
  obtain ⟨clause, guardReads, hclause⟩ := hclause
  simp only at hinner houtput
  rw [taskKind, hclause]
  simp only [hinner, houtput]
  exact ⟨_, _, _, rfl⟩

theorem exists_tasks_concat {level : Nat} {nodes : List Node} {node : Node}
    {compiled : List Task} {final : Scopes} {reads : List Reference}
    (hcompiled : tasks scopes level nodes = .ok (compiled, final, reads))
    (hinputs : ∀ e ∈ node.inputs.values, Visible final e)
    (hkind : ∃ kind clause reads, taskKind final node = .ok (kind, clause, reads)) :
    ∃ compiled reads, tasks scopes level (nodes ++ [node]) =
      .ok (compiled, declare node.name final, reads) := by
  induction nodes generalizing scopes compiled reads with
  | nil =>
    rw [tasks, Except.ok.injEq, Prod.mk.injEq, Prod.mk.injEq] at hcompiled
    obtain ⟨-, rfl, -⟩ := hcompiled
    obtain ⟨inputs, inputReads, hnamed⟩ := exists_namedArguments hinputs
    obtain ⟨kind, clause, innerReads, hkind⟩ := hkind
    rw [List.nil_append, tasks, hnamed]
    simp only [hkind, tasks]
    exact ⟨_, _, rfl⟩
  | cons first rest ih =>
    obtain ⟨inputs, inputReads, kind, clause, innerReads, further, furtherReads, hnamed, hfirst,
      hrest, -, -⟩ := exists_of_tasks_cons hcompiled
    obtain ⟨others, otherReads, hothers⟩ := ih hrest
    rw [List.cons_append, tasks, hnamed]
    simp only [hfirst, hothers]
    exact ⟨_, _, rfl⟩

end Compile

namespace Stack

/-- What lies behind the open pipelines compiles, as do the inputs and the guard of each of
them in the scopes around it. -/
def Passes : Stack → Prop
  | [] => True
  | a :: outer =>
    (∃ compiled reads, Compile.tasks ([] :: scopes outer) outer.length (a.past.map Prod.fst) =
      .ok (compiled, scopes (a :: outer), reads)) ∧
    (outer ≠ [] → ∀ e ∈ a.pipeline.inputs.values ++ (Node.pipeline a.pipeline).operands,
      Visible (scopes outer) e) ∧
    Passes outer

theorem passes_opened {outer : Stack} (path : String) (q : Pipeline) (arguments : Inputs)
    (hvisible : outer ≠ [] → ∀ e ∈ q.inputs.values ++ (Node.pipeline q).operands,
      Visible (scopes outer) e) (houter : Passes outer) :
    Passes (.opened path q arguments :: outer) :=
  ⟨⟨[], [], rfl⟩, hvisible, houter⟩

theorem Passes.pass {a : Activation} {outer : Stack} {node : Node} (h : Passes (a :: outer))
    (hinputs : ∀ e ∈ node.inputs.values, Visible (scopes (a :: outer)) e)
    (hkind : ∃ kind clause reads,
      Compile.taskKind (scopes (a :: outer)) node = .ok (kind, clause, reads))
    (value : Option Value) (rest : List Node) : Passes (a.pass node value rest :: outer) := by
  obtain ⟨⟨compiled, reads, hcompiled⟩, hvisible, houter⟩ := h
  refine ⟨?_, hvisible, houter⟩
  rw [scopes_pass, Activation.pass_past, List.map_append]
  exact Compile.exists_tasks_concat hcompiled hinputs hkind

/-- A pipeline that has nothing ahead and whose return value compiles does so as a node. -/
theorem Passes.leave {inside a : Activation} {outer : Stack} (h : Passes (inside :: a :: outer))
    (hwalks : inside.Walks) (hdone : inside.future = [])
    (hresult : ∀ e ∈ inside.pipeline.returnValue.toList,
      Visible (scopes (inside :: a :: outer)) e) (value : Option Value) (rest : List Node) :
    Passes (a.pass (.pipeline inside.pipeline) value rest :: outer) := by
  obtain ⟨⟨compiled, reads, hcompiled⟩, hvisible, houter⟩ := h
  have hlevel : (scopes (a :: outer)).length = (a :: outer).length := by simp [scopes]
  rw [hwalks.map_past_of_done hdone, ← hlevel] at hcompiled
  have hgiven := List.forall_mem_append.mp (hvisible (List.cons_ne_nil _ _))
  have hinputs : ∀ e ∈ (Node.pipeline inside.pipeline).inputs.values,
      Visible (scopes (a :: outer)) e := hgiven.1
  exact houter.pass hinputs (Compile.exists_taskKind_pipeline hgiven.2 hcompiled hresult) value rest

end Stack

theorem Node.exists_resolve_of_holds {q : Pipeline} {table : ValueTable} {holds : Bool}
    (hguard : Condition.holds table q.condition = .ok holds) :
    ∀ e ∈ (Node.pipeline q).operands, ∃ v, e.resolve table = .ok v := by
  cases hcondition : (Node.pipeline q).guard with
  | none =>
    rw [Node.operands_of_guard_eq_none hcondition]
    exact fun e he => absurd he List.not_mem_nil
  | some condition =>
    have heval : condition.evaluate table = .ok holds := by
      have hsome : q.condition = some condition := hcondition
      rw [hsome] at hguard
      exact hguard
    rw [Condition.evaluate_eq] at heval
    rw [Node.operands_of_guard_eq_some hcondition]
    cases hleft : condition.left.resolve table with
    | error fault => simp [hleft] at heval
    | ok left =>
      cases hright : condition.right.resolve table with
      | error fault => simp [hleft, hright] at heval
      | ok right => simp [hleft, hright]

theorem Expr.exists_resolve_of_resolveAll {exprs : Named Expr} {table : ValueTable}
    {inputs : Inputs} (hinputs : resolveAll table exprs = .ok inputs) :
    ∀ e ∈ exprs.values, ∃ v, e.resolve table = .ok v := by
  obtain ⟨values, hvalues, -⟩ := resolveAll_eq_ok.mp hinputs
  obtain ⟨fields⟩ := exprs
  clear hinputs
  simp only at hvalues
  rw [Named.values]
  induction fields generalizing values with
  | nil => exact fun e he => absurd he List.not_mem_nil
  | cons field rest ih =>
    obtain ⟨v, others, hv, hothers, -⟩ := resolveFields_cons_eq_ok.mp hvalues
    intro e he
    rcases List.mem_cons.mp he with rfl | hlater
    · exact ⟨v, hv⟩
    · exact ih others hothers e hlater

theorem Expr.exists_resolve_of_resolveOption {result : Option Expr} {table : ValueTable}
    {value : Option Value} (hvalue : resolveOption table result = .ok value) :
    ∀ e ∈ result.toList, ∃ v, e.resolve table = .ok v := by
  cases result with
  | none => exact fun e he => absurd he List.not_mem_nil
  | some e =>
    intro other hother
    obtain rfl := List.mem_singleton.mp hother
    cases hresolve : other.resolve table with
    | error fault => simp [resolveOption, hresolve, Except.map] at hvalue
    | ok v => exact ⟨v, rfl⟩

namespace Backend

variable {σ : Type} {backend : Backend σ} {p : Pipeline} {s : σ} {m : Moment σ}

/-- While every guard is true, what a run has passed compiles. -/
theorem Reaches.passes (h : backend.Reaches p s m) (ht : p.Traced) (hp : p.Unambiguous)
    (hdirect : ∀ e ∈ p.exprs, e.isDirect = true) (hguards : backend.GuardsHold p s) :
    m.stack.Passes := by
  induction h with
  | start hinputs =>
    exact Stack.passes_opened _ _ _ (fun houter => absurd rfl houter) trivial
  | move hreach hmove ih =>
    cases hmove with
    | @run a outer state after c rest inputs v hnext hinputs hrun =>
      refine ih.pass (fun e he => ?_) ⟨_, _, _, rfl⟩ _ _
      obtain ⟨w, hw⟩ := Expr.exists_resolve_of_resolveAll hinputs e he
      refine hreach.visible_of_resolve ht hp hdirect ?_ hw
      simp only [Moment.exprs, hnext]
      exact List.mem_append_left _ he
    | skip hnext hinputs hguard =>
      exact absurd hguard (hguards _ hreach _ _ _ _ _ rfl hnext hinputs)
    | @enter a outer state q rest inputs hnext hinputs hguard =>
      refine Stack.passes_opened _ _ _ (fun _ e he => ?_) ih
      have hresolve : ∃ v, e.resolve (Stack.table (a :: outer)) = .ok v := by
        rcases List.mem_append.mp he with hinput | hoperand
        · exact Expr.exists_resolve_of_resolveAll hinputs e hinput
        · exact Node.exists_resolve_of_holds hguard e hoperand
      obtain ⟨v, hv⟩ := hresolve
      refine hreach.visible_of_resolve ht hp hdirect ?_ hv
      simp only [Moment.exprs, hnext]
      exact he
    | @leave inside a outer state rest value v hdone hnext hvalue hsettle =>
      have hwalks := hreach.openIn.walks inside List.mem_cons_self
      refine ih.leave hwalks hdone (fun e he => ?_) _ _
      obtain ⟨w, hw⟩ := Expr.exists_resolve_of_resolveOption hvalue e he
      refine hreach.visible_of_resolve ht hp hdirect ?_ hw
      simp only [Moment.exprs, hdone]
      exact he

/-- A pipeline of direct expressions compiles if a run of it succeeds with every guard
true. -/
theorem exists_compile_of_run (ht : p.Traced) (hp : p.Unambiguous)
    (hdirect : ∀ e ∈ p.exprs, e.isDirect = true) (hguards : backend.GuardsHold p s)
    {outcome : RunOutcome} {after : RunState σ} (hrun : backend.run p s = (.ok outcome, after)) :
    ∃ w, p.compile = .ok w := by
  obtain ⟨a, hreach, rfl, hdone, -, -, hvalue⟩ := reaches_of_run_eq_ok hrun
  obtain ⟨⟨compiled, reads, hcompiled⟩, -, -⟩ := hreach.passes ht hp hdirect hguards
  rw [(hreach.openIn.walks a List.mem_cons_self).map_past_of_done hdone] at hcompiled
  have hresult : ∀ e ∈ a.pipeline.returnValue.toList, Visible (Stack.scopes [a]) e := by
    intro e he
    obtain ⟨v, hv⟩ := Expr.exists_resolve_of_resolveOption hvalue e he
    refine hreach.visible_of_resolve ht hp hdirect ?_ hv
    simp only [Moment.exprs, hdone]
    exact he
  obtain ⟨output, outputReads, houtput⟩ := Compile.exists_optionalArgument hresult
  -- The inputs of the root pipeline resolve where nothing is there, so they read no node.
  have hinputs : ∀ e ∈ a.pipeline.inputs.values, Visible [[]] e := by
    have hroot := hrun
    rw [run] at hroot
    cases hresolve : Expr.resolveAll .empty a.pipeline.inputs with
    | error fault => simp [hresolve] at hroot
    | ok inputs =>
      intro e he
      obtain ⟨v, hv⟩ := Expr.exists_resolve_of_resolveAll hresolve e he
      have hexpr : e ∈ a.pipeline.exprs := List.mem_append_left _ (List.mem_append_left _ he)
      refine Compile.visible_of_resolve e (hdirect e hexpr) hv fun ref href => ?_
      cases Expr.isSome_get?_of_resolve e hv ref href
  obtain ⟨inputs, inputReads, hnamed⟩ := Compile.exists_namedArguments hinputs
  have htasks : Compile.tasks [[]] 0 a.pipeline.children =
      .ok (compiled, Stack.scopes [a], reads) := hcompiled
  rw [Pipeline.compile, hnamed]
  simp only [htasks, houtput]
  exact ⟨_, rfl⟩

end Backend

namespace Compile

variable {scopes : Scopes}

mutual

/-- Every expression inside a node that compiles does so in some scopes. -/
theorem exists_visible_of_taskKind : ∀ (node : Node) {scopes : Scopes} {kind : TaskKind}
    {clause : Option WhenClause} {reads : List Reference},
    taskKind scopes node = .ok (kind, clause, reads) →
      ∀ e ∈ node.operands ++ node.result ++ node.inner.flatMap Node.exprs,
        ∃ found, Visible found e
  | .component c, scopes, kind, clause, reads, _ => by
    simp [Node.operands, Node.guard, Node.result, Node.inner]
  | .pipeline ⟨name, inputs, children, returnValue, returns, condition⟩, scopes, kind, clause,
    reads, hcompiled => by
    obtain ⟨-, inner, innerScopes, innerReads, output, outputReads, -, hinner, houtput, -, -⟩ :=
      exists_of_taskKind_pipeline hcompiled
    intro e he
    rw [List.mem_append, List.mem_append] at he
    rcases he with (hoperand | hresult) | hinside
    · exact ⟨scopes, visible_of_taskKind hcompiled e hoperand⟩
    · have hreturn : returnValue = some e := by simpa [Node.result] using hresult
      simp only [hreturn] at houtput
      obtain ⟨compiled, hargument, -⟩ := argument_of_optionalArgument houtput
      exact ⟨innerScopes, compiled, outputReads, hargument⟩
    · exact exists_visible_of_tasks children hinner e hinside

theorem exists_visible_of_tasks : ∀ (nodes : List Node) {scopes : Scopes} {level : Nat}
    {compiled : List Task} {final : Scopes} {reads : List Reference},
    tasks scopes level nodes = .ok (compiled, final, reads) →
      ∀ e ∈ (Node.listed nodes).flatMap Node.exprs, ∃ found, Visible found e
  | [], scopes, level, compiled, final, reads, _ => by simp [Node.listed]
  | child :: rest, scopes, level, compiled, final, reads, hcompiled => by
    obtain ⟨inputs, inputReads, kind, clause, innerReads, further, furtherReads, hinputs, hkind,
      hrest, -, -⟩ := exists_of_tasks_cons hcompiled
    have hchild := exists_visible_of_taskKind child hkind
    intro e he
    rw [Node.listed, List.flatMap_cons, List.flatMap_append, List.mem_append, List.mem_append] at he
    rcases he with hown | hinside | hlater
    · rw [Node.exprs, List.append_assoc] at hown
      rcases List.mem_append.mp hown with hinput | hother
      · exact ⟨scopes, visible_of_namedArguments hinputs e hinput⟩
      · exact hchild e (List.mem_append_left _ hother)
    · exact hchild e (List.mem_append_right _ hinside)
    · exact exists_visible_of_tasks rest hrest e hlater

end

/-- Every expression of a pipeline that compiles is direct. -/
theorem isDirect_of_compile {p : Pipeline} {w : Workflow} (hcompile : p.compile = .ok w) :
    ∀ e ∈ p.exprs, e.isDirect = true := by
  obtain ⟨inputs, inputReads, final, reads, output, outputReads, hinputs, htasks, houtput, -⟩ :=
    exists_of_compile hcompile
  intro e he
  have hvisible : ∃ found, Visible found e := by
    rcases List.mem_append.mp he with hown | hinside
    · rcases List.mem_append.mp hown with hinput | hresult
      · exact ⟨[[]], visible_of_namedArguments hinputs e hinput⟩
      · rw [Option.mem_toList.mp hresult] at houtput
        obtain ⟨compiled, hargument, -⟩ := argument_of_optionalArgument houtput
        exact ⟨final, compiled, outputReads, hargument⟩
    · exact exists_visible_of_tasks p.children htasks e hinside
  obtain ⟨found, hfound⟩ := hvisible
  exact hfound.isDirect

end Compile

/-- A pipeline that some run executes with every guard true compiles exactly if no
selection in it is made from what another selection or a composite record holds of a
node. -/
theorem Backend.compile_iff_isDirect_of_run {σ : Type} {backend : Backend σ} {p : Pipeline} {s : σ}
    (ht : p.Traced) (hp : p.Unambiguous) (hguards : backend.GuardsHold p s)
    {outcome : RunOutcome} {after : RunState σ} (hrun : backend.run p s = (.ok outcome, after)) :
    (∃ w, p.compile = .ok w) ↔ ∀ e ∈ p.exprs, e.isDirect = true := by
  constructor
  · rintro ⟨w, hcompile⟩
    exact Compile.isDirect_of_compile hcompile
  · intro hdirect
    exact exists_compile_of_run ht hp hdirect hguards hrun

theorem Backend.guardsHold_of_unguarded {σ : Type} {backend : Backend σ} {p : Pipeline} {s : σ}
    (hunguarded : ∀ q, .pipeline q ∈ p.nodes → q.condition = none) : backend.GuardsHold p s := by
  intro m hreach a outer q rest inputs hstack hnext _ hguard
  have hopen := hreach.openIn
  have ha : a ∈ m.stack := by simp [hstack]
  have hahead : Node.pipeline q ∈ a.future := by simp [hnext]
  have hnode := hopen.mem_nodes ha ((hopen.walks a ha).mem_of_future hahead)
  rw [hunguarded q hnode] at hguard
  cases hguard

namespace Boxed

/-- The type of a pair of names. -/
def declared : ValueType := .record ⟨"Pair", [("first", .string), ("last", .string)]⟩

/-- The computation of a pair of names. -/
def body : Body := fun _ =>
  .ok (.record ⟨[("first", .string "Arya"), ("last", .string "Stark")]⟩)

/-- The definition of a component that returns a pair of names. -/
def definition : ComponentDef := ⟨"pair", some "pair", [], some declared, .none, some body⟩

/-- The component. -/
def pair : Component :=
  ⟨"pair", "pair", .empty, declared, Settings.default.resolveDeployment .none, some body⟩

/-- The first name, taken of the component itself. -/
def taken : Expr := .field pair.expr "first"

/-- The first name, taken of a tuple that holds the pair. -/
def boxed : Expr := .field (.index (.tuple [pair.expr]) 0) "first"

/-- A nested pipeline with an argument that no type restricts. -/
def inner (given : Expr) : Pipeline := ⟨"inner", ⟨[("given", given)]⟩, [], none, none, none⟩

/-- The root pipeline. -/
def root (given : Expr) : Pipeline :=
  ⟨"main", .empty, [.component pair, .pipeline (inner given)], none, none, none⟩

theorem taken_traced : (root taken).Traced := by
  refine ⟨Unit, .invoke ⟨"main", some "main", [], none⟩ [], fun _ => do
    let pair ← .call definition []
    let _ ← .nest (.invoke ⟨"inner", some "inner", [⟨"given", none⟩], none⟩
      [("given", .field pair.expr "first")]) fun _ => .result none
    return none,
    .start { Settings.default with suffixLength := 0 } ⟨fun _ => 0, 0⟩, (), ?_⟩
  rfl

theorem boxed_traced : (root boxed).Traced := by
  refine ⟨Unit, .invoke ⟨"main", some "main", [], none⟩ [], fun _ => do
    let pair ← .call definition []
    let _ ← .nest (.invoke ⟨"inner", some "inner", [⟨"given", none⟩], none⟩
      [("given", .field (.index (.tuple [pair.expr]) 0) "first")]) fun _ => .result none
    return none,
    .start { Settings.default with suffixLength := 0 } ⟨fun _ => 0, 0⟩, (), ?_⟩
  rfl

theorem guardsHold (given : Expr) : Backend.inProcess.GuardsHold (root given) () := by
  apply Backend.guardsHold_of_unguarded
  intro q hq
  have hinner : q = inner given := by
    simpa [root, inner, Pipeline.nodes, Node.listed, Node.inner] using hq
  rw [hinner]
  rfl

theorem run_boxed : ∃ outcome after,
    Backend.inProcess.run (root boxed) () = (.ok outcome, after) := ⟨_, _, rfl⟩

/-- The compiler takes the pair in the tuple for something without fields. -/
theorem compile_boxed : (root boxed).compile =
    .error (.contract (.noField "(0: pair)[0]" "first")) := rfl

end Boxed

/-- A pipeline that takes a name of a component itself runs and compiles. -/
theorem compile_iff_isDirect_of_run_taken :
    (Boxed.root Boxed.taken).Traced ∧ (Boxed.root Boxed.taken).Unambiguous ∧
      Backend.inProcess.GuardsHold (Boxed.root Boxed.taken) () ∧
      (∃ outcome after, Backend.inProcess.run (Boxed.root Boxed.taken) () = (.ok outcome, after)) ∧
      ∃ w, (Boxed.root Boxed.taken).compile = .ok w := by
  have hp : (Boxed.root Boxed.taken).Unambiguous := by decide
  have hguards := Boxed.guardsHold Boxed.taken
  have hruns : ∃ outcome after,
      Backend.inProcess.run (Boxed.root Boxed.taken) () = (.ok outcome, after) := ⟨_, _, rfl⟩
  obtain ⟨outcome, after, hrun⟩ := hruns
  have hdirect : ∀ e ∈ (Boxed.root Boxed.taken).exprs, e.isDirect = true := by decide
  exact ⟨Boxed.taken_traced, hp, hguards, ⟨outcome, after, hrun⟩,
    (Backend.compile_iff_isDirect_of_run Boxed.taken_traced hp hguards hrun).mpr hdirect⟩

/-- Not every pipeline that runs with every guard true compiles: a field may be taken of a
pair that stands in a tuple. -/
theorem not_compile_of_boxed : ¬ ∀ p : Pipeline, p.Traced → p.Unambiguous →
    ∀ (σ : Type) (backend : Backend σ) (s : σ) (outcome : RunOutcome) (after : RunState σ),
      backend.GuardsHold p s → backend.run p s = (.ok outcome, after) →
        ∃ w, p.compile = .ok w := by
  intro hall
  have hp : (Boxed.root Boxed.boxed).Unambiguous := by decide
  obtain ⟨outcome, after, hrun⟩ := Boxed.run_boxed
  obtain ⟨w, hcompile⟩ := hall (Boxed.root Boxed.boxed) Boxed.boxed_traced hp Unit .inProcess ()
    outcome after (Boxed.guardsHold Boxed.boxed) hrun
  rw [Boxed.compile_boxed] at hcompile
  cases hcompile

end Dataflow
