/-
# Runs keep to the types

In a traced and unambiguous pipeline whose record types are valid, every node that
completes gives a well-formed value of the type that expressions see, up to the names of
schemas. So every call gets values that its parameters accept, every value in a table has
the type of its node, and only the raw result of a component can fail to be of the
declared type.
-/

import Dataflow.Proofs.Condition
import Dataflow.Proofs.Reconstruct
import Dataflow.Proofs.Run.Observed
import Dataflow.Proofs.Run.Reference
import Dataflow.Proofs.Tracer.Recorded

namespace Dataflow

namespace Pipeline

/-- Every record in an expression of the pipeline has distinct names, as collections
built by insertion have. -/
def WellFormed (p : Pipeline) : Prop := ∀ e ∈ p.exprs, e.WellFormed

instance (p : Pipeline) : Decidable p.WellFormed :=
  inferInstanceAs (Decidable (∀ e ∈ p.exprs, e.WellFormed))

/-- The record types that nodes of the pipeline declare are valid. The type of a nested
pipeline may also be inferred from its return value. -/
structure DeclaresTypes (p : Pipeline) : Prop where
  /-- Components declare valid types. -/
  components : ∀ c, .component c ∈ p.nodes → c.returns.Declarable
  /-- Nested pipelines declare valid types or have inferred ones. -/
  pipelines : ∀ q, .pipeline q ∈ p.nodes → ∀ type, q.returns = some type →
    type.Declarable ∨ ∃ e, q.returnValue = some e ∧ e.infer = .ok type

theorem declaresTypes_of_isScalar {p : Pipeline}
    (hscalar : ∀ node ∈ p.nodes, node.ref.type.all ValueType.isScalar = true) :
    p.DeclaresTypes := by
  constructor
  · intro c hc
    exact ValueType.declarable_of_isScalar (hscalar _ hc)
  · intro q hq type htype
    have hreturns : (Node.pipeline q).ref.type = some type := htype
    have hq := hscalar _ hq
    rw [hreturns] at hq
    exact .inl (ValueType.declarable_of_isScalar hq)

end Pipeline

/-- A value that a node may give: well formed, and of the type that expressions see, up
to the names of schemas. -/
def Node.Gives (node : Node) (v : Value) : Prop :=
  v.WellFormed ∧ ∀ type, node.ref.type = some type → v.type.shape = type.shape

/-- What is reconstructed under a valid type is a value of that type. -/
theorem Node.gives_of_reconstruct {node : Node} {type : ValueType} {owner : String}
    {raw v : Value} (htype : node.ref.type = some type) (hformed : type.WellFormed)
    (hreconstruct : reconstruct owner type raw = .ok v) : node.Gives v := by
  have hshape := shape_type_of_reconstruct type raw hformed hreconstruct
  refine ⟨.of_type_shape_eq hformed hshape, ?_⟩
  intro other hother
  rw [htype] at hother
  rw [← Option.some.inj hother]
  exact hshape

/-- The checked return value of a nested pipeline settles to a value of its type. -/
theorem Pipeline.exists_settle {q : Pipeline} {table : ValueTable} {value : Option Value}
    (hchecked : q.Checked)
    (hdeclares : ∀ type, q.returns = some type →
      type.Declarable ∨ ∃ e, q.returnValue = some e ∧ e.infer = .ok type)
    (hformed : ∀ e, q.returnValue = some e → e.WellFormed)
    (htyped : ∀ e, q.returnValue = some e → ∀ ref ∈ e.references, ref.TypedIn table)
    (hvalue : Expr.resolveOption table q.returnValue = .ok value) :
    ∃ v, q.settle value = .ok v ∧ (Node.pipeline q).Gives v := by
  unfold Checked at hchecked
  cases hreturns : q.returns with
  | none =>
    rw [hreturns] at hchecked
    rw [hchecked] at hvalue
    obtain rfl : none = value := Except.ok.inj hvalue
    refine ⟨Value.emptyRecord, rfl, rfl, ?_⟩
    intro type htype
    rw [Node.ref, Pipeline.ref, hreturns] at htype
    cases htype
  | some type =>
    rw [hreturns] at hchecked
    obtain ⟨e, found, he, hinfer, haccepts⟩ := hchecked
    rw [he] at hvalue
    cases hresolve : e.resolve table with
    | error fault => simp [Expr.resolveOption, hresolve, Except.map] at hvalue
    | ok raw =>
      simp only [Expr.resolveOption, hresolve, Except.map, Except.ok.injEq] at hvalue
      have hshape := Expr.shape_type_of_resolve e (hformed e he) (htyped e he) hresolve hinfer
      have hraw : raw.WellFormed :=
        Expr.wellFormed_of_resolve e (hformed e he) (htyped e he) hresolve
      have hfits : type.fits raw = true := by
        apply ValueType.fits_of_accepts
        rw [ValueType.accepts_congr hshape]
        exact haccepts
      have htype : type.WellFormed := by
        rcases hdeclares type hreturns with hvalid | ⟨other, hother, hinferred⟩
        · exact hvalid.wellFormed
        · obtain rfl : other = e := Option.some.inj (hother.symm.trans he)
          obtain rfl : type = found := Except.ok.inj (hinferred.symm.trans hinfer)
          exact hraw.type.of_shape_eq hshape
      obtain ⟨v, hv⟩ : ∃ v, reconstruct q.name type raw = .ok v := exists_reconstruct_eq_ok hfits
      refine ⟨v, ?_, Node.gives_of_reconstruct hreturns htype hv⟩
      rw [← hvalue, settle, hreturns]
      exact hv

namespace Stack

variable {p : Pipeline} {stack : Stack}

/-- Every node that completed in an open pipeline gave a value of its type. -/
def Typed (stack : Stack) : Prop :=
  ∀ a ∈ stack, ∀ node v, (node, some v) ∈ a.past → node.Gives v

/-- In an unambiguous pipeline with typed values, references are typed in the table. -/
theorem OpenIn.typedIn (h : OpenIn p stack) (hp : p.Unambiguous) (htyped : Typed stack)
    {ref : NodeRef} (href : ref ∈ p.references) : ref.TypedIn (table stack) := by
  intro v hget
  obtain ⟨a, ha, node, hmem, rfl⟩ := h.exists_referent hp href hget
  exact htyped a ha node v hmem

theorem OpenIn.typedIn_of_mem_exprs (h : OpenIn p stack) (hp : p.Unambiguous)
    (htyped : Typed stack) {e : Expr} (he : e ∈ p.exprs) :
    ∀ ref ∈ e.references, ref.TypedIn (table stack) := by
  intro ref href
  exact h.typedIn hp htyped (List.mem_flatMap.mpr ⟨e, he, href⟩)

end Stack

namespace Backend

variable {σ : Type} {backend : Backend σ} {p : Pipeline} {s : σ} {m : Moment σ}

/-- What a component gives when it is executed was reconstructed. -/
theorem exists_reconstruct_of_execute {c : Component} {inputs : Inputs}
    {state after : RunState σ} {v : Value}
    (hrun : backend.execute c inputs state = (.ok v, after)) :
    ∃ raw, reconstruct c.name c.returns raw = .ok v := by
  unfold execute at hrun
  split at hrun
  · cases hrun
  · rename_i raw _ _
    exact ⟨raw, congrArg Prod.fst hrun⟩

/-- The return value of a nested pipeline settles to a value of its type. -/
theorem exists_settle_of_openIn {stack : Stack} (hopen : Stack.OpenIn p stack) (ht : p.Traced)
    (hp : p.Unambiguous) (hw : p.WellFormed) (hd : p.DeclaresTypes) (htyped : stack.Typed)
    {q : Pipeline} (hq : .pipeline q ∈ p.nodes) {value : Option Value}
    (hvalue : Expr.resolveOption (Stack.table stack) q.returnValue = .ok value) :
    ∃ v, q.settle value = .ok v ∧ (Node.pipeline q).Gives v := by
  have hmem : ∀ e, q.returnValue = some e → e ∈ p.exprs := by
    intro e he
    refine Pipeline.mem_exprs_of_mem_nodes hq (List.mem_append_right _ ?_)
    simp [Node.result, he]
  exact Pipeline.exists_settle (ht.checked (.inr hq)) (hd.pipelines q hq)
    (fun e he => hw e (hmem e he))
    (fun e he => hopen.typedIn_of_mem_exprs hp htyped (hmem e he)) hvalue

/-- What a node gives at a moment with typed values is of its type. -/
theorem Yields.gives (hopen : Stack.OpenIn p m.stack) (ht : p.Traced) (hp : p.Unambiguous)
    (hw : p.WellFormed) (hd : p.DeclaresTypes) (htyped : m.stack.Typed) {node : Node} {v : Value}
    (hnode : node ∈ p.nodes) (hyields : backend.Yields m node (some v)) : node.Gives v := by
  cases hyields with
  | @component c inputs _ after hinputs hrun =>
    obtain ⟨raw, hraw⟩ := exists_reconstruct_of_execute hrun
    exact Node.gives_of_reconstruct rfl (hd.components c hnode).wellFormed hraw
  | pipeline hvalue hsettle =>
    obtain ⟨settled, hsettled, hgives⟩ :=
      exists_settle_of_openIn hopen ht hp hw hd htyped hnode hvalue
    rw [hsettle] at hsettled
    rwa [Except.ok.inj hsettled]

/-- Every node that completed in a run gave a value of its type. -/
theorem Reaches.typed (h : backend.Reaches p s m) (ht : p.Traced) (hp : p.Unambiguous)
    (hw : p.WellFormed) (hd : p.DeclaresTypes) : m.stack.Typed := by
  induction h with
  | start hinputs =>
    intro a ha node v hmem
    obtain rfl := List.mem_singleton.mp ha
    simp [Activation.opened] at hmem
  | move hreach hmove ih =>
    intro a ha node v hmem
    rcases hmove.past ha hmem with ⟨before, hbefore, -, hpast⟩ | ⟨hyields, -⟩
    · exact ih before hbefore node v hpast
    · have hopen := (hreach.move hmove).openIn
      have hnode := hopen.mem_nodes ha ((hopen.walks a ha).mem_of_past hmem)
      exact hyields.gives hreach.openIn ht hp hw hd ih hnode

/-- Inputs that fit parameters resolve to one value for each of them, in order, of a type
that the parameter accepts. -/
theorem accepts_of_takes {table : ValueTable} {parameters : List Parameter}
    {fields : List (String × Expr)} (htakes : List.Forall₂ Parameter.Takes parameters fields)
    (hformed : ∀ field ∈ fields, field.2.WellFormed)
    (htyped : ∀ field ∈ fields, ∀ ref ∈ field.2.references, ref.TypedIn table)
    {values : List (String × Value)} (hresolve : Expr.resolveFields table fields = .ok values) :
    values.map Prod.fst = parameters.map Parameter.name ∧
      List.Forall₂ (fun parameter v => parameter.type.accepts (Value.type v) = true) parameters
        (values.map Prod.snd) := by
  induction htakes generalizing values with
  | nil =>
    rw [Expr.resolveFields] at hresolve
    rw [← Except.ok.inj hresolve]
    exact ⟨rfl, .nil⟩
  | @cons parameter field parameters fields hfirst hrest ih =>
    obtain ⟨name, e⟩ := field
    obtain ⟨rfl, found, hinfer, haccepts⟩ := hfirst
    obtain ⟨v, others, hv, hothers, rfl⟩ := Expr.resolveFields_cons_eq_ok.mp hresolve
    have hshape := Expr.shape_type_of_resolve e (hformed _ List.mem_cons_self)
      (htyped _ List.mem_cons_self) hv hinfer
    obtain ⟨hnames, hvalues⟩ := ih
      (fun field hfield => hformed field (List.mem_cons_of_mem _ hfield))
      (fun field hfield => htyped field (List.mem_cons_of_mem _ hfield)) hothers
    refine ⟨by simp [hnames], .cons ?_ hvalues⟩
    rw [ValueType.accepts_congr hshape]
    exact haccepts

/-- Inputs resolve to values of the kinds of their types. -/
theorem kinds_of_infers {table : ValueTable} {names : List String} {operands : List Expr}
    {types : List ValueType}
    (hinfers : List.Forall₂ (fun e type => Expr.infer e = .ok type) operands types)
    (hlength : names.length = operands.length)
    (hformed : ∀ e ∈ operands, e.WellFormed)
    (htyped : ∀ e ∈ operands, ∀ ref ∈ e.references, ref.TypedIn table)
    {values : List (String × Value)}
    (hresolve : Expr.resolveFields table (names.zip operands) = .ok values) :
    (values.map Prod.snd).map Value.kind = types.map ValueType.kind := by
  induction hinfers generalizing names values with
  | nil =>
    rw [List.zip_nil_right, Expr.resolveFields] at hresolve
    rw [← Except.ok.inj hresolve]
    rfl
  | @cons e type operands types hinfer hrest ih =>
    cases names with
    | nil => simp at hlength
    | cons name names =>
      rw [List.zip_cons_cons] at hresolve
      obtain ⟨v, others, hv, hothers, rfl⟩ := Expr.resolveFields_cons_eq_ok.mp hresolve
      have hshape := Expr.shape_type_of_resolve e (hformed _ List.mem_cons_self)
        (htyped _ List.mem_cons_self) hv hinfer
      have hkind := ValueType.kind_eq_of_shape_eq hshape
      rw [Value.kind_type] at hkind
      have hkinds := ih (by simpa using hlength)
        (fun e he => hformed e (List.mem_cons_of_mem _ he))
        (fun e he => htyped e (List.mem_cons_of_mem _ he)) hothers
      simp only [List.map_cons, hkind, hkinds]

/-- What a call is given: the inputs of a component of the pipeline, resolved where the
references in them are typed. -/
theorem exists_typedIn_of_mem_calls (ht : p.Traced) (hp : p.Unambiguous) (hw : p.WellFormed)
    (hd : p.DeclaresTypes) {call : Call} (hcall : call ∈ backend.calls p s) :
    .component call.component ∈ p.nodes ∧
      ∃ table values, Expr.resolveFields table call.component.inputs.entries = .ok values ∧
        call.inputs = .ofList values ∧
        ∀ e ∈ call.component.inputs.values,
          e.WellFormed ∧ ∀ ref ∈ e.references, ref.TypedIn table := by
  obtain ⟨m, hreach, a, outer, rest, hstack, hnext, hinputs⟩ := exists_reaches_of_mem_calls hcall
  obtain ⟨values, hvalues, hgiven⟩ := Expr.resolveAll_eq_ok.mp hinputs
  have hopen := hreach.openIn
  have hahead : Node.component call.component ∈ a.future := by simp [hnext]
  have ha : a ∈ m.stack := by simp [hstack]
  have hnode := hopen.mem_nodes ha ((hopen.walks a ha).mem_of_future hahead)
  refine ⟨hnode, Stack.table m.stack, values, hvalues, hgiven, ?_⟩
  intro e he
  have hexpr : e ∈ p.exprs :=
    Pipeline.mem_exprs_of_mem_nodes hnode (List.mem_append_left _ (List.mem_append_left _ he))
  exact ⟨hw e hexpr, hopen.typedIn_of_mem_exprs hp (hreach.typed ht hp hw hd) hexpr⟩

/-- The failures of the backend itself are failures of backends. -/
def FailsOwn (backend : Backend σ) : Prop :=
  ∀ c inputs s fault after, backend.runComponent c inputs s = (.error fault, after) →
    ∃ name cause, fault = .backend name cause

/-- Running bodies in process fails with errors of the backend alone. -/
theorem inProcess_failsOwn : inProcess.FailsOwn := by
  intro c inputs s fault after hrun
  unfold inProcess at hrun
  cases hbody : c.body with
  | none =>
    simp only [hbody, Prod.mk.injEq, Except.error.injEq] at hrun
    exact ⟨_, _, hrun.1.symm⟩
  | some body =>
    cases houtcome : body inputs with
    | ok v => simp [hbody, houtcome, Except.mapError] at hrun
    | error failure =>
      simp only [hbody, houtcome, Except.mapError, Prod.mk.injEq, Except.error.injEq] at hrun
      exact ⟨_, _, hrun.1.symm⟩

/-- Why a moment with typed values fails: a name has no value, a guard cannot be compared,
or a component fails, because the backend does or because its raw result is not of the
declared type. Nested pipelines settle. -/
inductive Cause (backend : Backend σ) (m : Moment σ) (after : RunState σ) : GraphError → Prop where
  | missing {e : Expr} {fault : GraphError} (he : e ∈ m.exprs)
      (hresolve : e.resolve (Stack.table m.stack) = .error fault)
      (hafter : after = m.state) : Cause backend m after fault
  | contract {violation : Violation} : Cause backend m after (.contract violation)
  | backend {name : String} {cause : BackendFault} : Cause backend m after (.backend name cause)
  | output {c : Component} {inputs : Inputs} {raw : Value} {declared : ValueType}
      {produced : Produced} (hcalls : Calls m c inputs)
      (hanswer : backend.runComponent c inputs m.state.backend = (.ok raw, after.backend))
      (hunfit : c.returns.fits raw = false) :
      Cause backend m after (.output c.name declared produced)

/-- The causes of all failures of a run. -/
theorem Fails.cause {fault : GraphError} {after : RunState σ} (h : backend.Fails m fault after)
    (hreach : backend.Reaches p s m) (ht : p.Traced) (hp : p.Unambiguous) (hw : p.WellFormed)
    (hd : p.DeclaresTypes) (hb : backend.FailsOwn) : Cause backend m after fault := by
  have hopen := hreach.openIn
  have htyped := hreach.typed ht hp hw hd
  cases h with
  | @input a outer state node rest _ hnext hinputs =>
    obtain ⟨e, he, hresolve⟩ := Expr.exists_of_resolveAll_eq_error hinputs
    exact .missing (by simp [Moment.exprs, hnext, he]) hresolve rfl
  | @guard a outer state q rest _ hnext hguard =>
    obtain ⟨condition, hcondition, herror⟩ := Condition.exists_of_holds_eq_error hguard
    have hoperands : (Node.pipeline q).operands = [condition.left, condition.right] :=
      Node.operands_of_guard_eq_some hcondition
    rcases Condition.cases_of_evaluate_eq_error herror with hleft | hright | ⟨violation, rfl⟩
    · exact .missing (by simp [Moment.exprs, hnext, hoperands]) hleft rfl
    · exact .missing (by simp [Moment.exprs, hnext, hoperands]) hright rfl
    · exact .contract
  | @run a outer state _ c rest inputs _ hnext hinputs hrun =>
    unfold execute at hrun
    rcases hanswer : backend.runComponent c inputs state.backend with ⟨answer, final⟩
    rw [hanswer] at hrun
    cases answer with
    | error found =>
      obtain ⟨name, cause, rfl⟩ := hb c inputs state.backend found final hanswer
      obtain ⟨hfault, -⟩ := Prod.mk.inj hrun
      rw [← Except.error.inj hfault]
      exact .backend
    | ok raw =>
      obtain ⟨hreconstruct, rfl⟩ := Prod.mk.inj hrun
      obtain ⟨declared, produced, rfl⟩ := exists_output_of_reconstruct c.returns raw hreconstruct
      have hunfit : c.returns.fits raw = false := by
        rw [← isOk_reconstruct, hreconstruct]
        rfl
      exact .output ⟨a, outer, rest, rfl, hnext, hinputs⟩ hanswer hunfit
  | @result a outer state _ hdone hvalue =>
    cases hresult : a.pipeline.returnValue with
    | none =>
      rw [hresult] at hvalue
      cases hvalue
    | some e =>
      rw [hresult] at hvalue
      cases hresolve : e.resolve (Stack.table (a :: outer)) with
      | error found =>
        simp only [Expr.resolveOption, hresolve, Except.map, Except.error.injEq] at hvalue
        rw [hvalue] at hresolve
        exact .missing (by simp [Moment.exprs, hdone, hresult]) hresolve rfl
      | ok v => simp [Expr.resolveOption, hresolve, Except.map] at hvalue
  | @settle inside a outer state value _ hdone hvalue hsettle =>
    have hnode := hopen.mem_nodes_of_nested
    obtain ⟨v, hv, -⟩ := exists_settle_of_openIn hopen ht hp hw hd htyped hnode hvalue
    rw [hsettle] at hv
    cases hv

theorem FailsOwn.watched (h : backend.FailsOwn) : backend.watched.FailsOwn := by
  intro c inputs state fault after hanswer
  rcases hfound : backend.runComponent c inputs state.2 with ⟨answer, s⟩
  simp only [Backend.watched, hfound, Prod.mk.injEq] at hanswer
  exact h c inputs state.2 fault s (by rw [hfound, hanswer.1])

/-- A call gets one value for each parameter of the definition, in order, of a type that
the parameter accepts. -/
theorem accepts_of_mem_calls (ht : p.Traced) (hp : p.Unambiguous) (hw : p.WellFormed)
    (hd : p.DeclaresTypes) {call : Call} (hcall : call ∈ backend.calls p s) {t t' : Tracer}
    {d : ComponentDef} {arguments : List (String × Expr)}
    (hmade : t.call d arguments = (.ok call.component, t'))
    (hdistinct : (d.parameters.map Parameter.name).Nodup) :
    call.inputs.names = d.parameters.map Parameter.name ∧
      List.Forall₂ (fun parameter v => parameter.type.accepts (Value.type v) = true)
        d.parameters call.inputs.values := by
  obtain ⟨-, table, values, hvalues, hgiven, hread⟩ :=
    exists_typedIn_of_mem_calls ht hp hw hd hcall
  have htakes := ComponentDef.takes_of_bind hdistinct (Tracer.bind_of_call hmade)
  obtain ⟨hnames, haccepts⟩ := accepts_of_takes htakes
    (fun field hfield => (hread field.2 (List.mem_map_of_mem hfield)).1)
    (fun field hfield => (hread field.2 (List.mem_map_of_mem hfield)).2) hvalues
  have hinputs : call.inputs = ⟨values⟩ := by
    rw [hgiven, Named.ofList_eq_of_nodup]
    rwa [hnames]
  rw [hinputs]
  exact ⟨hnames, haccepts⟩

/-- An operator gets operands of kinds that its selected overload accepts. -/
theorem kindsAccepted_of_mem_calls (ht : p.Traced) (hp : p.Unambiguous) (hw : p.WellFormed)
    (hd : p.DeclaresTypes) {call : Call} (hcall : call ∈ backend.calls p s) {t t' : Tracer}
    {operator : Operator} {operands : List Expr} {overload : Overload}
    (hmade : t.apply operator operands = (.ok call.component, t'))
    (hselect : t.selectOverload operator operands = .ok overload) :
    kindsAccepted overload.parameters (call.inputs.values.map Value.kind) = true := by
  obtain ⟨-, table, values, hvalues, hgiven, hread⟩ :=
    exists_typedIn_of_mem_calls ht hp hw hd hcall
  obtain ⟨other, -, hinputs⟩ := Tracer.exists_of_apply hmade
  obtain ⟨types, hinfers, haccepted⟩ := Tracer.exists_of_selectOverload hselect
  have hlength : (Operator.operandNames operands.length).length = operands.length := by
    simp [Operator.operandNames]
  have hoperands : call.component.inputs.values = operands := by
    rw [hinputs]
    exact List.map_snd_zip (Nat.le_of_eq hlength.symm)
  have hnames : values.map Prod.fst = Operator.operandNames operands.length := by
    rw [Expr.map_fst_of_resolveFields hvalues, hinputs]
    exact List.map_fst_zip (Nat.le_of_eq hlength)
  rw [hinputs] at hvalues
  rw [hoperands] at hread
  have hkinds := kinds_of_infers hinfers hlength (fun e he => (hread e he).1)
    (fun e he => (hread e he).2) hvalues
  have hentries : call.inputs = ⟨values⟩ := by
    rw [hgiven, Named.ofList_eq_of_nodup]
    rw [hnames]
    exact Operator.nodup_operandNames operands.length
  rw [hentries, Named.values, hkinds]
  exact haccepted

/-- What stands under the name of a node in a table of the run is of the type of the
node, up to the names of schemas. -/
theorem Reaches.shape_type_of_get? (hreach : backend.Reaches p s m) (ht : p.Traced)
    (hp : p.Unambiguous) (hw : p.WellFormed) (hd : p.DeclaresTypes) {node : Node}
    (hnode : node ∈ p.nodes) {type : ValueType} (htype : node.ref.type = some type) {v : Value}
    (hget : (Stack.table m.stack).get? node.name = some v) : v.type.shape = type.shape := by
  have hopen := hreach.openIn
  obtain ⟨a, ha, found, hmem, hname⟩ :=
    hopen.exists_completed hp (.inl (List.mem_map_of_mem hnode)) hget
  have hfound := hopen.mem_nodes ha ((hopen.walks a ha).mem_of_past hmem)
  obtain rfl := hp.eq_of_name_eq hfound hnode hname
  exact (hreach.typed ht hp hw hd a ha found v hmem).2 type htype

/-- An output failure comes from a call whose raw result was not of the declared type. -/
theorem exists_call_of_run_eq_output (ht : p.Traced) (hp : p.Unambiguous) (hw : p.WellFormed)
    (hd : p.DeclaresTypes) (hb : backend.FailsOwn) {owner : String} {declared : ValueType}
    {produced : Produced} {after : RunState σ}
    (hrun : backend.run p s = (.error (.output owner declared produced), after)) :
    ∃ call ∈ backend.calls p s, call.component.name = owner ∧
      .component call.component ∈ p.nodes ∧
        ∃ raw, call.answer = .ok raw ∧ call.component.returns.fits raw = false := by
  rw [run_watched] at hrun
  rcases hwatched : backend.watched.run p ([], s) with ⟨result, final⟩
  rw [hwatched] at hrun
  obtain ⟨rfl, -⟩ := Prod.mk.inj hrun
  rcases exists_fails_of_run_eq_error hwatched with ⟨hinputs, -⟩ | ⟨m, hreach, hfails⟩
  · obtain ⟨name, hname⟩ := Expr.exists_nameNotProduced_of_resolveAll hinputs
    cases hname
  · have hcause := hfails.cause hreach ht hp hw hd hb.watched
    generalize hfault : GraphError.output owner declared produced = fault at hcause
    cases hcause with
    | @missing e _ he hresolve hafter =>
      obtain ⟨name, hname⟩ := Expr.exists_nameNotProduced_of_resolve e hresolve
      rw [hname] at hfault
      cases hfault
    | contract | backend => cases hfault
    | @output c inputs raw _ _ hcalls hanswer hunfit =>
      cases hfault
      obtain ⟨a, outer, rest, hstack, hnext, -⟩ := hcalls
      have hopen := hreach.openIn
      have ha : a ∈ m.stack := by simp [hstack]
      have hahead : Node.component c ∈ a.future := by simp [hnext]
      have hnode := hopen.mem_nodes ha ((hopen.walks a ha).mem_of_future hahead)
      refine ⟨⟨c, inputs, .ok raw⟩, ?_, rfl, hnode, raw, rfl, hunfit⟩
      unfold calls
      rw [hwatched]
      rcases hfound : backend.runComponent c inputs m.state.backend.2 with ⟨answer, s'⟩
      simp only [Backend.watched, hfound, Prod.mk.injEq] at hanswer
      obtain ⟨rfl, hafter⟩ := hanswer
      simp [← hafter]

/-- A run of a traced and unambiguous pipeline with valid types keeps to the types: each
call gets one value for each parameter, in order, that the parameter accepts, or operands
of kinds that the overload accepts; every value under the name of a node, in any table of
the run, has the type of the node; and an output failure names a component whose raw result
was not of its declared type, and no nested pipeline. -/
theorem calls_tables_outputs_typed (ht : p.Traced) (hp : p.Unambiguous) (hw : p.WellFormed)
    (hd : p.DeclaresTypes) (hb : backend.FailsOwn) :
    (∀ call ∈ backend.calls p s, call.component.Recorded ∧
      (∀ (t t' : Tracer) (d : ComponentDef) (arguments : List (String × Expr)),
        t.call d arguments = (.ok call.component, t') → (d.parameters.map Parameter.name).Nodup →
          call.inputs.names = d.parameters.map Parameter.name ∧
            List.Forall₂ (fun parameter v => parameter.type.accepts (Value.type v) = true)
              d.parameters call.inputs.values) ∧
      (∀ (t t' : Tracer) (operator : Operator) (operands : List Expr) (overload : Overload),
        t.apply operator operands = (.ok call.component, t') →
          t.selectOverload operator operands = .ok overload →
            kindsAccepted overload.parameters (call.inputs.values.map Value.kind) = true)) ∧
    (∀ node ∈ p.nodes, ∀ type, node.ref.type = some type →
      (∀ m, backend.Reaches p s m → ∀ v,
        (Stack.table m.stack).get? node.name = some v → v.type.shape = type.shape) ∧
      ∀ outcome after, backend.run p s = (.ok outcome, after) → ∀ v,
        outcome.values.get? node.name = some v → v.type.shape = type.shape) ∧
    (∀ owner declared produced after,
      backend.run p s = (.error (.output owner declared produced), after) →
        (∃ call ∈ backend.calls p s, call.component.name = owner ∧
          ∃ raw, call.answer = .ok raw ∧ call.component.returns.fits raw = false) ∧
        ∀ q, .pipeline q ∈ p.nodes → q.name ≠ owner) := by
  refine ⟨?_, ?_, ?_⟩
  · intro call hcall
    have hnode := (exists_typedIn_of_mem_calls ht hp hw hd hcall).1
    refine ⟨ht.recorded hnode, ?_, ?_⟩
    · intro t t' d arguments hmade hdistinct
      exact accepts_of_mem_calls ht hp hw hd hcall hmade hdistinct
    · intro t t' operator operands overload hmade hselect
      exact kindsAccepted_of_mem_calls ht hp hw hd hcall hmade hselect
  · intro node hnode type htype
    constructor
    · intro m hreach v hget
      exact hreach.shape_type_of_get? ht hp hw hd hnode htype hget
    · intro outcome after hrun v hget
      obtain ⟨a, hreach, -, -, hvalues, -⟩ := reaches_of_run_eq_ok hrun
      rw [hvalues] at hget
      exact hreach.shape_type_of_get? ht hp hw hd hnode htype hget
  · intro owner declared produced after hrun
    obtain ⟨call, hcall, hname, hnode, hraw⟩ :=
      exists_call_of_run_eq_output ht hp hw hd hb hrun
    refine ⟨⟨call, hcall, hname, hraw⟩, ?_⟩
    intro q hq hequal
    cases hp.eq_of_name_eq hq hnode (hequal.trans hname.symm)

end Backend

namespace Exclamation

/-- A text. -/
def text : Component := echoed "text" (.literal (.string "hello"))

/-- The text with a mark, made by an operator. -/
def marked : Component where
  name := "add"
  function := "add"
  inputs := ⟨[("a", text.expr), ("b", .literal (.string "!"))]⟩
  returns := .string
  deployment := Settings.default.operatorDeployment
  body := some fun inputs => Builtin.concatenate inputs.values

/-- A node inside a nested pipeline that reads the marked text. -/
def last : Component := echoed "last" marked.expr

/-- The nested pipeline. -/
def inner : Pipeline :=
  ⟨"inner", .empty, [.component last], some last.expr, some .string, none⟩

/-- The root pipeline. -/
def root : Pipeline :=
  ⟨"main", .empty, [.component text, .component marked, .pipeline inner], some inner.expr,
    some .string, none⟩

theorem root_traced : root.Traced := by
  refine ⟨Unit, .invoke ⟨"main", some "main", [], none⟩ [], fun _ => do
    let text ← .call (echo "text") [("text", .literal (.string "hello"))]
    let marked ← .apply .add [text.expr, .literal (.string "!")]
    let inner ← .nest (.invoke ⟨"inner", some "inner", [], some .string⟩ []) fun _ => do
      let last ← .call (echo "last") [("text", marked.expr)]
      return some last.expr
    return some inner.expr,
    .start { Settings.default with suffixLength := 0 } ⟨fun _ => 0, 0⟩, (), ?_⟩
  rfl

theorem root_declaresTypes : root.DeclaresTypes :=
  Pipeline.declaresTypes_of_isScalar (by decide)

end Exclamation

/-- A run over an operator and a nested pipeline keeps to the types. -/
theorem calls_tables_outputs_typed_exclamation :
    Exclamation.root.Traced ∧ Exclamation.root.Unambiguous ∧ Exclamation.root.WellFormed ∧
      Exclamation.root.DeclaresTypes ∧ Backend.inProcess.FailsOwn ∧
      (Backend.inProcess.calls Exclamation.root ()).map
          (fun call => (call.component.name, call.inputs.values)) =
        [("text", [.string "hello"]), ("add", [.string "hello", .string "!"]),
          ("last", [.string "hello!"])] ∧
      (∀ call ∈ Backend.inProcess.calls Exclamation.root (), call.component.Recorded) ∧
      ∀ outcome after, Backend.inProcess.run Exclamation.root () = (.ok outcome, after) → ∀ v,
        outcome.values.get? "inner" = some v → v.type.shape = ValueType.string.shape := by
  have hp : Exclamation.root.Unambiguous := by decide
  have hw : Exclamation.root.WellFormed := by decide
  have htyped := Backend.calls_tables_outputs_typed (s := ()) Exclamation.root_traced hp hw
    Exclamation.root_declaresTypes Backend.inProcess_failsOwn
  have hinner : .pipeline Exclamation.inner ∈ Exclamation.root.nodes := by
    simp [Exclamation.root, Pipeline.nodes, Node.listed]
  refine ⟨Exclamation.root_traced, hp, hw, Exclamation.root_declaresTypes,
    Backend.inProcess_failsOwn, rfl, ?_, ?_⟩
  · intro call hcall
    exact (htyped.1 call hcall).1
  · exact (htyped.2.1 _ hinner .string rfl).2

end Dataflow
