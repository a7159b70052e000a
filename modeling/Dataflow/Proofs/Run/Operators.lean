/-
# Operator nodes in runs

A node that applies an operator runs a built-in overload. What it gives is of the declared type of
the node, so it is reconstructed as it is: no moment of a run fails with the output of an operator
node, and where the nodes have distinct names, no run ends with an error about the output of one.

This asks of a backend that the values that it gives for such nodes are those of their bodies.
Running bodies in process does so. Running commands gives nothing for them, as they have none.
-/

import Dataflow.Proofs.Operator.Overloads
import Dataflow.Proofs.Run.Command
import Dataflow.Proofs.Run.Guards

namespace Dataflow

/-- The component was recorded to apply an operator by one of its built-in overloads. -/
def Component.AppliesBuiltin (c : Component) : Prop :=
  ∃ (t t' : Tracer) (operator : Operator) (operands : List Expr) (overload : Overload),
    t.selectOverload operator operands = .ok overload ∧ overload ∈ Builtin.overloads operator ∧
      t.apply operator operands = (.ok c, t')

namespace Component.AppliesBuiltin

variable {c : Component}

/-- The component has the type and the body of the overload, and no command. -/
theorem exists_overload (h : c.AppliesBuiltin) :
    ∃ operator overload, Overload.Safe operator overload ∧ c.returns = overload.returns ∧
      (c.body = some fun inputs => overload.implementation inputs.values) ∧
      c.deployment.command = [] := by
  obtain ⟨t, t', operator, operands, overload, hselect, hmem, happly⟩ := h
  unfold Tracer.apply at happly
  simp only [hselect] at happly
  rw [← Tracer.eq_of_recordAs happly]
  exact ⟨operator, overload, Builtin.safe_of_mem_overloads operator overload hmem, rfl, rfl, rfl⟩

/-- What the body of an operator node gives is reconstructed as it is. -/
theorem reconstruct_of_invoke (h : c.AppliesBuiltin) {inputs : Inputs} {raw : Value}
    (hok : c.invoke inputs = .ok raw) (owner : String) :
    reconstruct owner c.returns raw = .ok raw := by
  obtain ⟨operator, overload, hsafe, hreturns, hbody, -⟩ := h.exists_overload
  rw [Component.invoke, hbody] at hok
  have htype : raw.type = overload.returns := hsafe.typed inputs.values raw hok
  rw [hreturns]
  exact reconstruct_eq_self overload.returns raw (ValueType.wellFormed_of_isScalar hsafe.scalar)
    (congrArg ValueType.shape htype)

end Component.AppliesBuiltin

namespace Backend

variable {σ : Type} {backend : Backend σ} {p : Pipeline} {s : σ} {m : Moment σ}

/-- The values that a backend gives for operator nodes are those of their bodies. -/
def RunsOverloads (backend : Backend σ) : Prop :=
  ∀ (c : Component) (inputs : Inputs) (s : σ) (raw : Value) (after : σ), c.AppliesBuiltin →
    backend.runComponent c inputs s = (.ok raw, after) → c.invoke inputs = .ok raw

theorem inProcess_runsOverloads : inProcess.RunsOverloads := by
  intro c inputs s raw after _ hrun
  unfold inProcess at hrun
  cases hbody : c.body with
  | none => simp [hbody] at hrun
  | some body =>
    cases houtcome : body inputs with
    | error failure => simp [hbody, houtcome, Except.mapError] at hrun
    | ok v =>
      simp only [hbody, houtcome, Except.mapError, Prod.mk.injEq, Except.ok.injEq] at hrun
      rw [Component.invoke, hbody, ← hrun.1]
      exact houtcome

section

variable {host : Host} {directory : Option String} {environment : Named String}

theorem command_runsOverloads : (command host directory environment).RunsOverloads := by
  intro c inputs s raw after happlies hrun
  obtain ⟨operator, overload, -, -, -, hcommand⟩ := happlies.exists_overload
  simp [command, hcommand] at hrun

/-- Running commands fails with errors of the backend alone. -/
theorem command_failsOwn : (command host directory environment).FailsOwn := by
  intro c inputs s fault after hrun
  have hresult := congrArg Prod.fst hrun
  unfold command at hresult
  dsimp only at hresult
  split at hresult
  · exact ⟨_, _, (Except.error.inj hresult).symm⟩
  · split at hresult
    · exact ⟨_, _, (Except.error.inj hresult).symm⟩
    · rename_i finished _
      dsimp only [Finished.result] at hresult
      split at hresult
      · exact ⟨_, _, (Except.error.inj hresult).symm⟩
      · exact ⟨_, exists_backend_of_readOutput hresult⟩

end

/-- Executing an operator node never finds fault with its output. -/
theorem ne_output_of_execute (hfails : backend.FailsOwn) (hruns : backend.RunsOverloads)
    {c : Component} (happlies : c.AppliesBuiltin) {inputs : Inputs} {state after : RunState σ}
    {owner : String} {declared : ValueType} {produced : Produced} :
    backend.execute c inputs state ≠ (.error (.output owner declared produced), after) := by
  intro hrun
  unfold execute at hrun
  rcases hanswer : backend.runComponent c inputs state.backend with ⟨answer, final⟩
  rw [hanswer] at hrun
  cases answer with
  | error fault =>
    obtain ⟨name, cause, rfl⟩ := hfails c inputs state.backend fault final hanswer
    cases hrun
  | ok raw =>
    have hinvoke := hruns c inputs state.backend raw final happlies hanswer
    simp only [happlies.reconstruct_of_invoke hinvoke] at hrun
    cases hrun

/-- A moment that fails with an output is about to run a component or has a nested pipeline that
is done. -/
theorem Fails.cases_of_output {owner : String} {declared : ValueType} {produced : Produced}
    {after : RunState σ} (h : backend.Fails m (.output owner declared produced) after) :
    (∃ path c inputs, m.Meets path (.component c) ∧
      backend.execute c inputs m.state = (.error (.output owner declared produced), after)) ∨
    ∃ inside a outer, m.stack = inside :: a :: outer ∧ inside.future = [] ∧
      owner = inside.pipeline.name := by
  cases h with
  | input hnext hinputs =>
    obtain ⟨name, hname⟩ := Expr.exists_nameNotProduced_of_resolveAll hinputs
    cases hname
  | guard hnext hguard =>
    rcases Condition.cases_of_holds_eq_error hguard with ⟨name, hfault⟩ | ⟨violation, hfault⟩
    · cases hfault
    · cases hfault
  | run hnext hinputs hrun => exact .inl ⟨_, _, _, Moment.meets_of_next hnext, hrun⟩
  | result hdone hvalue =>
    obtain ⟨name, hname⟩ := Expr.exists_nameNotProduced_of_resolveOption hvalue
    cases hname
  | settle hdone hvalue hsettle =>
    obtain ⟨found, given, hfault⟩ := Pipeline.exists_output_of_settle hsettle
    cases hfault
    exact .inr ⟨_, _, _, rfl, hdone, rfl⟩

/-- A moment that is about to run an operator node does not fail with an output. -/
theorem not_fails_output_of_meets (hfails : backend.FailsOwn) (hruns : backend.RunsOverloads)
    {path : String} {c : Component} (hmeets : m.Meets path (.component c))
    (happlies : c.AppliesBuiltin) {owner : String} {declared : ValueType} {produced : Produced}
    {after : RunState σ} : ¬ backend.Fails m (.output owner declared produced) after := by
  intro h
  obtain ⟨a, outer, rest, hstack, hnext, -⟩ := hmeets
  rcases h.cases_of_output with
    ⟨path', c', inputs, hmeets', hrun⟩ | ⟨inside, b, around, hstack', hdone, -⟩
  · obtain ⟨a', outer', rest', hstack', hnext', -⟩ := hmeets'
    obtain ⟨rfl, rfl⟩ := List.cons.inj (hstack.symm.trans hstack')
    obtain ⟨hsame, -⟩ := List.cons.inj (hnext.symm.trans hnext')
    obtain rfl := Node.component.inj hsame
    exact ne_output_of_execute hfails hruns happlies hrun
  · obtain ⟨rfl, -⟩ := List.cons.inj (hstack.symm.trans hstack')
    rw [hdone] at hnext
    cases hnext

/-- An error about an output names the component that was executed. -/
theorem name_of_execute_eq_output (hfails : backend.FailsOwn) {c : Component} {inputs : Inputs}
    {state after : RunState σ} {owner : String} {declared : ValueType} {produced : Produced}
    (hrun : backend.execute c inputs state = (.error (.output owner declared produced), after)) :
    c.name = owner := by
  unfold execute at hrun
  rcases hanswer : backend.runComponent c inputs state.backend with ⟨answer, final⟩
  rw [hanswer] at hrun
  cases answer with
  | error fault =>
    obtain ⟨name, cause, rfl⟩ := hfails c inputs state.backend fault final hanswer
    cases hrun
  | ok raw =>
    obtain ⟨found, given, hfault⟩ :=
      exists_output_of_reconstruct c.returns raw (congrArg Prod.fst hrun)
    cases hfault
    rfl

/-- Where the nodes have distinct names, no run ends with the output of an operator node. -/
theorem ne_name_of_run_eq_output (hfails : backend.FailsOwn) (hruns : backend.RunsOverloads)
    (hdistinct : (p.nodes.map Node.name).Nodup) {owner : String} {declared : ValueType}
    {produced : Produced} {after : RunState σ}
    (hrun : backend.run p s = (.error (.output owner declared produced), after)) {c : Component}
    (hc : .component c ∈ p.nodes) (happlies : c.AppliesBuiltin) : c.name ≠ owner := by
  rcases exists_fails_of_run_eq_error hrun with ⟨hinputs, -⟩ | ⟨m, hreach, h⟩
  · obtain ⟨name, hname⟩ := Expr.exists_nameNotProduced_of_resolveAll hinputs
    cases hname
  · rcases h.cases_of_output with
      ⟨path, other, inputs, hmeets, hexecute⟩ | ⟨inside, a, outer, hstack, -, hname⟩
    · intro hsame
      have hother : c.name = other.name :=
        hsame.trans (name_of_execute_eq_output hfails hexecute).symm
      obtain rfl := Node.component.inj
        (List.inj_on_of_nodup_map hdistinct hc (hreach.mem_nodes_of_meets hmeets) hother)
      exact ne_output_of_execute hfails hruns happlies hexecute
    · intro hsame
      have hopen := hreach.openIn
      rw [hstack] at hopen
      cases List.inj_on_of_nodup_map hdistinct hc hopen.mem_nodes_of_nested (hsame.trans hname)

end Backend

/-- Built-in overloads are type-safe. An overload that the built-in registry selects for the types
of its operands gives a value of exactly its declared type, or fails for what the operands are
worth and not for their number or kinds. So a run never reports the output of an operator node: no
moment that is about to run one fails so, and where nodes have distinct names, an error about an
output names none of them. Running bodies in process and running commands are such runs. -/
theorem Builtin.overloads_safe :
    (∀ (operator : Operator) (operands : List Value) (overload : Overload),
      registry.select operator (operands.map Value.type) = .ok overload →
        (∃ v, overload.implementation operands = .ok v ∧ v.type = overload.returns) ∨
          ∃ failure, overload.implementation operands = .error failure ∧
            operator.FailsOn operands failure) ∧
    (∀ {σ : Type} (backend : Backend σ) (p : Pipeline) (s : σ), backend.FailsOwn →
      backend.RunsOverloads →
        (∀ m path c, backend.Reaches p s m → m.Meets path (.component c) → c.AppliesBuiltin →
          ∀ owner declared produced after,
            ¬ backend.Fails m (.output owner declared produced) after) ∧
        ((p.nodes.map Node.name).Nodup → ∀ owner declared produced after,
          backend.run p s = (.error (.output owner declared produced), after) →
            ∀ c, .component c ∈ p.nodes → c.AppliesBuiltin → c.name ≠ owner)) ∧
    (Backend.inProcess.FailsOwn ∧ Backend.inProcess.RunsOverloads) ∧
    ∀ host directory environment,
      (Backend.command host directory environment).FailsOwn ∧
        (Backend.command host directory environment).RunsOverloads := by
  refine ⟨fun operator operands overload => answers_of_select, fun backend p s hfails hruns =>
    ⟨?_, ?_⟩, ⟨Backend.inProcess_failsOwn, Backend.inProcess_runsOverloads⟩,
    fun host directory environment => ⟨Backend.command_failsOwn, Backend.command_runsOverloads⟩⟩
  · intro m path c _ hmeets happlies owner declared produced after
    exact Backend.not_fails_output_of_meets hfails hruns hmeets happlies
  · intro hdistinct owner declared produced after hrun c hc happlies
    exact Backend.ne_name_of_run_eq_output hfails hruns hdistinct hrun hc happlies

namespace Miscounted

/-- An operator node. -/
def joined : Component where
  name := "add"
  function := "add"
  inputs := ⟨[("a", .literal (.string "a")), ("b", .literal (.string "b"))]⟩
  returns := .string
  deployment := Settings.default.operatorDeployment
  body := some fun inputs => Builtin.concatenate inputs.values

/-- A component that gives an integer where it declares a text. -/
def counted : Component where
  name := "count"
  function := "count"
  inputs := .empty
  returns := .string
  deployment := Settings.default.resolveDeployment .none
  body := some fun _ => .ok (.integer 7)

/-- A pipeline of the two. -/
def root : Pipeline :=
  ⟨"main", .empty, [.component joined, .component counted], none, none, none⟩

/-- A tracer with the pipeline open. -/
def tracer : Tracer :=
  { Tracer.start { Settings.default with suffixLength := 0 } ⟨fun _ => 0, 0⟩ with
    frames := [⟨"main", .empty, [], none⟩] }

theorem joined_appliesBuiltin : joined.AppliesBuiltin := by
  refine ⟨tracer, _, .add, [.literal (.string "a"), .literal (.string "b")],
    ⟨[.string, .string], .string, Builtin.concatenate⟩, rfl, ?_, rfl⟩
  exact List.mem_cons_self

end Miscounted

/-- A division of a boolean by zero fails for its divisor. A run over an operator node and a
component of a false declaration ends with the output of the component, not of the operator. -/
theorem Builtin.overloads_safe_miscounted :
    (∃ overload, registry.select .floorDivide [.boolean, .integer] = .ok overload ∧
      overload.implementation [.boolean true, .integer 0] = .error .divisionByZero ∧
      Operator.FailsOn .floorDivide [.boolean true, .integer 0] .divisionByZero) ∧
    Backend.inProcess.FailsOwn ∧ Backend.inProcess.RunsOverloads ∧
    (Miscounted.root.nodes.map Node.name).Nodup ∧ Miscounted.joined.AppliesBuiltin ∧
    (Backend.inProcess.run Miscounted.root ()).1 =
      .error (.output "count" .string (.ofKind .integer)) ∧
    Miscounted.joined.name ≠ "count" := by
  obtain ⟨hselected, hruns, ⟨hfailsOwn, hoverloads⟩, -⟩ := Builtin.overloads_safe
  have hdistinct : (Miscounted.root.nodes.map Node.name).Nodup := by decide
  have hjoined := Miscounted.joined_appliesBuiltin
  have hresult : (Backend.inProcess.run Miscounted.root ()).1 =
    .error (.output "count" .string (.ofKind .integer)) := rfl
  have hzero : floorDivide [.boolean true, .integer 0] = .error .divisionByZero := rfl
  refine ⟨⟨⟨[.integer, .integer], .integer, floorDivide⟩, rfl, hzero, ?_⟩, hfailsOwn, hoverloads,
    hdistinct, hjoined, hresult, ?_⟩
  · rcases hselected .floorDivide [.boolean true, .integer 0] _ rfl with
      ⟨v, hv, -⟩ | ⟨failure, hfailure, hfails⟩
    · cases hzero.symm.trans hv
    · obtain rfl := Except.error.inj (hzero.symm.trans hfailure)
      exact hfails
  · exact (hruns Backend.inProcess Miscounted.root () hfailsOwn hoverloads).2 hdistinct _ _ _ _
      (Prod.ext hresult rfl) _ (by simp [Miscounted.root, Pipeline.nodes, Node.listed]) hjoined

end Dataflow
