/-
# What recorded components are given

A call binds one expression to each parameter, in the order of the parameters, of a type
that the parameter accepts. An operator is given its operands in order, under distinct
names, and runs an overload that accepts their kinds.
-/

import Dataflow.Proofs.Expr.Soundness
import Dataflow.Tracer

namespace Dataflow

namespace Operator

/-- The name of an operand past the fourth has its position in it. -/
theorem operandName_of_four_le {position : Nat} (hlarge : 4 ≤ position) :
    operandName position = "arg" ++ numeral position := by
  match position, hlarge with
  | position + 4, _ => rfl

theorem length_operandName {position : Nat} (hsmall : position < 4) :
    (operandName position).length = 1 := by
  match position, hsmall with
  | 0, _ | 1, _ | 2, _ | 3, _ => rfl

theorem one_lt_length_operandName {position : Nat} (hlarge : 4 ≤ position) :
    1 < (operandName position).length := by
  rw [operandName_of_four_le hlarge, String.length_append]
  have hlength : "arg".length = 3 := rfl
  omega

/-- Operands at different positions have different names. -/
theorem operandName_injective : Function.Injective operandName := by
  intro m n hequal
  have hlength := congrArg String.length hequal
  by_cases hm : m < 4 <;> by_cases hn : n < 4
  · have hletters : ∀ m < 4, ∀ n < 4, operandName m = operandName n → m = n := by decide
    exact hletters m hm n hn hequal
  · have hlong := one_lt_length_operandName (Nat.le_of_not_lt hn)
    rw [length_operandName hm] at hlength
    omega
  · have hlong := one_lt_length_operandName (Nat.le_of_not_lt hm)
    rw [length_operandName hn] at hlength
    omega
  · rw [operandName_of_four_le (Nat.le_of_not_lt hm), operandName_of_four_le (Nat.le_of_not_lt hn)]
      at hequal
    exact numeral_injective (String.append_right_inj "arg" |>.mp hequal)

/-- The operands of an operator have distinct names. -/
theorem nodup_operandNames (arity : Nat) : (operandNames arity).Nodup :=
  List.Nodup.map operandName_injective List.nodup_range

end Operator

/-- An input fits a parameter: it has its name, and an expression of a type that the
parameter accepts. -/
def Parameter.Takes (parameter : Parameter) (input : String × Expr) : Prop :=
  input.1 = parameter.name ∧
    ∃ found, input.2.infer = .ok found ∧ parameter.type.accepts found = true

namespace ComponentDef

variable {d : ComponentDef} {given bound inputs : Named Expr}

/-- A parameter is bound if it is given something of a type that it accepts and the parameters
after it are bound. -/
theorem bindAll_cons_eq_ok {parameter : Parameter} {rest : List Parameter} :
    d.bindAll given bound (parameter :: rest) = .ok inputs ↔
      ∃ e, (given.get? parameter.name).or (parameter.fallback.map .literal) = some e ∧
        parameter.Takes (parameter.name, e) ∧
          d.bindAll (given.erase parameter.name) (bound.insert parameter.name e) rest =
            .ok inputs := by
  rw [bindAll]
  cases hgiven : (given.get? parameter.name).or (parameter.fallback.map .literal) with
  | none => simp
  | some e =>
    cases htype : e.typeOf with
    | error fault =>
      have hnone : ¬ parameter.Takes (parameter.name, e) := by
        rintro ⟨-, found, hfound, -⟩
        cases htype.symm.trans (Expr.typeOf_eq_ok.mpr hfound)
      simp [htype, hnone]
    | ok found =>
      have htakes : parameter.Takes (parameter.name, e) ↔ parameter.type.accepts found = true := by
        simp [Parameter.Takes, Expr.typeOf_eq_ok.mp htype]
      by_cases haccepts : parameter.type.accepts found = true <;> simp [htype, htakes, haccepts]

/-- Binding adds one fitting input for each parameter, in order. -/
theorem exists_of_bindAll {parameters : List Parameter}
    (hbind : d.bindAll given bound parameters = .ok inputs)
    (hdistinct : (bound.names ++ parameters.map Parameter.name).Nodup) :
    ∃ added, inputs = ⟨bound.entries ++ added⟩ ∧
      List.Forall₂ Parameter.Takes parameters added := by
  induction parameters generalizing given bound with
  | nil =>
    rw [bindAll] at hbind
    exact ⟨[], by simp [← Except.ok.inj hbind], .nil⟩
  | cons parameter rest ih =>
    obtain ⟨e, -, htakes, hrest⟩ := bindAll_cons_eq_ok.mp hbind
    have hnew : parameter.name ∉ bound.names := fun hmem =>
      (List.nodup_append.mp hdistinct).2.2 _ hmem _ List.mem_cons_self rfl
    rw [Named.insert_eq_append e hnew] at hrest
    obtain ⟨added, rfl, hadded⟩ := ih hrest (by simpa [Named.names] using hdistinct)
    exact ⟨(parameter.name, e) :: added, by simp, .cons htakes hadded⟩

/-- A call with distinct parameter names has one fitting input for each parameter, in
order. -/
theorem takes_of_bind {arguments : List (String × Expr)} (hdistinct : (d.parameters.map Parameter.name).Nodup)
    (hbind : d.bind arguments = .ok inputs) :
    List.Forall₂ Parameter.Takes d.parameters inputs.entries := by
  unfold bind at hbind
  split at hbind
  · simp at hbind
  · obtain ⟨added, rfl, hadded⟩ := exists_of_bindAll hbind (by simpa [Named.names, Named.empty])
    simpa [Named.empty] using hadded

end ComponentDef

namespace Tracer

variable {t t' : Tracer}

theorem eq_of_recordAs {α : Type} {node : α → Node} {made a : α}
    (hrecord : t.recordAs node made = (.ok a, t')) : made = a := by
  unfold recordAs at hrecord
  split at hrecord
  · exact Except.ok.inj (congrArg Prod.fst hrecord)
  · cases hrecord

/-- The inputs of a called component are bound from the arguments. -/
theorem bind_of_call {d : ComponentDef} {arguments : List (String × Expr)} {c : Component}
    (hcall : t.call d arguments = (.ok c, t')) : d.bind arguments = .ok c.inputs := by
  unfold call at hcall
  split at hcall
  · cases hcall
  · cases hbind : d.bind arguments with
    | error fault => simp [hbind] at hcall
    | ok inputs =>
      simp only [hbind] at hcall
      rw [← eq_of_recordAs hcall]

/-- A component that applies an operator runs the selected overload and has the operands
as its inputs, in order. -/
theorem exists_of_apply {operator : Operator} {operands : List Expr} {c : Component}
    (happly : t.apply operator operands = (.ok c, t')) :
    ∃ overload, t.selectOverload operator operands = .ok overload ∧
      c.inputs = ⟨(Operator.operandNames operands.length).zip operands⟩ := by
  unfold apply at happly
  cases hselect : t.selectOverload operator operands with
  | error fault => simp [hselect] at happly
  | ok overload =>
    simp only [hselect] at happly
    refine ⟨overload, rfl, ?_⟩
    rw [← eq_of_recordAs happly]
    refine Named.ofList_eq_of_nodup ?_
    rw [List.map_fst_zip (by simp [Operator.operandNames])]
    exact Operator.nodup_operandNames operands.length

/-- A list of expressions that have types has them one by one. -/
theorem forall₂_of_mapM_typeOf {operands : List Expr} {types : List ValueType}
    (htypes : operands.mapM Expr.typeOf = .ok types) :
    List.Forall₂ (fun e type => e.infer = .ok type) operands types := by
  induction operands generalizing types with
  | nil =>
    rw [List.mapM_nil] at htypes
    rw [← Except.ok.inj htypes]
    exact .nil
  | cons e rest ih =>
    rw [List.mapM_cons] at htypes
    cases htype : e.typeOf with
    | error fault =>
      rw [htype] at htypes
      cases htypes
    | ok type =>
      cases hrest : rest.mapM Expr.typeOf with
      | error fault =>
        rw [htype, hrest] at htypes
        cases htypes
      | ok others =>
        rw [htype, hrest] at htypes
        rw [← Except.ok.inj htypes]
        exact .cons (Expr.typeOf_eq_ok.mp htype) (ih hrest)

/-- A selected overload accepts the kinds of the operands. -/
theorem exists_of_selectOverload {operator : Operator} {operands : List Expr}
    {overload : Overload} (hselect : t.selectOverload operator operands = .ok overload) :
    ∃ types, List.Forall₂ (fun e type => e.infer = .ok type) operands types ∧
      kindsAccepted overload.parameters (types.map ValueType.kind) = true := by
  unfold selectOverload at hselect
  cases htypes : operands.mapM Expr.typeOf with
  | error fault => simp [htypes] at hselect
  | ok types =>
    simp only [htypes, Registry.select] at hselect
    refine ⟨types, forall₂_of_mapM_typeOf htypes, ?_⟩
    split at hselect
    · rename_i found hfind
      rw [← Except.ok.inj hselect]
      unfold Registry.find? at hfind
      have haccepts := List.find?_some hfind
      exact haccepts
    · cases hselect

end Tracer

end Dataflow
