/-
# Operator nodes and overloads

An operator node stands for a call of an overload. It has one input for each operand, in order and
under distinct generated names, however many there are. Resolved inputs come out in the order in
which they went in, so what the node computes is what the overload gives for the resolved
operands. The overload is the first one, of those that were there when the operator was applied,
that accepts the kinds of the operands; the node is not touched by whatever is registered later.
-/

import Dataflow.Proofs.Expr.Reading
import Dataflow.Proofs.Tracer.Frames
import Dataflow.Proofs.Tracer.Recorded

namespace Dataflow

/-- The first of some overloads that accepts the kinds: it does, and none before it does. -/
def Overload.IsFirst (overload : Overload) (overloads : List Overload)
    (kinds : List ValueKind) : Prop :=
  overload.acceptsKinds kinds = true ∧
    ∃ earlier later, overloads = earlier ++ overload :: later ∧
      ∀ other ∈ earlier, other.acceptsKinds kinds = false

namespace Expr

variable {table : ValueTable} {operands : List Expr} {values : List Value}

/-- Expressions under names resolve to their values under these names. -/
theorem resolveFields_zip {names : List String} (hlength : names.length = operands.length)
    (hvalues : List.Forall₂ (fun e v => e.resolve table = .ok v) operands values) :
    resolveFields table (names.zip operands) = .ok (names.zip values) := by
  induction hvalues generalizing names with
  | nil =>
    rw [List.zip_nil_right, List.zip_nil_right]
    rfl
  | @cons e v operands values hv _ ih =>
    cases names with
    | nil => cases hlength
    | cons name names =>
      rw [List.zip_cons_cons, List.zip_cons_cons]
      exact resolveFields_cons_eq_ok.mpr
        ⟨v, names.zip values, hv, ih (Nat.succ.inj hlength), rfl⟩

/-- Expressions under distinct names resolve to inputs that hold their values in order. -/
theorem resolveAll_zip {names : List String} (hdistinct : names.Nodup)
    (hlength : names.length = operands.length)
    (hvalues : List.Forall₂ (fun e v => e.resolve table = .ok v) operands values) :
    resolveAll table ⟨names.zip operands⟩ = .ok ⟨names.zip values⟩ := by
  have hfst : ((names.zip values).map Prod.fst).Nodup := by
    rw [List.map_fst_zip (Nat.le_of_eq (hlength.trans hvalues.length_eq))]
    exact hdistinct
  rw [resolveAll_eq_ok]
  exact ⟨names.zip values, resolveFields_zip hlength hvalues, (Named.ofList_eq_of_nodup hfst).symm⟩

end Expr

theorem Operator.length_operandNames (arity : Nat) : (operandNames arity).length = arity := by
  simp [operandNames]

/-- What stands under as many names as there are items. -/
theorem Named.values_zip {α : Type} {names : List String} {items : List α}
    (hlength : names.length = items.length) : (⟨names.zip items⟩ : Named α).values = items :=
  List.map_snd_zip (Nat.le_of_eq hlength.symm)

namespace Tracer

variable {t t' : Tracer} {operator : Operator} {operands : List Expr} {c : Component}

/-- A selected overload is the first one that accepts the kinds of the operands. -/
theorem exists_isFirst_of_selectOverload {overload : Overload}
    (hselect : t.selectOverload operator operands = .ok overload) :
    ∃ types, List.Forall₂ (fun e type => e.infer = .ok type) operands types ∧
      overload.IsFirst (t.registry.overloads operator) (types.map ValueType.kind) := by
  unfold selectOverload at hselect
  cases htypes : operands.mapM Expr.typeOf with
  | error fault => simp [htypes] at hselect
  | ok types =>
    simp only [htypes, Registry.select] at hselect
    refine ⟨types, forall₂_of_mapM_typeOf htypes, ?_⟩
    split at hselect
    · rename_i found hfind
      obtain rfl := Except.ok.inj hselect
      obtain ⟨haccepts, earlier, later, hsplit, hearlier⟩ :=
        List.find?_eq_some_iff_append.mp hfind
      exact ⟨haccepts, earlier, later, hsplit, by simpa using hearlier⟩
    · cases hselect

/-- A component that applies an operator is made of the selected overload. -/
theorem exists_overload_of_apply (happly : t.apply operator operands = (.ok c, t')) :
    ∃ overload, t.selectOverload operator operands = .ok overload ∧
      c.returns = overload.returns ∧
      c.body = some fun inputs => overload.implementation inputs.values := by
  unfold apply at happly
  cases hselect : t.selectOverload operator operands with
  | error fault => simp [hselect] at happly
  | ok overload =>
    simp only [hselect] at happly
    rw [← eq_of_recordAs happly]
    exact ⟨overload, rfl, rfl, rfl⟩

/-- A node that applies an operator has the operands as its inputs, in order, and the type of the
first registered overload that accepts their kinds. Wherever the operands have values, so have the
inputs, and on these the node computes what the overload does on the values of the operands. And
whatever is done with the tracer afterwards, such as registering overloads, the node stays as it
is where it was recorded. -/
theorem apply_calls_first_overload (happly : t.apply operator operands = (.ok c, t')) :
    c.inputs.names = Operator.operandNames operands.length ∧ c.inputs.values = operands ∧
      (∃ (types : List ValueType) (overload : Overload),
        List.Forall₂ (fun e type => e.infer = .ok type) operands types ∧
        overload.IsFirst (t.registry.overloads operator) (types.map ValueType.kind) ∧
        c.returns = overload.returns ∧
        ∀ table values, List.Forall₂ (fun e v => e.resolve table = .ok v) operands values →
          ∃ inputs, Expr.resolveAll table c.inputs = .ok inputs ∧
            c.invoke inputs = overload.implementation values) ∧
      ∀ (σ α : Type) (script : Script σ α) (s : σ), ∃ added,
        (script.run t' s).2.1.frames = Frame.extend t.frames (.component c :: added) := by
  obtain ⟨overload, hselect, hreturns, hbody⟩ := exists_overload_of_apply happly
  obtain ⟨-, -, hinputs⟩ := exists_of_apply happly
  obtain ⟨types, htypes, hfirst⟩ := exists_isFirst_of_selectOverload hselect
  have hlength := Operator.length_operandNames operands.length
  refine ⟨?_, ?_, ⟨types, overload, htypes, hfirst, hreturns, ?_⟩, ?_⟩
  · rw [hinputs]
    exact List.map_fst_zip (Nat.le_of_eq hlength)
  · rw [hinputs]
    exact Named.values_zip hlength
  · intro table values hvalues
    have hresolved := Expr.resolveAll_zip (Operator.nodup_operandNames _) hlength hvalues
    refine ⟨_, hinputs ▸ hresolved, ?_⟩
    rw [Component.invoke, hbody]
    exact congrArg overload.implementation
      (Named.values_zip (hlength.trans hvalues.length_eq))
  · intro σ α script s
    have happends : t'.frames = Frame.extend t.frames [.component c] := by
      have happends := t.appends_apply operator operands
      rwa [happly] at happends
    obtain ⟨added, hframes, -⟩ := script.builds_run t' s
    exact ⟨added, by rw [hframes, happends, Frame.extend_extend]; rfl⟩

end Tracer

namespace Quintet

/-- An overload for five texts, which gives the last one. -/
def last : Overload where
  parameters := List.replicate 5 .string
  returns := .string
  implementation := fun operands => .ok (operands.getLastD Value.emptyRecord)

/-- An overload for five texts, which gives the first one. -/
def first : Overload :=
  { last with implementation := fun operands => .ok (operands.headD Value.emptyRecord) }

/-- A tracer with an open pipeline and an overload for five texts. -/
def opened : Tracer :=
  { (Tracer.start { Settings.default with suffixLength := 0 } ⟨fun _ => 0, 0⟩).push
      ⟨"main", .empty, [], none⟩ with
    registry := Builtin.registry.register .add last }

/-- Four texts and a node. -/
def operands : List Expr :=
  [.literal (.string "a"), .literal (.string "b"), .literal (.string "c"), .literal (.string "d"),
    .node ⟨"word", some .string⟩]

/-- The value of the node. -/
def table : ValueTable := ⟨[("word", .string "e")]⟩

end Quintet

/-- With five operands, of which the last has a generated name with a number in it, the node gives
what the overload gives for the fifth text, and it stays after another overload is registered. -/
theorem apply_calls_first_overload_fifth :
    ∃ c t', Quintet.opened.apply .add Quintet.operands = (.ok c, t') ∧
      c.inputs.values = Quintet.operands ∧
      (∃ inputs, Expr.resolveAll Quintet.table c.inputs = .ok inputs ∧
        c.invoke inputs = .ok (.string "e")) ∧
      ∃ added, ((Script.register .add Quintet.first).run t' ()).2.1.frames =
        Frame.extend Quintet.opened.frames (.component c :: added) := by
  have happly : Quintet.opened.apply .add Quintet.operands = (.ok _, _) := rfl
  obtain ⟨-, hvalues, ⟨types, overload, -, -, -, hcalls⟩, hstays⟩ :=
    Tracer.apply_calls_first_overload happly
  obtain ⟨inputs, hinputs, -⟩ := hcalls Quintet.table
    [.string "a", .string "b", .string "c", .string "d", .string "e"]
    (.cons rfl (.cons rfl (.cons rfl (.cons rfl (.cons rfl .nil)))))
  have hlast : inputs.values.getLastD Value.emptyRecord = .string "e" := by
    cases hinputs
    rfl
  exact ⟨_, _, happly, hvalues, ⟨inputs, hinputs, congrArg Except.ok hlast⟩, hstays _ _ _ _⟩

end Dataflow
