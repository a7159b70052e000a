/-
# Outputs of components

A component that is declared to return a record has one output for each declared field. In
the table of a successful run the record has the declared names in the declared order,
whatever names the backend gave, so a field is the same value by its name, by its position
and as an output.
-/

import Dataflow.Proofs.Run.Scopes

namespace Dataflow

/-- The fields of a validated schema have distinct names. -/
theorem RecordSchema.nodup_fieldNames {schema : RecordSchema}
    (hschema : make schema.name schema.fields = .ok schema) : schema.fieldNames.Nodup :=
  (ValueType.wellFormed_of_make hschema).nodup_fieldNames

/-- A component that returns a record has an output for each declared field. -/
theorem Component.outputs_of_returns {c : Component} {schema : RecordSchema}
    (hreturns : c.returns = .record schema) :
    c.outputs = .ok ((List.range schema.size).map fun position => .index c.expr position) := by
  unfold outputs
  rw [hreturns]

/-- A field of a record is read at its position and under its name, if the names are
distinct. -/
theorem Expr.resolve_item {table : ValueTable} {e : Expr} {items : List (String × Value)}
    (hrecord : e.resolve table = .ok (.record ⟨items⟩)) (hdistinct : (items.map Prod.fst).Nodup)
    {position : Nat} {name : String} {v : Value} (hitem : items[position]? = some (name, v)) :
    (Expr.index e position).resolve table = .ok v ∧ (Expr.field e name).resolve table = .ok v := by
  constructor
  · exact resolve_index_eq_ok.mpr ⟨⟨items⟩, name, hrecord, hitem⟩
  · have hfind := Named.find_eq_some_of_mem hdistinct (List.mem_of_getElem? hitem)
    exact resolve_field_eq_ok.mpr ⟨⟨items⟩, hrecord, hfind⟩

namespace Backend

variable {σ : Type} {backend : Backend σ} {p : Pipeline} {s : σ} {outcome : RunOutcome}
  {after : RunState σ}

/-- A component that is a child of the root stands in the table of the outcome as the
reconstruction of its raw result. -/
theorem exists_answered_of_run_eq_ok (ht : p.Traced)
    (hrun : backend.run p s = (.ok outcome, after)) {c : Component}
    (hc : .component c ∈ p.children) :
    ∃ raw v, (∀ other, backend.Answered p s (p.name ++ "/" ++ c.name) c other ↔ other = raw) ∧
      reconstruct c.name c.returns raw = .ok v ∧ outcome.resolve c.expr = .ok v := by
  obtain ⟨a, hended⟩ := exists_ended ht hrun
  rw [← hended.children] at hc
  obtain ⟨⟨_, value⟩, hmem, rfl⟩ := List.mem_map.mp hc
  cases value with
  | none =>
    obtain ⟨q, hq⟩ := hended.guarded _ hmem
    cases hq
  | some v =>
    have hget := hended.get?_values ht hmem
    cases hended.gives _ v hmem with
    | @component _ raw _ hanswered hvalue =>
      refine ⟨raw, v, fun other => ⟨fun hother => hother.unique ht hanswered, ?_⟩, hvalue, ?_⟩
      · rintro rfl
        exact hanswered
      · have hfound : outcome.values.get? c.name = some v := hget
        rw [RunOutcome.resolve, Component.expr, Component.ref, Expr.resolve, ValueTable.lookup,
          hfound]

/-- If a child of the root is a component that is declared to return a record, the backend
gave it a record with as many items. For every declared field, the field by its name, the
item at its position and the output at its position are in the outcome one value, the
reconstruction of the item of the raw record under the type of the field. -/
theorem outputs_of_run_eq_ok (ht : p.Traced) (hrun : backend.run p s = (.ok outcome, after))
    {c : Component} {schema : RecordSchema} (hc : .component c ∈ p.children)
    (hreturns : c.returns = .record schema)
    (hschema : RecordSchema.make schema.name schema.fields = .ok schema) :
    ∃ entries outputs,
      (∀ raw, backend.Answered p s (p.name ++ "/" ++ c.name) c raw ↔ raw = .record ⟨entries⟩) ∧
      entries.length = schema.size ∧ c.outputs = .ok outputs ∧ outputs.length = schema.size ∧
      ∀ position field type, schema.fieldAt? position = some (field, type) →
        ∃ name item output v, entries[position]? = some (name, item) ∧
          outputs[position]? = some output ∧ reconstruct c.name type item = .ok v ∧
          outcome.resolve (.index c.expr position) = .ok v ∧ outcome.resolve output = .ok v ∧
          outcome.resolve (.field c.expr field) = .ok v := by
  obtain ⟨raw, v, hanswered, hvalue, hresolve⟩ := exists_answered_of_run_eq_ok ht hrun hc
  rw [hreturns] at hvalue
  obtain ⟨entries, rebuilt, rfl, hlength, rfl, hnames, hitems⟩ :=
    exists_of_reconstruct_record hvalue
  have hdistinct : (rebuilt.map Prod.fst).Nodup := by
    rw [hnames]
    exact RecordSchema.nodup_fieldNames hschema
  rw [Named.ofList_eq_of_nodup hdistinct] at hresolve
  refine ⟨entries, _, hanswered, hlength, Component.outputs_of_returns hreturns, by simp, ?_⟩
  intro position field type hfield
  obtain ⟨name, item, w, hitem, hw, hrebuilt⟩ := hitems position field type hfield
  obtain ⟨hindex, hname⟩ := Expr.resolve_item hresolve hdistinct hrebuilt
  have hbound : position < schema.size := (List.getElem?_eq_some_iff.mp hfield).1
  exact ⟨name, item, .index c.expr position, w, hitem, by simp [hbound], hw, hindex, hindex, hname⟩

end Backend

namespace Crossed

/-- A schema whose fields have the names of the positions of each other. -/
def schema : RecordSchema := ⟨"Pair", [("1", .string), ("0", .integer)]⟩

/-- A component that is declared to return a record of this schema and gives a tuple. -/
def pair : Component where
  name := "pair"
  function := "pair"
  inputs := .empty
  returns := .record schema
  deployment := Settings.default.resolveDeployment .none
  body := some fun _ => .ok (.tuple [.string "first", .boolean true])

/-- The root pipeline. -/
def root : Pipeline := ⟨"main", .empty, [.component pair], none, none, none⟩

theorem root_traced : root.Traced := by
  refine ⟨Unit, .invoke ⟨"main", some "main", [], none⟩ [], fun _ => do
    let _ ← .call ⟨"pair", some "pair", [], some (.record schema), .none, pair.body⟩ []
    return none,
    .start { Settings.default with suffixLength := 0 } ⟨fun _ => 0, 0⟩, (), ?_⟩
  rfl

end Crossed

/-- The second item of a tuple is the second field, although this has the name of the first
position, and it is converted to the type of the field. -/
theorem outputs_of_run_eq_ok_crossed :
    Crossed.root.Traced ∧ .component Crossed.pair ∈ Crossed.root.children ∧
      Crossed.pair.returns = .record Crossed.schema ∧
      RecordSchema.make Crossed.schema.name Crossed.schema.fields = .ok Crossed.schema ∧
      ∃ outcome after, Backend.inProcess.run Crossed.root () = (.ok outcome, after) ∧
        outcome.resolve (.index Crossed.pair.expr 1) = .ok (.integer 1) ∧
        outcome.resolve (.field Crossed.pair.expr "0") = .ok (.integer 1) := by
  have hc : Node.component Crossed.pair ∈ Crossed.root.children := List.mem_cons_self
  obtain ⟨outcome, after, hrun, hvalue⟩ : ∃ outcome after,
      Backend.inProcess.run Crossed.root () = (.ok outcome, after) ∧
        outcome.resolve (.index Crossed.pair.expr 1) = .ok (.integer 1) := ⟨_, _, rfl, rfl⟩
  obtain ⟨entries, outputs, -, -, -, -, hitems⟩ :=
    Backend.outputs_of_run_eq_ok Crossed.root_traced hrun hc rfl rfl
  obtain ⟨name, item, output, v, -, -, -, hindex, -, hfield⟩ := hitems 1 "0" .integer rfl
  obtain rfl := Except.ok.inj (hvalue.symm.trans hindex)
  exact ⟨Crossed.root_traced, hc, rfl, rfl, outcome, after, hrun, hindex, hfield⟩

end Dataflow
