/-
# Pipelines as roots and as nodes

If what a backend answers depends on the component and its inputs alone, then a pipeline
that runs as a root finds the same values when it runs as a node of another one: the tables
are larger there, but what was found is found again. The two results differ in one step.
The value of a node is reconstructed under the declared type, and the value of a root is
what its return expression gives. So they are equal exactly if the latter is of the declared
type already.
-/

import Dataflow.Proofs.Run.Evaluation
import Dataflow.Proofs.Run.Soundness

namespace Dataflow

/-- An optional expression that is there has a value if the expression has one. -/
theorem Expr.resolveOption_some_eq_ok {table : ValueTable} {e : Expr} {value : Option Value} :
    Expr.resolveOption table (some e) = .ok value ↔
      ∃ v, e.resolve table = .ok v ∧ value = some v := by
  rw [resolveOption]
  cases e.resolve table <;> simp [Except.map, eq_comm]

namespace ValueTable

/-- Whatever stands in the table stands in the larger one under the same name. -/
def Within (table larger : ValueTable) : Prop :=
  ∀ name v, table.get? name = some v → larger.get? name = some v

variable {table larger : ValueTable}

theorem empty_within (larger : ValueTable) : Within .empty larger := nofun

theorem Within.insert (h : table.Within larger) (name : String) (v : Value) :
    Within (table.insert name v) (larger.insert name v) := by
  intro sought w hget
  by_cases hsame : sought = name
  · subst hsame
    rw [Named.get?_insert_self] at hget ⊢
    exact hget
  · rw [Named.get?_insert_of_ne _ v hsame] at hget ⊢
    exact h sought w hget

theorem Within.settle (h : table.Within larger) (name : String) (value : Option Value) :
    (table.settle name value).Within (larger.settle name value) := by
  cases value with
  | none => exact h
  | some v => exact h.insert name v

theorem Within.merge (h : table.Within larger) (inputs : Inputs) :
    Within (table.merge inputs) (larger.merge inputs) := by
  intro name v hget
  rw [Named.merge, Named.get?_insertAll, Option.or_eq_some_iff] at hget ⊢
  exact hget.imp_right (And.imp_right (h name v))

/-- An expression that has a value has it in a larger table. -/
theorem Within.resolve (h : table.Within larger) {e : Expr} {v : Value}
    (hresolve : e.resolve table = .ok v) : e.resolve larger = .ok v := by
  rw [← hresolve]
  refine (Expr.resolve_congr e fun ref href => ?_).symm
  obtain ⟨w, hget⟩ := Option.isSome_iff_exists.mp (Expr.isSome_get?_of_resolve e hresolve ref href)
  rw [hget, h ref.name w hget]

theorem Within.resolveAll (h : table.Within larger) {exprs : Named Expr} {inputs : Inputs}
    (hresolve : Expr.resolveAll table exprs = .ok inputs) :
    Expr.resolveAll larger exprs = .ok inputs := by
  obtain ⟨values, hvalues, rfl⟩ := Expr.resolveAll_eq_ok.mp hresolve
  refine Expr.resolveAll_eq_ok.mpr ⟨values, ?_, rfl⟩
  rw [← hvalues]
  refine (Expr.resolveFields_congr exprs.entries fun ref href => ?_).symm
  obtain ⟨w, hget⟩ := Option.isSome_iff_exists.mp
    (Expr.isSome_get?_of_resolveFields exprs.entries hvalues ref href)
  rw [hget, h ref.name w hget]

theorem Within.resolveOption (h : table.Within larger) {returned : Option Expr}
    {value : Option Value} (hresolve : Expr.resolveOption table returned = .ok value) :
    Expr.resolveOption larger returned = .ok value := by
  cases returned with
  | none => exact hresolve
  | some e =>
    obtain ⟨v, hv, rfl⟩ := Expr.resolveOption_some_eq_ok.mp hresolve
    exact Expr.resolveOption_some_eq_ok.mpr ⟨v, h.resolve hv, rfl⟩

theorem Within.holds (h : table.Within larger) {guard : Option Condition} {verdict : Bool}
    (hguard : Condition.holds table guard = .ok verdict) :
    Condition.holds larger guard = .ok verdict := by
  cases guard with
  | none => exact hguard
  | some condition =>
    rw [Condition.holds, Condition.evaluate_eq] at hguard ⊢
    cases hleft : condition.left.resolve table with
    | error fault => simp [hleft] at hguard
    | ok left =>
      cases hright : condition.right.resolve table with
      | error fault => simp [hleft, hright] at hguard
      | ok right =>
        simp only [hleft, hright] at hguard
        simp only [h.resolve hleft, h.resolve hright, hguard]

end ValueTable

namespace Backend

variable {σ : Type} {backend : Backend σ} {answer : Component → Inputs → Except GraphError Value}

mutual

/-- A node that gives a value gives it in a larger table, at every path and from every
state. -/
theorem Answers.runNode_of_within (hanswers : backend.Answers answer) :
    ∀ (node : Node) (path' : String) (state' : RunState σ) {path : String}
      {table larger : ValueTable} {state after : RunState σ} {value : Option Value},
      table.Within larger → backend.runNode node path table state = (.ok value, after) →
        ∃ after', backend.runNode node path' larger state' = (.ok value, after')
  | .component c, _, state', _, _, _, _, after, _, hwithin, hrun => by
    obtain ⟨inputs, v, hinputs, hexecute, rfl⟩ := runNode_component_eq_ok.mp hrun
    have hgives : ∃ after', backend.execute c inputs state' = (.ok v, after') :=
      hanswers.execute_eq_ok.mpr (hanswers.execute_eq_ok.mp ⟨after, hexecute⟩)
    obtain ⟨after', hexecute'⟩ := hgives
    exact ⟨after', runNode_component_eq_ok.mpr
      ⟨inputs, v, hwithin.resolveAll hinputs, hexecute', rfl⟩⟩
  | .pipeline q, path', state', _, _, _, _, _, _, hwithin, hrun => by
    obtain ⟨inputs, hinputs, hentered⟩ := runNode_pipeline_eq_ok.mp hrun
    have hinputs' := hwithin.resolveAll hinputs
    rcases hentered with ⟨hguard, rfl, rfl⟩ | ⟨hguard, found, final, v, hinside, hvalue, rfl⟩
    · exact ⟨state', runNode_pipeline_eq_ok.mpr
        ⟨inputs, hinputs', .inl ⟨hwithin.holds hguard, rfl, rfl⟩⟩⟩
    · obtain ⟨final', after', -, hinside'⟩ :=
        hanswers.runPipeline_of_within q path' state' (hwithin.merge inputs) hinside
      exact ⟨after', runNode_pipeline_eq_ok.mpr ⟨inputs, hinputs',
        .inr ⟨hwithin.holds hguard, found, final', v, hinside', hvalue, rfl⟩⟩⟩

theorem Answers.runPipeline_of_within (hanswers : backend.Answers answer) :
    ∀ (q : Pipeline) (path' : String) (state' : RunState σ) {path : String}
      {table larger final : ValueTable} {state after : RunState σ} {value : Option Value},
      table.Within larger →
      backend.runPipeline q path table state = (.ok (value, final), after) →
        ∃ final' after', final.Within final' ∧
          backend.runPipeline q path' larger state' = (.ok (value, final'), after')
  | ⟨name, given, children, returnValue, returns, condition⟩, path', state', _, _, _, _, _, _, _,
    hwithin, hrun => by
    obtain ⟨hchildren, hvalue⟩ := runPipeline_eq_ok.mp hrun
    obtain ⟨final', after', hfinal, hchildren'⟩ :=
      hanswers.runChildren_of_within children path' state' hwithin hchildren
    exact ⟨final', after', hfinal, runPipeline_eq_ok.mpr ⟨hchildren', hfinal.resolveOption hvalue⟩⟩

/-- Nodes that run one after another do so in a larger table, and leave a larger one. -/
theorem Answers.runChildren_of_within (hanswers : backend.Answers answer) :
    ∀ (nodes : List Node) (path' : String) (state' : RunState σ) {path : String}
      {table larger final : ValueTable} {state after : RunState σ}, table.Within larger →
      backend.runChildren nodes path table state = (.ok final, after) →
        ∃ final' after', final.Within final' ∧
          backend.runChildren nodes path' larger state' = (.ok final', after')
  | [], _, state', _, _, larger, _, _, _, hwithin, hrun => by
    rw [runChildren, Prod.mk.injEq, Except.ok.injEq] at hrun
    obtain ⟨rfl, -⟩ := hrun
    exact ⟨larger, state', hwithin, by rw [runChildren]⟩
  | child :: rest, path', state', _, _, _, _, _, _, hwithin, hrun => by
    obtain ⟨value, between, hchild, hrest⟩ := runChildren_cons_eq_ok.mp hrun
    obtain ⟨between', hchild'⟩ :=
      hanswers.runNode_of_within child (path' ++ "/" ++ child.name) state' hwithin hchild
    obtain ⟨final', after', hfinal, hrest'⟩ := hanswers.runChildren_of_within rest path'
      (between'.note (path' ++ "/" ++ child.name) (.ofValue value))
      (hwithin.settle child.name value) hrest
    exact ⟨final', after', hfinal, runChildren_cons_eq_ok.mpr ⟨value, between', hchild', hrest'⟩⟩

end

theorem exists_value_of_run_eq_ok {p : Pipeline} {s : σ} {outcome : RunOutcome}
    {after : RunState σ} {e : Expr} (hreturn : p.returnValue = some e)
    (hrun : backend.run p s = (.ok outcome, after)) : ∃ v, outcome.value = some v := by
  obtain ⟨a, -, -, -, -, -, hresult⟩ := reaches_of_run_eq_ok hrun
  rw [hreturn] at hresult
  obtain ⟨v, -, hvalue⟩ := Expr.resolveOption_some_eq_ok.mp hresult
  exact ⟨v, hvalue⟩

/-- A root pipeline gives what its return value resolves to, and this is of the type that
is inferred for it. -/
theorem shape_type_of_run_eq_ok {p : Pipeline} {s : σ} {outcome : RunOutcome}
    {after : RunState σ} (ht : p.Traced) (hp : p.Unambiguous) (hw : p.WellFormed)
    (hd : p.DeclaresTypes) (hrun : backend.run p s = (.ok outcome, after)) {e : Expr}
    {found : ValueType} {v : Value} (hreturn : p.returnValue = some e)
    (hinfer : e.infer = .ok found) (hvalue : outcome.value = some v) :
    v.type.shape = found.shape := by
  obtain ⟨a, hreach, -, -, -, -, hresult⟩ := reaches_of_run_eq_ok hrun
  rw [hreturn, hvalue] at hresult
  obtain ⟨w, hresolve, hsame⟩ := Expr.resolveOption_some_eq_ok.mp hresult
  obtain rfl := Option.some.inj hsame
  have hexpr : e ∈ p.exprs :=
    List.mem_append_left _ (List.mem_append_right _ (by simp [hreturn]))
  have htyped := hreach.openIn.typedIn_of_mem_exprs hp (hreach.typed ht hp hw hd) hexpr
  exact Expr.shape_type_of_resolve e (hw e hexpr) htyped hresolve hinfer

/-- An unconditional pipeline that has run as a root, as the only node of another one that
returns it: the value there is what the value of the root settles to. -/
theorem Answers.settle_of_run (hanswers : backend.Answers answer) {q around : Pipeline}
    (hcondition : q.condition = none) (hchildren : around.children = [.pipeline q])
    (hreturn : around.returnValue = some q.expr) {s s' : σ} {root nested : RunOutcome}
    {after after' : RunState σ} (hroot : backend.run q s = (.ok root, after))
    (hnested : backend.run around s' = (.ok nested, after')) :
    ∃ w, q.settle root.value = .ok w ∧ nested.value = some w := by
  obtain ⟨inputs, hinputs, hinside, -⟩ := run_eq_ok.mp hroot
  obtain ⟨given, -, haround, -⟩ := run_eq_ok.mp hnested
  obtain ⟨hnodes, hvalue⟩ := runPipeline_eq_ok.mp haround
  rw [hchildren] at hnodes
  obtain ⟨value, between, hnode, hrest⟩ := runChildren_cons_eq_ok.mp hnodes
  rw [runChildren, Prod.mk.injEq, Except.ok.injEq] at hrest
  obtain ⟨inputs', hinputs', hentered⟩ := runNode_pipeline_eq_ok.mp hnode
  obtain rfl : inputs = inputs' := Except.ok.inj
    (((ValueTable.empty_within _).resolveAll hinputs).symm.trans hinputs')
  have hholds : ∀ table, Condition.holds table q.condition = .ok true := by
    intro table
    rw [hcondition, Condition.holds]
  rcases hentered with ⟨hguard, -, -⟩ | ⟨-, found, final, w, hinside', hsettle, rfl⟩
  · cases (hholds _).symm.trans hguard
  · -- The larger table around the node gives its body no other values.
    obtain ⟨final', after'', -, hagain⟩ := hanswers.runPipeline_of_within q _ _
      ((ValueTable.empty_within _).merge inputs) hinside
    obtain rfl : root.value = found := by
      obtain ⟨hsame, -⟩ := Prod.mk.inj (hagain.symm.trans hinside')
      exact (Prod.mk.inj (Except.ok.inj hsame)).1
    rw [hreturn, ← hrest.1] at hvalue
    obtain ⟨held, hread, hvalue⟩ := Expr.resolveOption_some_eq_ok.mp hvalue
    have hlookup : q.expr.resolve (Named.insert (Named.merge .empty given) q.name w) = .ok w := by
      rw [Pipeline.expr, Expr.resolve, ValueTable.lookup, Pipeline.ref, Named.get?_insert_self]
    obtain rfl : w = held := Except.ok.inj (hlookup.symm.trans hread)
    exact ⟨w, hsettle, hvalue⟩

/-- An unconditional traced pipeline with a valid type runs as a root and as the only node of
another pipeline that returns it. The value of the node is the value of the root,
reconstructed under the type, and so it is of the type. The two values are equal exactly if
that of the root is of the type already; if the pipeline is unambiguous and keeps to its
types, this is so exactly if its return value is inferred to be of the type. -/
theorem run_nested_eq_reconstruct (hanswers : backend.Answers answer) {q around : Pipeline}
    {type : ValueType} (ht : q.Traced) (hcondition : q.condition = none)
    (hreturns : q.returns = some type) (htype : type.WellFormed)
    (hchildren : around.children = [.pipeline q]) (hreturn : around.returnValue = some q.expr)
    {s s' : σ} {root nested : RunOutcome} {after after' : RunState σ}
    (hroot : backend.run q s = (.ok root, after))
    (hnested : backend.run around s' = (.ok nested, after')) :
    ∃ v w, root.value = some v ∧ nested.value = some w ∧ reconstruct q.name type v = .ok w ∧
      w.type.shape = type.shape ∧ (v = w ↔ v.type.shape = type.shape) ∧
      (q.Unambiguous → q.WellFormed → q.DeclaresTypes → ∀ e found, q.returnValue = some e →
        e.infer = .ok found → (v = w ↔ found.shape = type.shape)) := by
  obtain ⟨w, hsettle, hw⟩ := hanswers.settle_of_run hcondition hchildren hreturn hroot hnested
  obtain ⟨v, hv⟩ : ∃ v, root.value = some v := by
    have hchecked := ht.checked (.inl rfl)
    rw [Pipeline.Checked, hreturns] at hchecked
    obtain ⟨e, -, he, -⟩ := hchecked
    exact exists_value_of_run_eq_ok he hroot
  have hreconstruct : reconstruct q.name type v = .ok w := by
    rw [hv, Pipeline.settle, hreturns] at hsettle
    exact hsettle
  have hshape := shape_type_of_reconstruct type v htype hreconstruct
  have hequal : v = w ↔ v.type.shape = type.shape := by
    constructor
    · rintro rfl
      exact hshape
    · intro hsame
      exact Except.ok.inj ((reconstruct_eq_self type v htype hsame).symm.trans hreconstruct)
  refine ⟨v, w, hv, hw, hreconstruct, hshape, hequal, ?_⟩
  intro hp hwell hd e found he hinfer
  rw [hequal, shape_type_of_run_eq_ok ht hp hwell hd hroot he hinfer hv]

end Backend

namespace Tally

/-- A component that gives a truth value. -/
def flag : Component where
  name := "flag"
  function := "flag"
  inputs := .empty
  returns := .boolean
  deployment := Settings.default.resolveDeployment .none
  body := some fun _ => .ok (.boolean true)

/-- A pipeline that returns the truth value as a value of some type. -/
def count (declared : ValueType) : Pipeline :=
  ⟨"count", .empty, [.component flag], some flag.expr, some declared, none⟩

/-- A pipeline that returns what the other one gives. -/
def around (declared : ValueType) : Pipeline :=
  ⟨"main", .empty, [.pipeline (count declared)], some (count declared).expr, some declared, none⟩

theorem count_traced {declared : ValueType} (h : declared = .integer ∨ declared = .boolean) :
    (count declared).Traced := by
  refine ⟨Unit, .invoke ⟨"count", some "count", [], some declared⟩ [], fun _ => do
    let flag ← .call ⟨"flag", some "flag", [], some .boolean, .none, flag.body⟩ []
    return some flag.expr,
    .start { Settings.default with suffixLength := 0 } ⟨fun _ => 0, 0⟩, (), ?_⟩
  rcases h with rfl | rfl <;> rfl

theorem around_traced : (around .integer).Traced := by
  refine ⟨Unit, .invoke ⟨"main", some "main", [], none⟩ [], fun _ => do
    let count ← .nest (.invoke ⟨"count", some "count", [], some .integer⟩ []) fun _ => do
      let flag ← .call ⟨"flag", some "flag", [], some .boolean, .none, flag.body⟩ []
      return some flag.expr
    return some count.expr,
    .start { Settings.default with suffixLength := 0 } ⟨fun _ => 0, 0⟩, (), ?_⟩
  rfl

theorem count_declaresTypes {declared : ValueType} (h : declared = .integer ∨ declared = .boolean) :
    (count declared).DeclaresTypes := by
  rcases h with rfl | rfl <;> exact Pipeline.declaresTypes_of_isScalar (by decide)

end Tally

theorem Backend.inProcess_answers : Backend.inProcess.Answers
    fun c inputs => (Backend.inProcess.runComponent c inputs ()).1 := fun _ _ _ => rfl

/-- A pipeline that is declared to return a truth value gives the same as a root and as a
node. -/
theorem run_nested_eq_reconstruct_boolean :
    (Tally.count .boolean).Traced ∧ (Tally.count .boolean).Unambiguous ∧
      (Tally.count .boolean).WellFormed ∧ (Tally.count .boolean).DeclaresTypes ∧
      ValueType.boolean.WellFormed ∧
      ∃ root after nested after' v w,
        Backend.inProcess.run (Tally.count .boolean) () = (.ok root, after) ∧
        Backend.inProcess.run (Tally.around .boolean) () = (.ok nested, after') ∧
        root.value = some v ∧ nested.value = some w ∧ v = w ∧
        w.type.shape = ValueType.boolean.shape := by
  have ht := Tally.count_traced (.inr rfl)
  have hp : (Tally.count .boolean).Unambiguous := by decide
  have hw : (Tally.count .boolean).WellFormed := by decide
  have hd := Tally.count_declaresTypes (.inr rfl)
  have hruns : ∃ root after nested after',
      Backend.inProcess.run (Tally.count .boolean) () = (.ok root, after) ∧
        Backend.inProcess.run (Tally.around .boolean) () = (.ok nested, after') :=
    ⟨_, _, _, _, rfl, rfl⟩
  obtain ⟨root, after, nested, after', hroot, hnested⟩ := hruns
  obtain ⟨v, w, hv, hvalue, -, hshape, -, hinferred⟩ :=
    Backend.run_nested_eq_reconstruct Backend.inProcess_answers ht rfl rfl (by decide) rfl rfl
      hroot hnested
  have hequal := (hinferred hp hw hd _ .boolean rfl rfl).mpr rfl
  exact ⟨ht, hp, hw, hd, by decide, root, after, nested, after', v, w, hroot, hnested, hv, hvalue,
    hequal, hshape⟩

/-- The value of a traced pipeline can depend on whether it is the root: a truth value that
is declared to be an integer is one as the value of a node only. -/
theorem not_same_nested : ¬ ∀ (q around : Pipeline) (type : ValueType), q.Traced →
    around.Traced → q.Unambiguous → q.WellFormed → q.DeclaresTypes → q.condition = none →
    q.returns = some type → type.Declarable → around.children = [.pipeline q] →
    around.returnValue = some q.expr →
    ∀ (σ : Type) (backend : Backend σ) (answer : Component → Inputs → Except GraphError Value),
      backend.Answers answer → ∀ (s s' : σ) (root nested : RunOutcome) (after after' : RunState σ),
        backend.run q s = (.ok root, after) → backend.run around s' = (.ok nested, after') →
          root.value = nested.value := by
  intro hall
  have hruns : ∃ root after nested after',
      Backend.inProcess.run (Tally.count .integer) () = (.ok root, after) ∧
        Backend.inProcess.run (Tally.around .integer) () = (.ok nested, after') ∧
        root.value = some (.boolean true) ∧ nested.value = some (.integer 1) :=
    ⟨_, _, _, _, rfl, rfl, rfl, rfl⟩
  obtain ⟨root, after, nested, after', hroot, hnested, hv, hw⟩ := hruns
  have hsame := hall (Tally.count .integer) (Tally.around .integer) .integer
    (Tally.count_traced (.inl rfl)) Tally.around_traced (by decide) (by decide)
    (Tally.count_declaresTypes (.inl rfl)) rfl rfl (ValueType.declarable_of_isScalar rfl) rfl rfl
    Unit Backend.inProcess _ Backend.inProcess_answers () () root nested after after' hroot hnested
  rw [hv, hw] at hsame
  cases hsame

end Dataflow
