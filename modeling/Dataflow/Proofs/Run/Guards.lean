/-
# What guards compare

An ordering is made only of operands whose types have an order, and a run of a pipeline
that keeps to its types gives the operands values of these kinds. Still two numbers have no
order if one of them is not a number, and an ordering of such numbers is a violation that
is found while the pipeline runs. It is the only one: no other guard violates a rule, nor
does anything else in a run.
-/

import Dataflow.Proofs.Run.Order
import Dataflow.Proofs.Run.Soundness
import Dataflow.Proofs.Value.Order

namespace Dataflow

namespace Condition

variable {condition : Condition} {table : ValueTable}

/-- The condition was made of two expressions and a comparator. -/
def Made (condition : Condition) : Prop :=
  ∃ left right comparator, make left right comparator = .ok condition

/-- The operands of an ordering that was made have types with an order. -/
theorem Made.exists_orderable (h : condition.Made)
    (hordering : condition.comparator.isEquality = false) :
    ∃ left right, condition.left.infer = .ok left ∧ condition.right.infer = .ok right ∧
      left.kind.orderable right.kind = true := by
  obtain ⟨first, second, comparator, hmake⟩ := h
  unfold make at hmake
  split at hmake
  · cases hmake
  split at hmake
  · rename_i hequality
    cases hmake
    cases hequality.symm.trans hordering
  cases hleft : first.typeOf with
  | error fault => simp [hleft, bind, Except.bind] at hmake
  | ok left =>
    cases hright : second.typeOf with
    | error fault => simp [hleft, hright, bind, Except.bind] at hmake
    | ok right =>
      simp only [hleft, hright, bind, Except.bind] at hmake
      split at hmake
      · rename_i horderable
        cases hmake
        exact ⟨left, right, Expr.typeOf_eq_ok.mp hleft, Expr.typeOf_eq_ok.mp hright, horderable⟩
      · cases hmake

/-- If the condition is an ordering, the values of its operands are of kinds with an
order. -/
def OrderableIn (condition : Condition) (table : ValueTable) : Prop :=
  condition.comparator.isEquality = false → ∀ left right,
    condition.left.resolve table = .ok left → condition.right.resolve table = .ok right →
      left.kind.orderable right.kind = true

/-- The condition orders two values, one of which is not a number, and this is how it
violates the rules. -/
inductive OrdersNaN (condition : Condition) (table : ValueTable) : Violation → Prop where
  | intro {left right : Value} (hordering : condition.comparator.isEquality = false)
      (hleft : condition.left.resolve table = .ok left)
      (hright : condition.right.resolve table = .ok right)
      (hnan : left.isNaN = true ∨ right.isNaN = true) :
      OrdersNaN condition table (.unordered left.kind right.kind condition.comparator.symbol)

/-- A condition violates a rule exactly if its operands have values and their comparison
does. -/
theorem evaluate_eq_contract_iff {violation : Violation} :
    condition.evaluate table = .error (.contract violation) ↔
      ∃ left right, condition.left.resolve table = .ok left ∧
        condition.right.resolve table = .ok right ∧
        condition.comparator.evaluate left right = .error (.contract violation) := by
  rw [evaluate_eq]
  cases hleft : condition.left.resolve table with
  | error fault =>
    obtain ⟨name, rfl⟩ := Expr.exists_nameNotProduced_of_resolve _ hleft
    simp
  | ok left =>
    cases hright : condition.right.resolve table with
    | error fault =>
      obtain ⟨name, rfl⟩ := Expr.exists_nameNotProduced_of_resolve _ hright
      simp
    | ok right => simp

/-- Where its operands have values of kinds with an order, a condition violates a rule
exactly if it orders a value that is not a number. -/
theorem OrderableIn.evaluate_eq_contract_iff (h : condition.OrderableIn table)
    {violation : Violation} :
    condition.evaluate table = .error (.contract violation) ↔
      condition.OrdersNaN table violation := by
  rw [Condition.evaluate_eq_contract_iff]
  constructor
  · rintro ⟨left, right, hleft, hright, herror⟩
    obtain ⟨hordering, horder, rfl⟩ := Comparator.evaluate_eq_contract_iff.mp herror
    have horderable := h hordering left right hleft hright
    exact .intro hordering hleft hright ((Value.compare?_eq_none_iff horderable).mp horder)
  · rintro ⟨hordering, hleft, hright, hnan⟩
    have horder := (Value.compare?_eq_none_iff (h hordering _ _ hleft hright)).mpr hnan
    exact ⟨_, _, hleft, hright, Comparator.evaluate_eq_contract_iff.mpr ⟨hordering, horder, rfl⟩⟩

/-- Where its operands have values of kinds with an order, a condition has a verdict exactly
if it is an equality or neither value is a float that is not a number. -/
theorem OrderableIn.exists_evaluate_eq_ok (h : condition.OrderableIn table) {left right : Value}
    (hleft : condition.left.resolve table = .ok left)
    (hright : condition.right.resolve table = .ok right) :
    (∃ verdict, condition.evaluate table = .ok verdict) ↔
      condition.comparator.isEquality = true ∨ left.isNaN = false ∧ right.isNaN = false := by
  simp only [evaluate_eq, hleft, hright]
  cases hequality : condition.comparator.isEquality with
  | true =>
    simpa using Comparator.exists_evaluate_eq_ok_of_isEquality hequality left right
  | false =>
    have horder := Value.compare?_eq_none_iff (h hequality left right hleft hright)
    rw [Comparator.evaluate_of_isEquality_eq_false hequality]
    cases hcompare : left.compare? right with
    | some order =>
      rw [hcompare] at horder
      simpa using horder
    | none =>
      rcases horder.mp hcompare with hnan | hnan <;> simp [hnan]

end Condition

theorem Expr.exists_nameNotProduced_of_resolveOption {table : ValueTable} {returned : Option Expr}
    {fault : GraphError} (herror : Expr.resolveOption table returned = .error fault) :
    ∃ name, fault = .nameNotProduced name := by
  cases returned with
  | none => cases herror
  | some e =>
    rw [resolveOption] at herror
    cases hresolve : e.resolve table with
    | ok v => simp [hresolve, Except.map] at herror
    | error found =>
      simp only [hresolve, Except.map, Except.error.injEq] at herror
      exact herror ▸ exists_nameNotProduced_of_resolve e hresolve

/-- A value that does not settle is not of the declared type. -/
theorem Pipeline.exists_output_of_settle {q : Pipeline} {value : Option Value}
    {fault : GraphError} (herror : q.settle value = .error fault) :
    ∃ declared produced, fault = .output q.name declared produced := by
  unfold settle at herror
  split at herror
  · cases herror
  · split at herror
    · exact exists_output_of_reconstruct _ _ herror
    · cases herror

/-- The guards of nested pipelines were made. -/
def Pipeline.MakesGuards (p : Pipeline) : Prop :=
  ∀ q, .pipeline q ∈ p.nodes → ∀ condition, q.condition = some condition → condition.Made

/-- At this moment the guard of the next node orders a value that is not a number. -/
inductive Moment.OrdersNaN {σ : Type} (m : Moment σ) : Violation → Prop where
  | intro {path : String} {q : Pipeline} {condition : Condition} {violation : Violation}
      (hmeets : m.Meets path (.pipeline q)) (hcondition : q.condition = some condition)
      (horders : condition.OrdersNaN (Stack.table m.stack) violation) : OrdersNaN m violation

namespace Backend

variable {σ : Type} {backend : Backend σ} {p : Pipeline} {s : σ} {m : Moment σ}

theorem Reaches.mem_nodes_of_meets {path : String} {node : Node} (hreach : backend.Reaches p s m)
    (hmeets : m.Meets path node) : node ∈ p.nodes :=
  Pipeline.mem_nodes_of_mem_placed (hreach.mem_placed_of_meets hmeets)

/-- During a run, the operands of every guard have values of kinds with an order. -/
theorem Reaches.orderableIn (hreach : backend.Reaches p s m) (ht : p.Traced)
    (hp : p.Unambiguous) (hw : p.WellFormed) (hd : p.DeclaresTypes) (hg : p.MakesGuards)
    {q : Pipeline} (hq : .pipeline q ∈ p.nodes) {condition : Condition}
    (hcondition : q.condition = some condition) :
    condition.OrderableIn (Stack.table m.stack) := by
  intro hordering left right hleft hright
  obtain ⟨leftType, rightType, hleftType, hrightType, horderable⟩ :=
    (hg q hq condition hcondition).exists_orderable hordering
  have hoperands : (Node.pipeline q).operands = [condition.left, condition.right] :=
    Node.operands_of_guard_eq_some hcondition
  have hkind : ∀ e ∈ (Node.pipeline q).operands, ∀ v type, e.resolve (Stack.table m.stack) = .ok v →
      e.infer = .ok type → v.kind = type.kind := by
    intro e he v type hresolve hinfer
    have hexpr : e ∈ p.exprs :=
      Pipeline.mem_exprs_of_mem_nodes hq (List.mem_append_left _ (List.mem_append_right _ he))
    have htyped := hreach.openIn.typedIn_of_mem_exprs hp (hreach.typed ht hp hw hd) hexpr
    have hshape := Expr.shape_type_of_resolve e (hw e hexpr) htyped hresolve hinfer
    rw [← Value.kind_type]
    exact ValueType.kind_eq_of_shape_eq hshape
  rw [hkind condition.left (by simp [hoperands]) left leftType hleft hleftType,
    hkind condition.right (by simp [hoperands]) right rightType hright hrightType]
  exact horderable

/-- What a component gives fails with an error of the backend or of its output. -/
theorem ne_contract_of_execute (hb : backend.FailsOwn) {c : Component} {inputs : Inputs}
    {state after : RunState σ} {violation : Violation} :
    backend.execute c inputs state ≠ (.error (.contract violation), after) := by
  intro hrun
  unfold execute at hrun
  rcases hanswer : backend.runComponent c inputs state.backend with ⟨answer, final⟩
  rw [hanswer] at hrun
  cases answer with
  | error fault =>
    obtain ⟨name, cause, rfl⟩ := hb c inputs state.backend fault final hanswer
    cases hrun
  | ok raw =>
    obtain ⟨declared, produced, hfault⟩ :=
      exists_output_of_reconstruct c.returns raw (congrArg Prod.fst hrun)
    cases hfault

/-- A moment that violates a rule orders a value that is not a number. -/
theorem Fails.ordersNaN {violation : Violation} {after : RunState σ}
    (h : backend.Fails m (.contract violation) after) (hreach : backend.Reaches p s m)
    (ht : p.Traced) (hp : p.Unambiguous) (hw : p.WellFormed) (hd : p.DeclaresTypes)
    (hg : p.MakesGuards) (hb : backend.FailsOwn) : m.OrdersNaN violation := by
  cases h with
  | input hnext hinputs =>
    obtain ⟨name, hname⟩ := Expr.exists_nameNotProduced_of_resolveAll hinputs
    cases hname
  | @guard a outer state q rest _ hnext hguard =>
    obtain ⟨condition, hcondition, herror⟩ := Condition.exists_of_holds_eq_error hguard
    have hmeets : Moment.Meets ⟨a :: outer, after⟩ (a.pathOf (.pipeline q)) (.pipeline q) :=
      Moment.meets_of_next hnext
    have horderable :=
      hreach.orderableIn ht hp hw hd hg (hreach.mem_nodes_of_meets hmeets) hcondition
    exact .intro hmeets hcondition (horderable.evaluate_eq_contract_iff.mp herror)
  | run hnext hinputs hrun => exact absurd hrun (ne_contract_of_execute hb)
  | result hdone hvalue =>
    obtain ⟨name, hname⟩ := Expr.exists_nameNotProduced_of_resolveOption hvalue
    cases hname
  | settle hdone hvalue hsettle =>
    obtain ⟨declared, produced, hfault⟩ := Pipeline.exists_output_of_settle hsettle
    cases hfault

/-- A run whose next node is guarded by an ordering of a value that is not a number ends
there, with this violation. -/
theorem Reaches.run_eq_contract {path : String} {q : Pipeline} {condition : Condition}
    {inputs : Inputs} {violation : Violation} (hreach : backend.Reaches p s m)
    (hmeets : m.Meets path (.pipeline q)) (hcondition : q.condition = some condition)
    (hinputs : Expr.resolveAll (Stack.table m.stack) q.inputs = .ok inputs)
    (herror : condition.evaluate (Stack.table m.stack) = .error (.contract violation)) :
    (backend.run p s).1 = .error (.contract violation) :=
  hreach.run_eq_error_of_guard hmeets hcondition hinputs herror

/-- A run of a traced and unambiguous pipeline with valid types and guards fails because a
name has no value, because an output is not of its type, or because the backend does; but
for one case, a guard that orders a value that is not a number. A run that comes to such a
guard ends there with a violation. Every other guard whose operands have values has a
verdict. -/
theorem contract_only_ordersNaN (ht : p.Traced) (hp : p.Unambiguous) (hw : p.WellFormed)
    (hd : p.DeclaresTypes) (hg : p.MakesGuards) (hb : backend.FailsOwn) :
    (∀ fault, (backend.run p s).1 = .error fault →
      (∃ name, fault = .nameNotProduced name) ∨
      (∃ owner declared produced, fault = .output owner declared produced) ∨
      (∃ name cause, fault = .backend name cause) ∨
      ∃ m violation, backend.Reaches p s m ∧ m.OrdersNaN violation ∧
        fault = .contract violation) ∧
    (∀ m, backend.Reaches p s m → ∀ path q condition inputs violation,
      m.Meets path (.pipeline q) → q.condition = some condition →
      Expr.resolveAll (Stack.table m.stack) q.inputs = .ok inputs →
        condition.OrdersNaN (Stack.table m.stack) violation →
          (backend.run p s).1 = .error (.contract violation)) ∧
    ∀ m, backend.Reaches p s m → ∀ q, .pipeline q ∈ p.nodes →
      ∀ condition, q.condition = some condition →
      ∀ left right, condition.left.resolve (Stack.table m.stack) = .ok left →
        condition.right.resolve (Stack.table m.stack) = .ok right →
        ((∃ verdict, condition.evaluate (Stack.table m.stack) = .ok verdict) ↔
          condition.comparator.isEquality = true ∨ left.isNaN = false ∧ right.isNaN = false) := by
  refine ⟨?_, ?_, ?_⟩
  · intro fault herror
    have hrun : backend.run p s = (.error fault, (backend.run p s).2) := Prod.ext herror rfl
    rcases exists_fails_of_run_eq_error hrun with ⟨hinputs, -⟩ | ⟨m, hreach, hfails⟩
    · obtain ⟨e, -, hresolve⟩ := Expr.exists_of_resolveAll_eq_error hinputs
      exact .inl (Expr.exists_nameNotProduced_of_resolve e hresolve)
    · cases hfails.cause hreach ht hp hw hd hb with
      | missing _ hresolve _ => exact .inl (Expr.exists_nameNotProduced_of_resolve _ hresolve)
      | output _ _ _ => exact .inr (.inl ⟨_, _, _, rfl⟩)
      | backend => exact .inr (.inr (.inl ⟨_, _, rfl⟩))
      | contract =>
        exact .inr (.inr (.inr ⟨m, _, hreach, hfails.ordersNaN hreach ht hp hw hd hg hb, rfl⟩))
  · intro m hreach path q condition inputs violation hmeets hcondition hinputs horders
    have horderable :=
      hreach.orderableIn ht hp hw hd hg (hreach.mem_nodes_of_meets hmeets) hcondition
    exact hreach.run_eq_contract hmeets hcondition hinputs
      (horderable.evaluate_eq_contract_iff.mpr horders)
  · intro m hreach q hq condition hcondition left right hleft hright
    exact (hreach.orderableIn ht hp hw hd hg hq hcondition).exists_evaluate_eq_ok hleft hright

end Backend

namespace Gauge

/-- A component that gives a number. -/
def reading (x : Binary64) : Component where
  name := "reading"
  function := "reading"
  inputs := .empty
  returns := .float
  deployment := Settings.default.resolveDeployment .none
  body := some fun _ => .ok (.float x)

/-- The number one. -/
def one : Binary64 := .ofBits 0x3ff0000000000000

/-- The number is less than one. -/
def guard (x : Binary64) : Condition := ⟨(reading x).expr, .literal (.float one), .less⟩

/-- A pipeline with this guard. -/
def low (x : Binary64) : Pipeline := ⟨"condition", .empty, [], none, none, some (guard x)⟩

/-- The root pipeline. -/
def root (x : Binary64) : Pipeline :=
  ⟨"main", .empty, [.component (reading x), .pipeline (low x)], none, none, none⟩

/-- The moment at which the guard is evaluated. -/
def moment (x : Binary64) : Moment Unit :=
  ⟨[⟨"main", root x, .empty, [(.component (reading x), some (.float x))], [.pipeline (low x)]⟩],
    (⟨[], ()⟩ : RunState Unit).note "main/reading" .completed⟩

variable (x : Binary64)

theorem root_traced : (root x).Traced := by
  refine ⟨Unit, .invoke ⟨"main", some "main", [], none⟩ [], fun _ => do
    let reading ← .call ⟨"reading", some "reading", [], some .float, .none, (reading x).body⟩ []
    let _ ← .guardedBy reading.expr (.literal (.float one)) .less do
      return ()
    return none,
    .start { Settings.default with suffixLength := 0 } ⟨fun _ => 0, 0⟩, (), ?_⟩
  rfl

theorem root_unambiguous : (root x).Unambiguous := of_decide_eq_true rfl

theorem root_wellFormed : (root x).WellFormed := of_decide_eq_true rfl

theorem root_declaresTypes : (root x).DeclaresTypes :=
  Pipeline.declaresTypes_of_isScalar (of_decide_eq_true rfl)

theorem root_makesGuards : (root x).MakesGuards := by
  intro q hq condition hcondition
  have hlow : q = low x := by simpa [root, Pipeline.nodes, Node.listed, Node.inner, low] using hq
  subst hlow
  obtain rfl := Option.some.inj hcondition
  exact ⟨(reading x).expr, .literal (.float one), .less, rfl⟩

theorem reaches_moment : Backend.inProcess.Reaches (root x) () (moment x) := by
  have hstart : Backend.inProcess.Reaches (root x) ()
      ⟨[.opened "main" (root x) .empty], ⟨[], ()⟩⟩ := .start rfl
  exact hstart.move (.run rfl rfl rfl)

end Gauge

/-- The guard has a verdict if the reading is one, and the run ends with a violation if the
reading is not a number. -/
theorem contract_only_ordersNaN_gauge :
    (∀ x, (Gauge.root x).Traced ∧ (Gauge.root x).Unambiguous ∧ (Gauge.root x).WellFormed ∧
      (Gauge.root x).DeclaresTypes ∧ (Gauge.root x).MakesGuards) ∧ Backend.inProcess.FailsOwn ∧
    (∃ verdict, (Gauge.guard Gauge.one).evaluate (Stack.table (Gauge.moment Gauge.one).stack) =
      .ok verdict) ∧
    (Backend.inProcess.run (Gauge.root .nan) ()).1 =
      .error (.contract (.unordered .float .float "<")) := by
  have hroot : ∀ x, (Gauge.root x).Traced ∧ (Gauge.root x).Unambiguous ∧
      (Gauge.root x).WellFormed ∧ (Gauge.root x).DeclaresTypes ∧ (Gauge.root x).MakesGuards :=
    fun x => ⟨Gauge.root_traced x, Gauge.root_unambiguous x, Gauge.root_wellFormed x,
      Gauge.root_declaresTypes x, Gauge.root_makesGuards x⟩
  refine ⟨hroot, Backend.inProcess_failsOwn, ?_, ?_⟩
  · obtain ⟨ht, hp, hw, hd, hg⟩ := hroot Gauge.one
    obtain ⟨-, -, hverdicts⟩ := Backend.contract_only_ordersNaN (s := ()) ht hp hw hd hg
      Backend.inProcess_failsOwn
    have hlow : .pipeline (Gauge.low Gauge.one) ∈ (Gauge.root Gauge.one).nodes := by
      simp [Gauge.root, Pipeline.nodes, Node.listed, Node.inner]
    exact (hverdicts _ (Gauge.reaches_moment Gauge.one) _ hlow _ rfl (.float Gauge.one)
      (.float Gauge.one) rfl rfl).mpr (.inr ⟨by decide, by decide⟩)
  · obtain ⟨ht, hp, hw, hd, hg⟩ := hroot .nan
    obtain ⟨-, hviolates, -⟩ := Backend.contract_only_ordersNaN (s := ()) ht hp hw hd hg
      Backend.inProcess_failsOwn
    have hleft : (Gauge.guard .nan).left.resolve (Stack.table (Gauge.moment .nan).stack) =
        .ok (.float .nan) := rfl
    have hright : (Gauge.guard .nan).right.resolve (Stack.table (Gauge.moment .nan).stack) =
        .ok (.float Gauge.one) := rfl
    have horders : (Gauge.guard .nan).OrdersNaN (Stack.table (Gauge.moment .nan).stack)
        (.unordered .float .float "<") := .intro rfl hleft hright (.inl (by decide))
    exact hviolates _ (Gauge.reaches_moment .nan) _ _ _ _ _ (Moment.meets_of_next rfl) rfl rfl
      horders

/-- A traced pipeline can violate a rule while it runs: a reading that is not a number is
ordered by its guard. -/
theorem not_free_of_violations : ¬ ∀ (p : Pipeline), p.Traced → p.Unambiguous → p.WellFormed →
    p.DeclaresTypes → p.MakesGuards → ∀ (σ : Type) (backend : Backend σ) (s : σ),
      backend.FailsOwn → ∀ violation, (backend.run p s).1 ≠ .error (.contract violation) := by
  intro hall
  exact hall (Gauge.root .nan) (Gauge.root_traced .nan) (Gauge.root_unambiguous .nan)
    (Gauge.root_wellFormed .nan) (Gauge.root_declaresTypes .nan) (Gauge.root_makesGuards .nan)
    Unit Backend.inProcess () Backend.inProcess_failsOwn (.unordered .float .float "<") rfl

end Dataflow
