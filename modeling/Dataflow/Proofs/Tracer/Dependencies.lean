/-
# Guards of dependency scopes

A dependency scope waits for expressions that read nodes. Its guard says that what it waits
for, the only expression or a tuple of all of them, differs from a text that ends in random
digits. So the guard has no value before all of them have one, and then it is true: a tuple is
never equal to a text, and a single value is so only if it is this very text.
-/

import Dataflow.Proofs.Condition
import Dataflow.Proofs.Tracer.Frames
import Dataflow.Proofs.Tracer.Recorded

namespace Dataflow

/-- Nothing but a text is loosely equal to it. -/
theorem Value.looselyEquals_string (v : Value) (text : String) :
    v.looselyEquals (.string text) = decide (v = .string text) := by
  cases v with
  | string found =>
    rw [looselyEquals, Bool.beq_eq_decide_eq]
    simp
  | boolean | integer | float | record => simp [looselyEquals, asInteger?, asFloat?]

namespace Expr

variable {table : ValueTable}

/-- Expressions under names have values exactly if each of them has one. -/
theorem exists_resolveFields_eq_ok {fields : List (String × Expr)} :
    (∃ values, resolveFields table fields = .ok values) ↔
      ∀ e ∈ fields.map Prod.snd, ∃ v, e.resolve table = .ok v := by
  induction fields with
  | nil => simp [resolveFields]
  | cons field rest ih =>
    obtain ⟨name, e⟩ := field
    rw [List.map_cons, List.forall_mem_cons, ← ih]
    constructor
    · rintro ⟨values, hvalues⟩
      obtain ⟨v, others, hv, hothers, -⟩ := resolveFields_cons_eq_ok.mp hvalues
      exact ⟨⟨v, hv⟩, others, hothers⟩
    · rintro ⟨⟨v, hv⟩, others, hothers⟩
      exact ⟨_, resolveFields_cons_eq_ok.mpr ⟨v, others, hv, hothers, rfl⟩⟩

/-- A tuple has a value exactly if each of its items has one, and this is a record. -/
theorem exists_resolve_tuple_eq_ok {items : List Expr} :
    (∃ v, (tuple items).resolve table = .ok v) ↔ ∀ e ∈ items, ∃ v, e.resolve table = .ok v := by
  rw [tuple, Named.positional_eq]
  constructor
  · rintro ⟨v, hv⟩
    obtain ⟨values, hvalues, -⟩ := resolve_record_eq_ok.mp hv
    simpa using exists_resolveFields_eq_ok.mp ⟨values, hvalues⟩
  · intro hall
    obtain ⟨values, hvalues⟩ := exists_resolveFields_eq_ok.mpr
      (by simpa using hall : ∀ e ∈ (Named.numbered items).map Prod.snd, _)
    exact ⟨_, resolve_record_eq_ok.mpr ⟨values, hvalues, rfl⟩⟩

theorem resolve_tuple_ne_string {items : List Expr} (text : String) :
    (tuple items).resolve table ≠ .ok (.string text) := by
  intro hv
  rw [tuple, Named.positional_eq] at hv
  obtain ⟨values, -, hvalue⟩ := resolve_record_eq_ok.mp hv
  cases hvalue

theorem anyDeferred_eq_any (fields : List (String × Expr)) :
    anyDeferred fields = fields.any fun field => field.2.isDeferred := by
  induction fields with
  | nil => rfl
  | cons field rest ih => rw [anyDeferred, ih, List.any_cons]

/-- A tuple reads a node if one of its items does. -/
theorem isDeferred_tuple {items : List Expr} {e : Expr} (he : e ∈ items)
    (hdeferred : e.isDeferred = true) : (tuple items).isDeferred = true := by
  rw [tuple, Named.positional_eq, isDeferred, anyDeferred_eq_any, List.any_eq_true]
  rw [← Named.map_snd_numbered items] at he
  obtain ⟨field, hfield, rfl⟩ := List.mem_map.mp he
  exact ⟨field, hfield, hdeferred⟩

end Expr

/-- The guard waits for these expressions, which it compares with a text: it is true once all
of them have values, unless there is only one and it has this text for its value, and it misses
a name while one of them has none. -/
structure Condition.Awaits (condition : Condition) (dependencies : List Expr)
    (witness : String) : Prop where
  /-- Where all expressions have values, the guard is true, but for a single one with the
  text. -/
  holds : ∀ table, (∀ e ∈ dependencies, ∃ v, e.resolve table = .ok v) →
    (∀ e, dependencies = [e] → e.resolve table ≠ .ok (.string witness)) →
      condition.evaluate table = .ok true
  /-- Where the text is the value of a single expression, the guard is false. -/
  clashes : ∀ table e, dependencies = [e] → e.resolve table = .ok (.string witness) →
    condition.evaluate table = .ok false
  /-- Where an expression has no value, the guard has none, for want of a name. -/
  missing : ∀ table, ∀ e ∈ dependencies, ∀ fault, e.resolve table = .error fault →
    ∃ name, condition.evaluate table = .error (.nameNotProduced name)

/-- Where no dependency has the text for its value, the guard is true with all of them there,
or it misses a name. -/
theorem Condition.Awaits.cases_of_ne {condition : Condition} {dependencies : List Expr}
    {witness : String} (h : condition.Awaits dependencies witness) {table : ValueTable}
    (hother : ∀ e ∈ dependencies, e.resolve table ≠ .ok (.string witness)) :
    ((∀ e ∈ dependencies, ∃ v, e.resolve table = .ok v) ∧ condition.evaluate table = .ok true) ∨
      ∃ name, condition.evaluate table = .error (.nameNotProduced name) := by
  by_cases hall : ∀ e ∈ dependencies, ∃ v, e.resolve table = .ok v
  · exact .inl ⟨hall, h.holds table hall fun e hsingle => hother e (by simp [hsingle])⟩
  · simp only [not_forall, not_exists] at hall
    obtain ⟨e, he, hmissing⟩ := hall
    cases hresolve : e.resolve table with
    | ok v => exact absurd hresolve (hmissing v)
    | error fault => exact .inr (h.missing table e he fault hresolve)

namespace Tracer

/-- The text that the next dependency scope compares its dependencies with. -/
def witness (t : Tracer) : String := "witness-" ++ (t.entropy.suffix witnessLength).1

/-- A scope waits for an expression that has a value exactly if all dependencies have one, and
that is a text only if there is one dependency. -/
theorem exists_dependencyOf {dependencies : List Expr} (hsome : dependencies ≠ [])
    (hdeferred : ∀ e ∈ dependencies, e.isDeferred = true) :
    ∃ awaited, dependencyOf dependencies = .ok awaited ∧ awaited.isDeferred = true ∧
      ∀ table, ((∃ v, awaited.resolve table = .ok v) ↔
          ∀ e ∈ dependencies, ∃ v, e.resolve table = .ok v) ∧
        ∀ text, awaited.resolve table = .ok (.string text) ↔
          ∃ e, dependencies = [e] ∧ e.resolve table = .ok (.string text) := by
  have hnone : (dependencies.find? fun e => !e.isDeferred) = none := by
    rw [List.find?_eq_none]
    intro e he
    simp [hdeferred e he]
  cases dependencies with
  | nil => exact absurd rfl hsome
  | cons first rest =>
    have hfirst := hdeferred first List.mem_cons_self
    unfold dependencyOf
    simp only [hnone]
    cases rest with
    | nil => exact ⟨first, rfl, hfirst, fun table => ⟨by simp, by simp⟩⟩
    | cons second others =>
      refine ⟨_, rfl, Expr.isDeferred_tuple List.mem_cons_self hfirst, fun table => ⟨?_, ?_⟩⟩
      · exact Expr.exists_resolve_tuple_eq_ok
      · exact fun text => iff_of_false (Expr.resolve_tuple_ne_string text) (by simp)

/-- A scope does not wait for nothing, nor for an expression that reads no node. -/
theorem exists_contract_of_dependencyOf {dependencies : List Expr}
    (hrejected : dependencies = [] ∨ ∃ e ∈ dependencies, e.isDeferred = false) :
    ∃ violation, dependencyOf dependencies = .error (.contract violation) := by
  unfold dependencyOf
  cases hfind : dependencies.find? fun e => !e.isDeferred with
  | some e => exact ⟨_, rfl⟩
  | none =>
    rcases hrejected with rfl | ⟨e, he, hconstant⟩
    · exact ⟨_, rfl⟩
    · have hdeferred := List.find?_eq_none.mp hfind e he
      simp [hconstant] at hdeferred

/-- The guard of a dependency scope waits for the dependencies. -/
theorem exists_awaits {dependencies : List Expr} (t : Tracer) (hsome : dependencies ≠ [])
    (hdeferred : ∀ e ∈ dependencies, e.isDeferred = true) :
    ∃ condition : Condition, condition.Awaits dependencies t.witness ∧
      (t.dependencyGuard dependencies).1 = .ok condition := by
  obtain ⟨awaited, hawaited, hreads, hvalues⟩ := exists_dependencyOf hsome hdeferred
  have hmake : Condition.make awaited (.literal (.string t.witness)) .notEqual =
      .ok ⟨awaited, .literal (.string t.witness), .notEqual⟩ := by
    simp [Condition.make, hreads, Comparator.isEquality]
  refine ⟨⟨awaited, .literal (.string t.witness), .notEqual⟩, ?_, ?_⟩
  · have hevaluate : ∀ {table v}, awaited.resolve table = .ok v →
        Condition.evaluate ⟨awaited, .literal (.string t.witness), .notEqual⟩ table =
          .ok !decide (v = .string t.witness) := by
      intro table v hv
      rw [Condition.evaluate_eq, hv]
      simp only [Expr.resolve, Comparator.evaluate, Value.looselyEquals_string]
    constructor
    · intro table hall hother
      obtain ⟨v, hv⟩ := (hvalues table).1.mpr hall
      have hne : v ≠ .string t.witness := by
        rintro rfl
        obtain ⟨e, hsingle, he⟩ := ((hvalues table).2 _).mp hv
        exact hother e hsingle he
      rw [hevaluate hv, decide_eq_false hne]
      rfl
    · intro table e hsingle he
      rw [hevaluate (((hvalues table).2 _).mpr ⟨e, hsingle, he⟩)]
      simp
    · intro table e he fault hfault
      cases hresolve : awaited.resolve table with
      | error found =>
        obtain ⟨name, rfl⟩ := Expr.exists_nameNotProduced_of_resolve awaited hresolve
        exact ⟨name, by rw [Condition.evaluate_eq, hresolve]⟩
      | ok v =>
        obtain ⟨w, hw⟩ := (hvalues table).1.mp ⟨v, hresolve⟩ e he
        cases hfault.symm.trans hw
  · rw [dependencyGuard, hawaited]
    exact hmake

/-- A dependency scope is opened without inputs and with the guard that was made for it. -/
theorem prepare_dependsOn {dependencies : List Expr} {condition : Condition} (t : Tracer)
    (hguard : (t.dependencyGuard dependencies).1 = .ok condition) :
    ∃ name, (t.prepare (.dependsOn dependencies)).1 =
      .ok (⟨name, .empty, [], some condition⟩, none) := by
  rw [prepare]
  rcases hmade : t.dependencyGuard dependencies with ⟨made, drawn⟩
  rw [hmade] at hguard
  obtain rfl : made = .ok condition := hguard
  exact ⟨_, rfl⟩

end Tracer

namespace Script

variable {σ : Type} {t t' : Tracer} {s s' : σ}

/-- A nested pipeline has the inputs and the guard that it was opened with. -/
theorem exists_frame_of_nest {opening : Opening} {body : Args → Script σ (Option Expr)}
    {q : Pipeline} (hrun : (nest opening body).run t s = (.ok q, t', s')) :
    ∃ frame declared, (t.prepare opening).1 = .ok (frame, declared) ∧ q.inputs = frame.inputs ∧
      q.condition = frame.condition := by
  have hmade := congrArg Prod.fst hrun
  rcases hprepare : t.prepare opening with ⟨prepared, named⟩
  cases prepared with
  | error fault =>
    rw [run, hprepare] at hmade
    cases hmade
  | ok opened =>
    obtain ⟨frame, declared⟩ := opened
    obtain ⟨added, hframes, -⟩ :=
      (body ⟨frame.name, frame.inputs⟩).builds_run (named.push frame) s
    obtain ⟨returnValue, hclose⟩ := close_of_nest hprepare hframes hmade
    obtain ⟨returns, rfl, -⟩ := Frame.exists_of_close hclose
    exact ⟨frame, declared, rfl, rfl, rfl⟩

/-- A dependency scope is not opened without dependencies or for one that reads no node, and
then the tracer is as it was. -/
theorem run_dependsOn_eq_contract {dependencies : List Expr}
    (hrejected : dependencies = [] ∨ ∃ e ∈ dependencies, e.isDeferred = false)
    (body : Script σ Unit) (t : Tracer) (s : σ) :
    ∃ violation, (dependsOn dependencies body).run t s = (.error (.contract violation), t, s) := by
  obtain ⟨violation, herror⟩ := Tracer.exists_contract_of_dependencyOf hrejected
  refine ⟨violation, ?_⟩
  rw [dependsOn, run, Tracer.prepare, Tracer.dependencyGuard, herror]

/-- A dependency scope has no inputs and the guard that was made for it. -/
theorem condition_of_run_dependsOn {dependencies : List Expr} {condition : Condition}
    (hguard : (t.dependencyGuard dependencies).1 = .ok condition) {body : Script σ Unit}
    {q : Pipeline} (hrun : (dependsOn dependencies body).run t s = (.ok q, t', s')) :
    q.inputs = .empty ∧ q.condition = some condition := by
  obtain ⟨frame, declared, hprepare, hinputs, hcondition⟩ := exists_frame_of_nest hrun
  obtain ⟨name, hopened⟩ := t.prepare_dependsOn hguard
  obtain ⟨rfl, -⟩ := Prod.mk.inj (Except.ok.inj (hprepare.symm.trans hopened))
  exact ⟨hinputs, hcondition⟩

end Script

end Dataflow
