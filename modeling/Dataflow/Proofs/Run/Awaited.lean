/-
# Dependency scopes in runs

A step that says that a node was skipped is that of a pipeline whose guard was false when the
run came to it. The guard of a dependency scope is not, unless its only dependency has the
value of the text that it is compared with. So a run that comes to the scope finds all
dependencies there and enters it, or it ends for want of one of them.
-/

import Dataflow.Proofs.Run.Order
import Dataflow.Proofs.Tracer.Dependencies
import Dataflow.Proofs.Tracer.Operations

namespace Dataflow

namespace Backend

variable {σ : Type} {backend : Backend σ} {p : Pipeline} {s : σ} {m : Moment σ}

/-- What is noted as skipped is a pipeline whose guard was false. -/
theorem Reaches.decides_false (h : backend.Reaches p s m) {path : String}
    (hstep : ⟨path, .skipped⟩ ∈ m.state.steps) : backend.Decides p s path false := by
  induction h with
  | start _ => cases hstep
  | move hreach hmove ih =>
    cases hmove with
    | run _ _ hrun =>
      rcases List.mem_append.mp hstep with hbefore | hnoted
      · rw [steps_of_execute hrun] at hbefore
        exact ih hbefore
      · cases List.mem_singleton.mp hnoted
    | @skip a outer state q rest inputs hnext hinputs hguard =>
      rcases List.mem_append.mp hstep with hbefore | hnoted
      · exact ih hbefore
      · cases List.mem_singleton.mp hnoted
        cases hcondition : q.condition with
        | none => simp [hcondition, Condition.holds] at hguard
        | some condition =>
          rw [hcondition] at hguard
          exact ⟨hreach, Moment.meets_of_next hnext, hcondition, hinputs, hguard⟩
    | enter _ _ _ => exact ih hstep
    | leave _ _ _ _ =>
      rcases List.mem_append.mp hstep with hbefore | hnoted
      · exact ih hbefore
      · cases List.mem_singleton.mp hnoted

theorem Fails.steps {fault : GraphError} {after : RunState σ} (h : backend.Fails m fault after) :
    after.steps = m.state.steps := by
  cases h with
  | run _ _ hrun => exact steps_of_execute hrun
  | input _ _ | guard _ _ | result _ _ | settle _ _ _ => rfl

/-- Whatever a run notes as skipped, whether it succeeds or fails, had a false guard. -/
theorem decides_false_of_mem_steps {path : String}
    (hstep : ⟨path, .skipped⟩ ∈ (backend.run p s).2.steps) :
    backend.Decides p s path false := by
  rcases hrun : backend.run p s with ⟨result, after⟩
  rw [hrun] at hstep
  cases result with
  | ok outcome =>
    obtain ⟨a, hreach, -⟩ := reaches_of_run_eq_ok hrun
    exact hreach.decides_false hstep
  | error fault =>
    rcases exists_fails_of_run_eq_error hrun with ⟨-, rfl⟩ | ⟨m, hreach, hfails⟩
    · cases hstep
    · rw [hfails.steps] at hstep
      exact hreach.decides_false hstep

variable {path : String} {q : Pipeline} {condition : Condition} {dependencies : List Expr}
  {witness : String}

/-- A run that comes to a scope with a guard that waits for dependencies finds them all there
and enters it, or it ends for want of a name; but for a dependency with the text of the
guard. -/
theorem Reaches.enters_or_misses (hreach : backend.Reaches p s m)
    (hmeets : m.Meets path (.pipeline q)) (hinputs : q.inputs = .empty)
    (hcondition : q.condition = some condition) (hawaits : condition.Awaits dependencies witness)
    (hother : ∀ e ∈ dependencies, e.resolve (Stack.table m.stack) ≠ .ok (.string witness)) :
    ((∀ e ∈ dependencies, ∃ v, e.resolve (Stack.table m.stack) = .ok v) ∧
        backend.Reaches p s ⟨.opened path q .empty :: m.stack, m.state⟩) ∨
      ∃ name, (backend.run p s).1 = .error (.nameNotProduced name) := by
  have hnone : Expr.resolveAll (Stack.table m.stack) q.inputs = .ok .empty := by
    rw [hinputs]
    rfl
  rcases hawaits.cases_of_ne hother with ⟨hall, htrue⟩ | ⟨name, herror⟩
  · obtain ⟨stack, state⟩ := m
    obtain ⟨a, outer, rest, rfl, hnext, rfl⟩ := hmeets
    have hguard : Condition.holds (Stack.table (a :: outer)) q.condition = .ok true := by
      rw [hcondition]
      exact htrue
    exact .inl ⟨hall, hreach.move (.enter hnext hnone hguard)⟩
  · exact .inr ⟨name, hreach.run_eq_error_of_guard hmeets hcondition hnone herror⟩

/-- A scope with a guard that waits for dependencies is never noted as skipped; but for a
dependency with the text of the guard. -/
theorem not_skipped_of_awaits (ht : p.Traced) (hplaced : (path, .pipeline q) ∈ p.placed)
    (hcondition : q.condition = some condition) (hawaits : condition.Awaits dependencies witness)
    (hother : ∀ m, backend.Reaches p s m → m.Meets path (.pipeline q) →
      ∀ e ∈ dependencies, e.resolve (Stack.table m.stack) ≠ .ok (.string witness)) :
    ⟨path, .skipped⟩ ∉ (backend.run p s).2.steps := by
  intro hstep
  obtain ⟨hreach, hmeets, hcondition', hinputs, hfalse⟩ := decides_false_of_mem_steps hstep
  -- The pipeline that was skipped is the scope, since it is at its path.
  have hsame := List.inj_on_of_nodup_map ht.nodup_placed
    (hreach.mem_placed_of_meets hmeets) hplaced rfl
  cases hsame
  obtain rfl := Option.some.inj (hcondition.symm.trans hcondition')
  rcases hawaits.cases_of_ne (hother _ hreach hmeets) with ⟨-, htrue⟩ | ⟨name, herror⟩
  · cases hfalse.symm.trans htrue
  · cases hfalse.symm.trans herror

end Backend

namespace Script

variable {σ : Type}

/-- A dependency scope orders and never filters. Without dependencies, or with one that reads
no node, it is rejected, and the tracer is as it was. Otherwise it is opened under a guard
that waits for the dependencies, and recorded with this guard if its body does not fail. A run
of a traced pipeline with this scope in it, in which no dependency has the text of the guard for
its value when the run comes to the scope, never skips the scope: whenever the run comes to
it, all dependencies have values and its body is entered next, or the run ends for want of a
name. -/
theorem dependsOn_never_filters (dependencies : List Expr) (body : Script σ Unit) (t : Tracer)
    (u : σ) :
    (dependencies = [] ∨ (∃ e ∈ dependencies, e.isDeferred = false) →
      ∃ violation, (dependsOn dependencies body).run t u = (.error (.contract violation), t, u)) ∧
    (dependencies ≠ [] → (∀ e ∈ dependencies, e.isDeferred = true) →
      ∃ condition : Condition, condition.Awaits dependencies t.witness ∧
        (∃ name, (t.prepare (.dependsOn dependencies)).1 =
          .ok (⟨name, .empty, [], some condition⟩, none)) ∧
        ∀ q t' u', (dependsOn dependencies body).run t u = (.ok q, t', u') →
          t'.frames = Frame.extend t.frames [.pipeline q] ∧ q.condition = some condition ∧
          ∀ {τ : Type} (backend : Backend τ) (p : Pipeline) (s : τ) (path : String), p.Traced →
            (path, .pipeline q) ∈ p.placed →
            (∀ m, backend.Reaches p s m → m.Meets path (.pipeline q) →
              ∀ e ∈ dependencies, e.resolve (Stack.table m.stack) ≠ .ok (.string t.witness)) →
            ⟨path, .skipped⟩ ∉ (backend.run p s).2.steps ∧
            ∀ m, backend.Reaches p s m → m.Meets path (.pipeline q) →
              ((∀ e ∈ dependencies, ∃ v, e.resolve (Stack.table m.stack) = .ok v) ∧
                  backend.Reaches p s ⟨.opened path q .empty :: m.stack, m.state⟩) ∨
                ∃ name, (backend.run p s).1 = .error (.nameNotProduced name)) := by
  refine ⟨fun hrejected => run_dependsOn_eq_contract hrejected body t u, ?_⟩
  intro hsome hdeferred
  obtain ⟨condition, hawaits, hguard⟩ := t.exists_awaits hsome hdeferred
  refine ⟨condition, hawaits, t.prepare_dependsOn hguard, ?_⟩
  intro q t' u' hrun
  obtain ⟨hinputs, hcondition⟩ := condition_of_run_dependsOn hguard hrun
  have happends := (Operation.nest (.dependsOn dependencies)
    fun _ => .andThen body fun _ => .result none).appends_run t u
  rw [Operation.script, ← dependsOn, hrun] at happends
  refine ⟨happends, hcondition, ?_⟩
  intro τ backend p s path ht hplaced hother
  refine ⟨Backend.not_skipped_of_awaits ht hplaced hcondition hawaits hother, ?_⟩
  intro m hreach hmeets
  exact hreach.enters_or_misses hmeets hinputs hcondition hawaits (hother m hreach hmeets)

end Script

namespace Waiting

/-- A component that gives a record. -/
def pair : Component where
  name := "pair"
  function := "pair"
  inputs := .empty
  returns := .record ⟨"Pair", [("first", .string), ("second", .integer)]⟩
  deployment := Settings.default.resolveDeployment .none
  body := some fun _ => .ok (.tuple [.string "first", .integer 2])

/-- A pipeline without a value. -/
def quiet : Pipeline := ⟨"quiet", .empty, [], none, none, none⟩

/-- What the scope waits for. -/
def dependencies : List Expr := [pair.expr, quiet.expr]

/-- What runs in the scope. -/
def body : Script Unit Unit := do
  let _ ← .call (echo "after") [("text", .literal (.string "hello"))]
  return ()

/-- The tracer with which the scope is opened. -/
def tracer : Tracer :=
  (Tracer.start { Settings.default with suffixLength := 0 } ⟨fun _ => 0, 0⟩).push
    ⟨"main", .empty, [.component pair, .pipeline quiet], none⟩

/-- The scope. -/
def scope : Pipeline :=
  ⟨"depends-on", .empty, [.component (echoed "after" (.literal (.string "hello")))], none, none,
    some ⟨.tuple dependencies, .literal (.string tracer.witness), .notEqual⟩⟩

/-- The root pipeline. -/
def root : Pipeline :=
  ⟨"main", .empty, [.component pair, .pipeline quiet, .pipeline scope], none, none, none⟩

theorem root_traced : root.Traced := by
  refine ⟨Unit, .invoke ⟨"main", some "main", [], none⟩ [], fun _ => do
    let pair ← .call ⟨"pair", some "pair", [], some pair.returns, .none, pair.body⟩ []
    let quiet ← .scope "quiet" (.result none)
    let _ ← .dependsOn [pair.expr, quiet.expr] body
    return none,
    .start { Settings.default with suffixLength := 0 } ⟨fun _ => 0, 0⟩, (), ?_⟩
  rfl

/-- The root pipeline when the run comes to the scope. -/
def rootActivation : Activation :=
  ⟨"main", root, .empty, [(.component pair, some (.record ⟨[("first", .string "first"),
      ("second", .integer 2)]⟩)), (.pipeline quiet, some Value.emptyRecord)], [.pipeline scope]⟩

theorem reaches_scope : ∃ state, Backend.inProcess.Reaches root () ⟨[rootActivation], state⟩ := by
  have hstart : Backend.inProcess.Reaches root () ⟨[.opened "main" root .empty], ⟨[], ()⟩⟩ :=
    .start rfl
  have hpair := hstart.move (.run rfl rfl rfl)
  have hinside := hpair.move (.enter rfl rfl rfl)
  exact ⟨_, hinside.move (.leave rfl rfl rfl rfl)⟩

end Waiting

/-- A scope that waits for a record and for a pipeline without a value is not skipped. -/
theorem dependsOn_never_filters_waiting :
    Waiting.root.Traced ∧ Waiting.dependencies ≠ [] ∧
      (∀ e ∈ Waiting.dependencies, e.isDeferred = true) ∧
      ("main/depends-on", .pipeline Waiting.scope) ∈ Waiting.root.placed ∧
      ∃ t' u', (Script.dependsOn Waiting.dependencies Waiting.body).run Waiting.tracer () =
          (.ok Waiting.scope, t', u') ∧
        ⟨"main/depends-on", .skipped⟩ ∉ (Backend.inProcess.run Waiting.root ()).2.steps := by
  have hsome : Waiting.dependencies ≠ [] := List.cons_ne_nil _ _
  have hdeferred : ∀ e ∈ Waiting.dependencies, e.isDeferred = true := by decide
  have hchild : Node.pipeline Waiting.scope ∈ Waiting.root.children := by simp [Waiting.root]
  have hplaced : ("main/depends-on", .pipeline Waiting.scope) ∈ Waiting.root.placed :=
    Node.mem_placed_of_mem Waiting.root.name hchild
  obtain ⟨t', u', hrun⟩ : ∃ t' u', (Script.dependsOn Waiting.dependencies Waiting.body).run
      Waiting.tracer () = (.ok Waiting.scope, t', u') := ⟨_, _, rfl⟩
  obtain ⟨-, hopened⟩ :=
    Script.dependsOn_never_filters Waiting.dependencies Waiting.body Waiting.tracer ()
  obtain ⟨condition, -, -, hscope⟩ := hopened hsome hdeferred
  obtain ⟨-, -, hruns⟩ := hscope Waiting.scope t' u' hrun
  have hother : ∀ m, Backend.inProcess.Reaches Waiting.root () m →
      m.Meets "main/depends-on" (.pipeline Waiting.scope) → ∀ e ∈ Waiting.dependencies,
        e.resolve (Stack.table m.stack) ≠ .ok (.string Waiting.tracer.witness) := by
    intro m hreach hmeets e he
    obtain ⟨state, hscope⟩ := Waiting.reaches_scope
    obtain rfl := hreach.eq_of_meets hscope Waiting.root_traced hmeets
      ⟨Waiting.rootActivation, [], [], rfl, rfl, rfl⟩
    rcases List.mem_cons.mp he with rfl | hquiet
    · exact nofun
    · obtain rfl := List.mem_singleton.mp hquiet
      exact nofun
  obtain ⟨hskipped, -⟩ := hruns Backend.inProcess Waiting.root () "main/depends-on"
    Waiting.root_traced hplaced hother
  exact ⟨Waiting.root_traced, hsome, hdeferred, hplaced, t', u', hrun, hskipped⟩

end Dataflow
