/-
# Runs end where their moves end

A run that succeeds reaches a moment at which the root pipeline has nothing ahead, and
its outcome is read off that moment. A run that fails either cannot resolve the inputs
of the root pipeline or reaches a moment that fails with the same error.
-/

import Dataflow.Proofs.Run.Machine

namespace Dataflow

namespace Backend

variable {σ : Type} {backend : Backend σ} {p : Pipeline} {s : σ}

/-- Where a part of a run leads: if it succeeds, its result satisfies `arrived`, and
if it fails, the run reaches a moment that fails in this way. -/
def Leads (backend : Backend σ) (p : Pipeline) (s : σ) {α : Type}
    (part : Except GraphError α × RunState σ) (arrived : α → RunState σ → Prop) : Prop :=
  match part with
  | (.ok value, after) => arrived value after
  | (.error fault, after) => ∃ m, backend.Reaches p s m ∧ backend.Fails m fault after

mutual

/-- A node that runs is passed, with its value and its step. -/
theorem leads_runNode : ∀ (node : Node) {a : Activation} {outer : Stack} {rest : List Node}
    {state : RunState σ}, backend.Reaches p s ⟨a :: outer, state⟩ → a.future = node :: rest →
    backend.Leads p s (backend.runNode node (a.pathOf node) (Stack.table (a :: outer)) state)
      fun value after => backend.Reaches p s
        ⟨a.pass node value rest :: outer, after.note (a.pathOf node) (.ofValue value)⟩
  | .component c, a, outer, rest, state, hreach, hnext => by
    rw [runNode]
    cases hinputs : Expr.resolveAll (Stack.table (a :: outer)) c.inputs with
    | error fault => exact ⟨_, hreach, .input hnext hinputs⟩
    | ok inputs =>
      rcases hrun : backend.execute c inputs state with ⟨result, after⟩
      simp only [hrun]
      cases result with
      | error fault => exact ⟨_, hreach, .run hnext hinputs hrun⟩
      | ok v => exact hreach.move (.run hnext hinputs hrun)
  | .pipeline q, a, outer, rest, state, hreach, hnext => by
    rw [runNode]
    cases hinputs : Expr.resolveAll (Stack.table (a :: outer)) q.inputs with
    | error fault => exact ⟨_, hreach, .input hnext hinputs⟩
    | ok inputs =>
      cases hguard : Condition.holds (Stack.table (a :: outer)) q.condition with
      | error fault => exact ⟨_, hreach, .guard hnext hguard⟩
      | ok holds =>
        cases holds with
        | false => exact hreach.move (.skip hnext hinputs hguard)
        | true =>
          have hinside := leads_runPipeline q (hreach.move (.enter hnext hinputs hguard))
          rw [Stack.table_opened] at hinside
          rcases hrun : backend.runPipeline q (a.pathOf (.pipeline q))
            ((Stack.table (a :: outer)).merge inputs) state with ⟨result, after⟩
          rw [hrun] at hinside
          simp only [hrun]
          cases result with
          | error fault => exact hinside
          | ok found =>
            obtain ⟨value, final⟩ := found
            obtain ⟨inside, hpipeline, hdone, hvalue, hinside⟩ := hinside
            subst hpipeline
            simp only
            cases hsettle : inside.pipeline.settle value with
            | error fault => exact ⟨_, hinside, .settle hdone hvalue.2 hsettle⟩
            | ok v => exact hinside.move (.leave hdone hnext hvalue.2 hsettle)

/-- A pipeline that was opened ends with nothing ahead, its return value and its final
table. -/
theorem leads_runPipeline : ∀ (q : Pipeline) {path : String} {arguments : Inputs} {outer : Stack}
    {state : RunState σ},
    backend.Reaches p s ⟨.opened path q arguments :: outer, state⟩ →
    backend.Leads p s
      (backend.runPipeline q path (Stack.table (.opened path q arguments :: outer)) state)
      fun found after => ∃ inside : Activation, inside.pipeline = q ∧ inside.future = [] ∧
        (found.2 = Stack.table (inside :: outer) ∧
          Expr.resolveOption (Stack.table (inside :: outer)) inside.pipeline.returnValue =
            .ok found.1) ∧
        backend.Reaches p s ⟨inside :: outer, after⟩
  | ⟨name, given, children, returnValue, returns, condition⟩, path, arguments, outer, state,
    hreach => by
    rw [runPipeline]
    have hinside := leads_runChildren children hreach rfl
    rcases hrun : backend.runChildren children path (Stack.table
      (.opened path ⟨name, given, children, returnValue, returns, condition⟩ arguments :: outer))
      state with ⟨result, after⟩
    simp only [Activation.opened] at hinside hrun
    rw [hrun] at hinside
    cases result with
    | error fault => exact hinside
    | ok final =>
      obtain ⟨inside, hpipeline, hdone, hfinal, hinside⟩ := hinside
      simp only
      cases hvalue : Expr.resolveOption final returnValue with
      | error fault =>
        refine ⟨_, hinside, .result hdone ?_⟩
        rw [← hfinal, hpipeline, hvalue]
      | ok value =>
        refine ⟨inside, hpipeline, hdone, ⟨hfinal, ?_⟩, hinside⟩
        rw [← hfinal, hpipeline, hvalue]

/-- The nodes ahead of a pipeline are passed one after another. -/
theorem leads_runChildren : ∀ (nodes : List Node) {a : Activation} {outer : Stack}
    {state : RunState σ}, backend.Reaches p s ⟨a :: outer, state⟩ → a.future = nodes →
    backend.Leads p s
      (backend.runChildren nodes a.path (Stack.table (a :: outer)) state)
      fun final after => ∃ done : Activation, done.pipeline = a.pipeline ∧ done.future = [] ∧
        final = Stack.table (done :: outer) ∧ backend.Reaches p s ⟨done :: outer, after⟩
  | [], a, outer, state, hreach, hnext => by
    rw [runChildren]
    exact ⟨a, rfl, hnext, rfl, hreach⟩
  | child :: rest, a, outer, state, hreach, hnext => by
    rw [runChildren]
    have hchild := leads_runNode child hreach hnext
    rcases hrun : backend.runNode child (a.pathOf child)
      (Stack.table (a :: outer)) state with ⟨result, after⟩
    simp only [Activation.pathOf] at hchild hrun
    rw [hrun] at hchild
    simp only [hrun]
    cases result with
    | error fault => exact hchild
    | ok value =>
      cases value with
      | none =>
        have hrest := leads_runChildren rest hchild rfl
        rw [Stack.table_pass_none] at hrest
        exact hrest
      | some v =>
        have hrest := leads_runChildren rest hchild rfl
        rw [Stack.table_pass_some] at hrest
        exact hrest

end

/-- What a successful run gives is read off a moment at which the root pipeline alone
is open and has nothing ahead. -/
theorem reaches_of_run_eq_ok {outcome : RunOutcome} {after : RunState σ}
    (hrun : backend.run p s = (.ok outcome, after)) :
    ∃ a : Activation, backend.Reaches p s ⟨[a], after⟩ ∧ a.pipeline = p ∧ a.future = [] ∧
      outcome.values = Stack.table [a] ∧ outcome.steps = after.steps ∧
      Expr.resolveOption (Stack.table [a]) p.returnValue = .ok outcome.value := by
  rw [run] at hrun
  cases hinputs : Expr.resolveAll .empty p.inputs with
  | error fault => simp [hinputs] at hrun
  | ok inputs =>
    have hstart : backend.Reaches p s ⟨[.opened p.name p inputs], ⟨[], s⟩⟩ := .start hinputs
    have hlead := leads_runPipeline p hstart
    rw [Stack.table_opened] at hlead
    rcases hroot : backend.runPipeline p p.name (Named.empty.merge inputs)
      ⟨[], s⟩ with ⟨result, final⟩
    simp only [hinputs, hroot] at hrun
    simp only [Stack.table] at hlead
    rw [hroot] at hlead
    cases result with
    | error fault => simp at hrun
    | ok found =>
      obtain ⟨value, values⟩ := found
      obtain ⟨a, rfl, hdone, ⟨hvalues, hvalue⟩, hreach⟩ := hlead
      simp only [Prod.mk.injEq, Except.ok.injEq] at hrun
      obtain ⟨rfl, rfl⟩ := hrun
      exact ⟨a, hreach, rfl, hdone, hvalues, rfl, hvalue⟩

/-- A run that fails cannot resolve the inputs of the root pipeline or reaches a moment
that fails. -/
theorem exists_fails_of_run_eq_error {fault : GraphError} {after : RunState σ}
    (hrun : backend.run p s = (.error fault, after)) :
    (Expr.resolveAll .empty p.inputs = .error fault ∧ after = ⟨[], s⟩) ∨
      ∃ m, backend.Reaches p s m ∧ backend.Fails m fault after := by
  rw [run] at hrun
  cases hinputs : Expr.resolveAll .empty p.inputs with
  | error found =>
    left
    simp only [hinputs, Prod.mk.injEq, Except.error.injEq] at hrun
    exact ⟨by rw [hrun.1], hrun.2.symm⟩
  | ok inputs =>
    right
    have hstart : backend.Reaches p s ⟨[.opened p.name p inputs], ⟨[], s⟩⟩ := .start hinputs
    have hlead := leads_runPipeline p hstart
    rw [Stack.table_opened] at hlead
    rcases hroot : backend.runPipeline p p.name (Named.empty.merge inputs)
      ⟨[], s⟩ with ⟨result, final⟩
    simp only [hinputs, hroot] at hrun
    simp only [Stack.table] at hlead
    rw [hroot] at hlead
    cases result with
    | error found =>
      simp only [Prod.mk.injEq, Except.error.injEq] at hrun
      obtain ⟨rfl, rfl⟩ := hrun
      exact hlead
    | ok found => simp at hrun

end Backend

end Dataflow
