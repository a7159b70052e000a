/-
# Guards select branches

Guards do nothing but select what runs. If every pipeline whose guard was true in a run
loses its guard, and every pipeline whose guard was false is taken out, then the pipeline
that is left runs in the same way: it makes the same calls, gives the same values or the
same error, and takes the same steps but for those that skip a node.
-/

import Dataflow.Proofs.Run.Evaluation
import Dataflow.Proofs.Run.Order

namespace Dataflow

namespace Node

variable (verdicts : String → Option Bool)

mutual

/-- What is left of a node at a path when the guards with a verdict are resolved. -/
def prune (path : String) : Node → Option Node
  | .component c => some (.component c)
  | .pipeline ⟨name, inputs, children, returnValue, returns, condition⟩ =>
    if verdicts path = some false then none
    else
      some (.pipeline ⟨name, inputs, pruneAll path children, returnValue, returns,
        if verdicts path = some true then none else condition⟩)

/-- What is left of the nodes of a pipeline at a path. -/
def pruneAll (path : String) : List Node → List Node
  | [] => []
  | child :: rest => (prune (path ++ "/" ++ child.name) child).toList ++ pruneAll path rest

end

end Node

namespace Pipeline

/-- A pipeline whose guard has this verdict, at a path, without that guard if it was true
and with the guards inside it resolved. -/
def pruned (p : Pipeline) (verdicts : String → Option Bool) (path : String) : Pipeline :=
  { p with
    children := Node.pruneAll verdicts path p.children
    condition := if verdicts path = some true then none else p.condition }

/-- A pipeline in which the guards with a verdict are resolved: without the guard if it was
true, and without the whole pipeline if it was false. The guard of the pipeline itself is
not evaluated when it runs, and stays. -/
def prune (p : Pipeline) (verdicts : String → Option Bool) : Pipeline :=
  { p with children := Node.pruneAll verdicts p.name p.children }

@[simp]
theorem pruned_inputs (p : Pipeline) (verdicts : String → Option Bool) (path : String) :
    (p.pruned verdicts path).inputs = p.inputs := rfl

@[simp]
theorem settle_pruned (p : Pipeline) (verdicts : String → Option Bool) (path : String)
    (value : Option Value) : (p.pruned verdicts path).settle value = p.settle value := rfl

end Pipeline

namespace Node

variable {verdicts : String → Option Bool} {path : String}

theorem prune_pipeline_of_false {q : Pipeline} (hfalse : verdicts path = some false) :
    prune verdicts path (.pipeline q) = none := by
  obtain ⟨name, inputs, children, returnValue, returns, condition⟩ := q
  rw [prune, if_pos hfalse]

theorem prune_pipeline_of_ne_false {q : Pipeline} (hnot : verdicts path ≠ some false) :
    prune verdicts path (.pipeline q) = some (.pipeline (q.pruned verdicts path)) := by
  obtain ⟨name, inputs, children, returnValue, returns, condition⟩ := q
  rw [prune, if_neg hnot]
  rfl

end Node

/-- The steps and the backend of a run, without the steps that skip a node. -/
def RunState.kept {σ : Type} (state : RunState σ) : RunState σ :=
  { state with steps := state.steps.filter fun step => step.status == .completed }

/-- An outcome without the steps that skip a node. -/
def RunOutcome.kept (outcome : RunOutcome) : RunOutcome :=
  { outcome with steps := outcome.completed }

theorem RunState.kept_note_skipped {σ : Type} (state : RunState σ) (path : String) :
    (state.note path .skipped).kept = state.kept := by
  simp [RunState.kept, RunState.note]

theorem RunState.kept_note_completed {σ : Type} (state : RunState σ) (path : String) :
    (state.note path .completed).kept = state.kept.note path .completed := by
  simp [RunState.kept, RunState.note]

namespace Backend

variable {σ : Type} {backend : Backend σ} {p : Pipeline} {s : σ} {verdicts : String → Option Bool}

theorem execute_kept (backend : Backend σ) (c : Component) (inputs : Inputs)
    (state : RunState σ) :
    backend.execute c inputs state.kept =
      ((backend.execute c inputs state).1, (backend.execute c inputs state).2.kept) := by
  unfold execute
  rw [show state.kept.backend = state.backend from rfl]
  rcases backend.runComponent c inputs state.backend with ⟨answer, after⟩
  cases answer <;> rfl

/-- The guard of the next node has the same value after it is resolved: it is taken away only
if it was true. -/
theorem Judges.holds_pruned (h : backend.Judges p s verdicts) (ht : p.Traced) {path : String}
    {m : Moment σ} {q : Pipeline} (hreach : backend.Reaches p s m)
    (hmeets : m.Meets path (.pipeline q)) :
    Condition.holds (Stack.table m.stack) (q.pruned verdicts path).condition =
      Condition.holds (Stack.table m.stack) q.condition := by
  by_cases htrue : verdicts path = some true
  · have hpruned : (q.pruned verdicts path).condition = none := if_pos htrue
    obtain ⟨condition, inputs, hcondition, -, hguard⟩ :=
      (h.iff_of_meets ht hreach hmeets).mp htrue
    rw [hpruned, hcondition, Condition.holds, Condition.holds, hguard]
  · have hpruned : (q.pruned verdicts path).condition = q.condition := if_neg htrue
    rw [hpruned]

theorem Judges.runNode_of_false (h : backend.Judges p s verdicts) (ht : p.Traced) {path : String}
    {m : Moment σ} {q : Pipeline} (hreach : backend.Reaches p s m)
    (hmeets : m.Meets path (.pipeline q)) (hfalse : verdicts path = some false) :
    backend.runNode (.pipeline q) path (Stack.table m.stack) m.state = (.ok none, m.state) := by
  obtain ⟨condition, inputs, hcondition, hinputs, hguard⟩ :=
    (h.iff_of_meets ht hreach hmeets).mp hfalse
  refine runNode_pipeline_eq_ok.mpr ⟨inputs, hinputs, .inl ⟨?_, rfl, rfl⟩⟩
  rw [hcondition]
  exact hguard

/-- A part of a run without the steps that skip a node. -/
def keep {α : Type} (part : Except GraphError α × RunState σ) : Except GraphError α × RunState σ :=
  (part.1, part.2.kept)

/-- How a node runs when the guards are resolved: it is taken out and was skipped, or it is
left and was not skipped, and runs alike. -/
inductive RunsPruned (backend : Backend σ) (verdicts : String → Option Bool) (path : String)
    (table : ValueTable) (state : RunState σ) (node : Node) : Prop where
  | dropped (hprune : node.prune verdicts path = none)
      (hrun : backend.runNode node path table state = (.ok none, state))
  | left {kept : Node} (hprune : node.prune verdicts path = some kept)
      (hname : kept.name = node.name)
      (hrun : backend.runNode kept path table state.kept =
        keep (backend.runNode node path table state))
      (hnot : ∀ after, backend.runNode node path table state ≠ (.ok none, after))

-- A verdict speaks of a moment of the run, so the induction on the nodes carries one along:
-- each case starts at a moment at which the node is next, and the nodes after it go on from
-- the moment to which the run then moves.

mutual

theorem runNode_prune (ht : p.Traced) (hverdicts : backend.Judges p s verdicts) :
    ∀ (node : Node) {a : Activation} {outer : Stack} {rest : List Node} {state : RunState σ},
      backend.Reaches p s ⟨a :: outer, state⟩ → a.future = node :: rest →
      backend.RunsPruned verdicts (a.pathOf node) (Stack.table (a :: outer)) state node
  | .component c, a, outer, rest, state, hreach, hnext => by
    refine .left rfl rfl ?_ ?_
    · rw [runNode, runNode]
      cases hinputs : Expr.resolveAll (Stack.table (a :: outer)) c.inputs with
      | error fault => rfl
      | ok inputs =>
        simp only [execute_kept]
        rcases backend.execute c inputs state with ⟨result, after⟩
        cases result <;> rfl
    · intro after hnone
      obtain ⟨_, _, _, _, hsome⟩ := runNode_component_eq_ok.mp hnone
      cases hsome
  | .pipeline q, a, outer, rest, state, hreach, hnext => by
    have hmeets : Moment.Meets ⟨a :: outer, state⟩ _ _ := Moment.meets_of_next hnext
    by_cases hfalse : verdicts (a.pathOf (.pipeline q)) = some false
    · exact .dropped (Node.prune_pipeline_of_false hfalse)
        (hverdicts.runNode_of_false ht hreach hmeets hfalse)
    · have hholds := hverdicts.holds_pruned ht hreach hmeets
      refine .left (Node.prune_pipeline_of_ne_false hfalse) rfl ?_ ?_
      · rw [runNode, runNode, hholds, Pipeline.pruned_inputs]
        cases hinputs : Expr.resolveAll (Stack.table (a :: outer)) q.inputs with
        | error fault => rfl
        | ok inputs =>
          cases hguard : Condition.holds (Stack.table (a :: outer)) q.condition with
          | error fault => rfl
          | ok holds =>
            cases holds with
            | false => rfl
            | true =>
              have hinside := runPipeline_prune ht hverdicts q
                (hreach.move (.enter hnext hinputs hguard))
              rw [Stack.table_opened] at hinside
              simp only [hinside]
              rcases backend.runPipeline q (a.pathOf (.pipeline q))
                ((Stack.table (a :: outer)).merge inputs) state with ⟨result, after⟩
              cases result with
              | error fault => rfl
              | ok found =>
                obtain ⟨value, final⟩ := found
                simp only [keep, Pipeline.settle_pruned]
                cases q.settle value <;> rfl
      · intro after hnone
        obtain ⟨inputs, hinputs, hskipped | ⟨_, _, _, _, _, _, hsome⟩⟩ :=
          runNode_pipeline_eq_ok.mp hnone
        · exact hfalse ((hverdicts.eq_false_iff ht hreach hmeets hinputs).mpr hskipped.1)
        · cases hsome

theorem runPipeline_prune (ht : p.Traced) (hverdicts : backend.Judges p s verdicts) :
    ∀ (q : Pipeline) {path : String} {arguments : Inputs} {outer : Stack} {state : RunState σ},
      backend.Reaches p s ⟨.opened path q arguments :: outer, state⟩ →
      backend.runPipeline (q.pruned verdicts path) path
          (Stack.table (.opened path q arguments :: outer)) state.kept =
        keep (backend.runPipeline q path (Stack.table (.opened path q arguments :: outer)) state)
  | ⟨name, given, children, returnValue, returns, condition⟩, path, arguments, outer, state,
    hreach => by
    have hchildren := runChildren_prune ht hverdicts children hreach rfl
    simp only [Activation.opened] at hchildren
    rw [Pipeline.pruned, runPipeline, runPipeline]
    simp only [Activation.opened, hchildren]
    rcases backend.runChildren children path _ state with ⟨result, after⟩
    cases result with
    | error fault => rfl
    | ok final =>
      simp only [keep]
      cases Expr.resolveOption final returnValue <;> rfl

theorem runChildren_prune (ht : p.Traced) (hverdicts : backend.Judges p s verdicts) :
    ∀ (nodes : List Node) {a : Activation} {outer : Stack} {state : RunState σ},
      backend.Reaches p s ⟨a :: outer, state⟩ → a.future = nodes →
      backend.runChildren (Node.pruneAll verdicts a.path nodes) a.path
          (Stack.table (a :: outer)) state.kept =
        keep (backend.runChildren nodes a.path (Stack.table (a :: outer)) state)
  | [], a, outer, state, hreach, hnext => rfl
  | child :: rest, a, outer, state, hreach, hnext => by
    have hmoves := leads_runNode child hreach hnext
    have hpath : a.path ++ "/" ++ child.name = a.pathOf child := rfl
    rw [Node.pruneAll, runChildren]
    simp only [hpath]
    cases runNode_prune ht hverdicts child hreach hnext with
    | dropped hprune hrun =>
      rw [hrun] at hmoves
      have hrest := runChildren_prune ht hverdicts rest hmoves rfl
      rw [Stack.table_pass_none, StepStatus.ofValue, RunState.kept_note_skipped] at hrest
      rw [hprune, hrun]
      exact hrest
    | @left kept hprune hname hrun hnot =>
      rw [hprune, Option.toList_some, List.singleton_append, runChildren, hname]
      simp only [hpath, hrun]
      rcases hresult : backend.runNode child (a.pathOf child) (Stack.table (a :: outer)) state
        with ⟨result, after⟩
      rw [hresult] at hmoves
      cases result with
      | error fault => rfl
      | ok value =>
        cases value with
        | none => exact absurd hresult (hnot after)
        | some v =>
          have hrest := runChildren_prune ht hverdicts rest hmoves rfl
          rw [Stack.table_pass_some, StepStatus.ofValue, RunState.kept_note_completed] at hrest
          exact hrest

end

/-- A run whose guards are resolved beforehand is the run without the steps that skip a
node. -/
theorem run_prune (ht : p.Traced) (hverdicts : backend.Judges p s verdicts) :
    backend.run (p.prune verdicts) s =
      ((backend.run p s).1.map RunOutcome.kept, (backend.run p s).2.kept) := by
  have hgiven : (p.prune verdicts).inputs = p.inputs := rfl
  rw [run, run, hgiven]
  cases hinputs : Expr.resolveAll .empty p.inputs with
  | error fault => rfl
  | ok inputs =>
    have hroot : backend.runPipeline (p.prune verdicts) p.name (Named.merge .empty inputs) ⟨[], s⟩ =
        keep (backend.runPipeline p p.name (Named.merge .empty inputs) ⟨[], s⟩) := by
      have hinside := runPipeline_prune ht hverdicts p (.start hinputs)
      rw [Stack.table_opened] at hinside
      exact hinside
    have hname : (p.prune verdicts).name = p.name := rfl
    simp only [hname, hroot]
    rcases backend.runPipeline p p.name (Named.merge .empty inputs) ⟨[], s⟩ with ⟨result, after⟩
    cases result <;> rfl

/-- Guards act as a selection of branches. In a run of a traced pipeline, let the guards that
are evaluated be resolved: those that were true are taken away, and the pipelines whose
guards were false are taken out. Then the run makes the same calls, with the same inputs and
answers and in the same order, leaves the backend in the same state, and gives the same value
and table or the same error. Its steps are the completed steps of the run with the guards. -/
theorem run_calls_prune (backend : Backend σ) (ht : p.Traced) (s : σ) :
    ∃ verdicts, backend.Judges p s verdicts ∧
      backend.calls (p.prune verdicts) s = backend.calls p s ∧
      backend.run (p.prune verdicts) s =
        ((backend.run p s).1.map RunOutcome.kept, (backend.run p s).2.kept) := by
  obtain ⟨verdicts, hverdicts⟩ := backend.exists_judges ht s
  refine ⟨verdicts, hverdicts, ?_, run_prune ht hverdicts⟩
  rw [calls, run_prune ht hverdicts.watched]
  rfl

end Backend

/-- A run that enters one guarded pipeline and skips another one in it is that of the
pipeline without the first guard and without the second pipeline. -/
theorem run_calls_prune_branching :
    Branching.root.Traced ∧ ∃ verdicts outcome after,
      Backend.inProcess.Judges Branching.root () verdicts ∧
      Backend.inProcess.calls (Branching.root.prune verdicts) () =
        Backend.inProcess.calls Branching.root () ∧
      Backend.inProcess.run (Branching.root.prune verdicts) () = (.ok outcome, after) ∧
      outcome.steps = [⟨"main/text", .completed⟩, ⟨"main/condition/first", .completed⟩,
        ⟨"main/condition", .completed⟩] := by
  obtain ⟨verdicts, hverdicts, hcalls, hpruned⟩ :=
    Backend.inProcess.run_calls_prune Branching.root_traced ()
  obtain ⟨outcome, hrun, hsteps⟩ := Branching.run_root
  rw [hrun] at hpruned
  refine ⟨Branching.root_traced, verdicts, outcome.kept, _, hverdicts, hcalls, hpruned, ?_⟩
  rw [RunOutcome.kept, RunOutcome.completed, hsteps]
  rfl

end Dataflow
