/-
# The calls of a run

If the answers of one backend are those of another under a function on their states,
then so are their runs. Watching a backend, noting each call with its answer, is of this
kind: it changes nothing, and the notes are the calls of the run. Every call is made at
a moment of the run at which the component is the next node, on its resolved inputs.
-/

import Dataflow.Proofs.Run.Adequacy

namespace Dataflow

variable {σ τ : Type}

/-- The state of a run under a function on the states of backends. -/
def RunState.map (f : σ → τ) (state : RunState σ) : RunState τ := ⟨state.steps, f state.backend⟩

/-- A call that a backend has answered. -/
structure Call where
  component : Component
  inputs : Inputs
  /-- The raw answer. -/
  answer : Except GraphError Value

namespace Backend

/-- Every answer of the first backend is that of the second one, under a function on
their states. -/
def MapsTo (backend : Backend σ) (other : Backend τ) (f : σ → τ) : Prop :=
  ∀ c inputs s, other.runComponent c inputs (f s) =
    ((backend.runComponent c inputs s).1, f (backend.runComponent c inputs s).2)

section

variable {backend : Backend σ} {other : Backend τ} {f : σ → τ}

/-- A component is executed alike. -/
theorem MapsTo.execute (h : backend.MapsTo other f) (c : Component) (inputs : Inputs)
    (state : RunState σ) :
    other.execute c inputs (state.map f) =
      ((backend.execute c inputs state).1, (backend.execute c inputs state).2.map f) := by
  unfold Backend.execute
  simp only [RunState.map]
  rw [h c inputs state.backend]
  rcases backend.runComponent c inputs state.backend with ⟨answer, after⟩
  cases answer <;> rfl

mutual

theorem MapsTo.runNode (h : backend.MapsTo other f) :
    ∀ (node : Node) (path : String) (table : ValueTable) (state : RunState σ),
      other.runNode node path table (state.map f) =
        ((backend.runNode node path table state).1,
          (backend.runNode node path table state).2.map f)
  | .component c, path, table, state => by
    rw [Backend.runNode, Backend.runNode]
    cases Expr.resolveAll table c.inputs with
    | error fault => rfl
    | ok inputs =>
      simp only
      rw [h.execute]
      rcases backend.execute c inputs state with ⟨result, after⟩
      cases result <;> rfl
  | .pipeline q, path, table, state => by
    rw [Backend.runNode, Backend.runNode]
    cases Expr.resolveAll table q.inputs with
    | error fault => rfl
    | ok inputs =>
      simp only
      cases Condition.holds table q.condition with
      | error fault => rfl
      | ok holds =>
        cases holds with
        | false => rfl
        | true =>
          simp only
          rw [MapsTo.runPipeline h q]
          rcases backend.runPipeline q path (table.merge inputs) state with ⟨result, after⟩
          cases result with
          | error fault => rfl
          | ok found =>
            simp only
            cases q.settle found.1 <;> rfl

theorem MapsTo.runPipeline (h : backend.MapsTo other f) :
    ∀ (q : Pipeline) (path : String) (table : ValueTable) (state : RunState σ),
      other.runPipeline q path table (state.map f) =
        ((backend.runPipeline q path table state).1,
          (backend.runPipeline q path table state).2.map f)
  | ⟨_, _, children, returnValue, _, _⟩, path, table, state => by
    rw [Backend.runPipeline, Backend.runPipeline, MapsTo.runChildren h children]
    rcases backend.runChildren children path table state with ⟨result, after⟩
    cases result with
    | error fault => rfl
    | ok final =>
      simp only
      cases Expr.resolveOption final returnValue <;> rfl

theorem MapsTo.runChildren (h : backend.MapsTo other f) :
    ∀ (nodes : List Node) (path : String) (table : ValueTable) (state : RunState σ),
      other.runChildren nodes path table (state.map f) =
        ((backend.runChildren nodes path table state).1,
          (backend.runChildren nodes path table state).2.map f)
  | [], _, _, _ => rfl
  | child :: rest, path, table, state => by
    rw [Backend.runChildren, Backend.runChildren, MapsTo.runNode h child]
    rcases backend.runNode child (path ++ "/" ++ child.name) table state with ⟨result, after⟩
    cases result with
    | error fault => rfl
    | ok value =>
      cases value with
      | none =>
        exact MapsTo.runChildren h rest path table
          (after.note (path ++ "/" ++ child.name) .skipped)
      | some v =>
        exact MapsTo.runChildren h rest path (table.insert child.name v)
          (after.note (path ++ "/" ++ child.name) .completed)

end

theorem MapsTo.run (h : backend.MapsTo other f) (p : Pipeline) (s : σ) :
    other.run p (f s) = ((backend.run p s).1, (backend.run p s).2.map f) := by
  rw [Backend.run, Backend.run]
  cases Expr.resolveAll .empty p.inputs with
  | error fault => rfl
  | ok inputs =>
    simp only
    have hroot := h.runPipeline p p.name (Named.empty.merge inputs) ⟨[], s⟩
    rw [RunState.map] at hroot
    rw [hroot]
    rcases backend.runPipeline p p.name (Named.empty.merge inputs) ⟨[], s⟩ with ⟨result, after⟩
    cases result <;> rfl

end

/-- The backend that notes every call with its answer. -/
def watched (backend : Backend σ) : Backend (List Call × σ) where
  name := backend.name
  runComponent := fun c inputs state =>
    match backend.runComponent c inputs state.2 with
    | (answer, after) => (answer, (state.1 ++ [⟨c, inputs, answer⟩], after))

/-- The calls of a run, in order. -/
def calls (backend : Backend σ) (p : Pipeline) (s : σ) : List Call :=
  (backend.watched.run p ([], s)).2.backend.1

/-- Watching a backend does not change its answers. -/
theorem watched_mapsTo (backend : Backend σ) : backend.watched.MapsTo backend Prod.snd := by
  intro c inputs state
  simp [watched]

/-- Watching a backend does not change a run. -/
theorem run_watched (backend : Backend σ) (p : Pipeline) (s : σ) :
    backend.run p s =
      ((backend.watched.run p ([], s)).1, (backend.watched.run p ([], s)).2.map Prod.snd) :=
  backend.watched_mapsTo.run p ([], s)

/-- At this moment the component is the next node and the inputs are resolved. -/
def Calls (m : Moment σ) (c : Component) (inputs : Inputs) : Prop :=
  ∃ a outer rest, m.stack = a :: outer ∧ a.future = .component c :: rest ∧
    Expr.resolveAll (Stack.table m.stack) c.inputs = .ok inputs

theorem calls_of_execute_watched {backend : Backend σ} {c : Component} {inputs : Inputs}
    {state after : RunState (List Call × σ)} {result : Except GraphError Value}
    (hrun : backend.watched.execute c inputs state = (result, after)) :
    ∃ answer, after.backend.1 = state.backend.1 ++ [⟨c, inputs, answer⟩] ∧
      result = (match answer with
        | .error fault => .error fault
        | .ok raw => reconstruct c.name c.returns raw) := by
  rcases hanswer : backend.runComponent c inputs state.backend.2 with ⟨answer, s⟩
  have hwatched : backend.watched.runComponent c inputs state.backend =
      (answer, (state.backend.1 ++ [⟨c, inputs, answer⟩], s)) := by
    simp [watched, hanswer]
  unfold execute at hrun
  rw [hwatched] at hrun
  refine ⟨answer, ?_⟩
  cases answer with
  | error fault =>
    obtain ⟨rfl, rfl⟩ := Prod.mk.inj hrun
    exact ⟨rfl, rfl⟩
  | ok raw =>
    obtain ⟨rfl, rfl⟩ := Prod.mk.inj hrun
    exact ⟨rfl, rfl⟩

variable {backend : Backend σ} {p : Pipeline} {s : σ}

/-- Every call noted so far was made at a moment of the run. -/
theorem Reaches.calls {m : Moment (List Call × σ)} (h : backend.watched.Reaches p ([], s) m) :
    ∀ call ∈ m.state.backend.1, ∃ m₀, backend.watched.Reaches p ([], s) m₀ ∧
      Calls m₀ call.component call.inputs := by
  induction h with
  | start hinputs =>
    intro call hcall
    cases hcall
  | move hreach hmove ih =>
    intro call hcall
    cases hmove with
    | run hnext hinputs hrun =>
      obtain ⟨answer, hnoted, -⟩ := calls_of_execute_watched hrun
      simp only [RunState.note, hnoted] at hcall
      rcases List.mem_append.mp hcall with hbefore | hnew
      · exact ih call hbefore
      · rw [List.mem_singleton.mp hnew]
        exact ⟨_, hreach, _, _, _, rfl, hnext, hinputs⟩
    | skip _ _ _ => exact ih call hcall
    | enter _ _ _ => exact ih call hcall
    | leave _ _ _ _ => exact ih call hcall

/-- Every call of a run is made at a moment of the run at which the component is the next
node, on its resolved inputs. -/
theorem exists_reaches_of_mem_calls {call : Call} (hcall : call ∈ backend.calls p s) :
    ∃ m, backend.watched.Reaches p ([], s) m ∧ Calls m call.component call.inputs := by
  unfold calls at hcall
  rcases hrun : backend.watched.run p ([], s) with ⟨result, after⟩
  rw [hrun] at hcall
  cases result with
  | ok outcome =>
    obtain ⟨a, hreach, -⟩ := reaches_of_run_eq_ok hrun
    exact hreach.calls call hcall
  | error fault =>
    rcases exists_fails_of_run_eq_error hrun with ⟨-, rfl⟩ | ⟨m, hreach, hfails⟩
    · cases hcall
    · cases hfails with
      | run hnext hinputs hrun =>
        obtain ⟨answer, hnoted, -⟩ := calls_of_execute_watched hrun
        rw [hnoted] at hcall
        rcases List.mem_append.mp hcall with hbefore | hnew
        · exact hreach.calls call hbefore
        · rw [List.mem_singleton.mp hnew]
          exact ⟨_, hreach, _, _, _, rfl, hnext, hinputs⟩
      | input _ _ => exact hreach.calls call hcall
      | guard _ _ => exact hreach.calls call hcall
      | result _ _ => exact hreach.calls call hcall
      | settle _ _ _ => exact hreach.calls call hcall

end Backend

end Dataflow
