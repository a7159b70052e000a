/-
# The course of a run

A moment of a run has at most one next moment, so of two moments one comes after the
other, and a run ends at a moment that fails. Every move uses up what is ahead from the
front, and in a traced pipeline no two nodes are at one path. Hence a run meets the node at
a path once, and if it evaluates the guard of that node, the guard has one verdict there.
-/

import Dataflow.Proofs.Pipeline.Paths
import Dataflow.Proofs.Run.Observed
import Mathlib.Logic.Relation

namespace Dataflow

namespace Stack

/-- What is ahead in open pipelines after the nodes that are open in them, with paths. -/
def aheadAround : Stack → List (String × Node)
  | [] => []
  | a :: outer => Node.placed a.path a.future.tail ++ aheadAround outer

/-- All nodes that are ahead in open pipelines, and all nodes inside them, with paths. -/
def ahead : Stack → List (String × Node)
  | [] => []
  | a :: outer => Node.placed a.path a.future ++ aheadAround outer

end Stack

/-- At this moment the node at the path is the next one. -/
def Moment.Meets {σ : Type} (m : Moment σ) (path : String) (node : Node) : Prop :=
  ∃ a outer rest, m.stack = a :: outer ∧ a.future = node :: rest ∧ path = a.pathOf node

theorem Moment.meets_of_next {σ : Type} {a : Activation} {outer : Stack} {state : RunState σ}
    {node : Node} {rest : List Node} (hnext : a.future = node :: rest) :
    Moment.Meets ⟨a :: outer, state⟩ (a.pathOf node) node :=
  ⟨a, outer, rest, rfl, hnext, rfl⟩

theorem Moment.Meets.ahead {σ : Type} {m : Moment σ} {path : String} {node : Node}
    (h : m.Meets path node) : ∃ later, Stack.ahead m.stack = (path, node) :: later := by
  obtain ⟨a, outer, rest, hstack, hnext, rfl⟩ := h
  rw [hstack, Stack.ahead, hnext, Node.placed, List.cons_append]
  exact ⟨_, rfl⟩

namespace Backend

variable {σ τ : Type} {backend : Backend σ} {p : Pipeline} {s : σ}

/-- A moment moves on in one way. -/
theorem Moves.rightUnique {m m' m'' : Moment σ} (h : backend.Moves m m')
    (h' : backend.Moves m m'') : m' = m'' := by
  cases h with
  | run hnext hinputs hrun =>
    cases h' with
    | run hnext' hinputs' hrun' =>
      obtain ⟨hc, rfl⟩ := List.cons.inj (hnext.symm.trans hnext')
      cases hc
      obtain rfl := Except.ok.inj (hinputs.symm.trans hinputs')
      obtain ⟨hv, rfl⟩ := Prod.mk.inj (hrun.symm.trans hrun')
      rw [Except.ok.inj hv]
    | skip hnext' _ _ => simp [hnext] at hnext'
    | enter hnext' _ _ => simp [hnext] at hnext'
    | leave hdone _ _ _ => simp [hnext] at hdone
  | skip hnext hinputs hguard =>
    cases h' with
    | run hnext' _ _ => simp [hnext] at hnext'
    | skip hnext' _ _ =>
      obtain ⟨hq, rfl⟩ := List.cons.inj (hnext.symm.trans hnext')
      cases hq
      rfl
    | enter hnext' _ hguard' =>
      obtain ⟨hq, -⟩ := List.cons.inj (hnext.symm.trans hnext')
      cases hq
      simp [hguard] at hguard'
    | leave hdone _ _ _ => simp [hnext] at hdone
  | enter hnext hinputs hguard =>
    cases h' with
    | run hnext' _ _ => simp [hnext] at hnext'
    | skip hnext' _ hguard' =>
      obtain ⟨hq, -⟩ := List.cons.inj (hnext.symm.trans hnext')
      cases hq
      simp [hguard] at hguard'
    | enter hnext' hinputs' _ =>
      obtain ⟨hq, -⟩ := List.cons.inj (hnext.symm.trans hnext')
      cases hq
      rw [Except.ok.inj (hinputs.symm.trans hinputs')]
    | leave hdone _ _ _ => simp [hnext] at hdone
  | leave hdone hnext hvalue hsettle =>
    cases h' with
    | run hnext' _ _ => simp [hdone] at hnext'
    | skip hnext' _ _ => simp [hdone] at hnext'
    | enter hnext' _ _ => simp [hdone] at hnext'
    | leave _ hnext' hvalue' hsettle' =>
      obtain ⟨-, rfl⟩ := List.cons.inj (hnext.symm.trans hnext')
      obtain rfl := Except.ok.inj (hvalue.symm.trans hvalue')
      rw [Except.ok.inj (hsettle.symm.trans hsettle')]

/-- A move uses up what is ahead from the front, and the next node first. -/
theorem Moves.ahead {m m' : Moment σ} (h : backend.Moves m m') :
    Stack.ahead m'.stack <:+ Stack.ahead m.stack ∧
      ∀ path node, m.Meets path node → Stack.ahead m'.stack <:+ (Stack.ahead m.stack).tail := by
  -- A moment that meets a node has one before what is ahead after the move; only leaving a
  -- pipeline uses up nothing, and then no node is next.
  have huses : (∃ spot passed, Stack.ahead m.stack = spot :: (passed ++ Stack.ahead m'.stack)) ∨
      (Stack.ahead m'.stack = Stack.ahead m.stack ∧ ∀ path node, ¬ m.Meets path node) := by
    cases h with
    | @run a outer state after c rest inputs v hnext _ _ =>
      refine .inl ⟨(a.pathOf (.component c), .component c), [], ?_⟩
      simp [Stack.ahead, hnext, Node.placed, Node.placedInner, Activation.pathOf]
    | @skip a outer state q rest inputs hnext _ _ =>
      refine .inl ⟨(a.pathOf (.pipeline q), .pipeline q),
        Node.placed (a.pathOf (.pipeline q)) q.children, ?_⟩
      simp [Stack.ahead, hnext, Node.placed, Activation.pathOf]
    | @enter a outer state q rest inputs hnext _ _ =>
      refine .inl ⟨(a.pathOf (.pipeline q), .pipeline q), [], ?_⟩
      simp [Stack.ahead, Stack.aheadAround, hnext, Node.placed, Activation.opened,
        Activation.pathOf]
    | @leave inside a outer state rest value v hdone hnext _ _ =>
      refine .inr ⟨?_, ?_⟩
      · simp [Stack.ahead, Stack.aheadAround, hdone, hnext, Node.placed]
      · rintro path node ⟨top, _, _, hstack, hmeets, -⟩
        obtain ⟨rfl, -⟩ := List.cons.inj hstack
        simp [hdone] at hmeets
  rcases huses with ⟨spot, passed, hahead⟩ | ⟨hahead, hnone⟩
  · have hsuffix : Stack.ahead m'.stack <:+ passed ++ Stack.ahead m'.stack :=
      List.suffix_append _ _
    rw [hahead, List.tail_cons]
    exact ⟨hsuffix.trans (List.suffix_cons _ _), fun _ _ _ => hsuffix⟩
  · rw [hahead]
    exact ⟨List.suffix_rfl, fun path node hmeets => absurd hmeets (hnone path node)⟩

/-- The moments of a run, one after another. -/
def Follows (backend : Backend σ) : Moment σ → Moment σ → Prop :=
  Relation.ReflTransGen backend.Moves

theorem Follows.ahead {m m' : Moment σ} (h : backend.Follows m m') :
    Stack.ahead m'.stack <:+ Stack.ahead m.stack := by
  induction h with
  | refl => exact List.suffix_rfl
  | tail _ hmove ih => exact hmove.ahead.1.trans ih

theorem Reaches.exists_follows {m : Moment σ} (h : backend.Reaches p s m) :
    ∃ inputs, Expr.resolveAll .empty p.inputs = .ok inputs ∧
      backend.Follows ⟨[.opened p.name p inputs], ⟨[], s⟩⟩ m := by
  induction h with
  | start hinputs => exact ⟨_, hinputs, .refl⟩
  | move _ hmove ih =>
    obtain ⟨inputs, hinputs, hfollows⟩ := ih
    exact ⟨inputs, hinputs, hfollows.tail hmove⟩

/-- Of two moments of a run, one follows the other. -/
theorem Reaches.follows_or_follows {m m' : Moment σ} (h : backend.Reaches p s m)
    (h' : backend.Reaches p s m') : backend.Follows m m' ∨ backend.Follows m' m := by
  obtain ⟨inputs, hinputs, hfollows⟩ := h.exists_follows
  obtain ⟨inputs', hinputs', hfollows'⟩ := h'.exists_follows
  obtain rfl := Except.ok.inj (hinputs.symm.trans hinputs')
  have hunique : Relator.RightUnique backend.Moves := fun _ _ _ hmove hmove' =>
    hmove.rightUnique hmove'
  exact Relation.ReflTransGen.total_of_right_unique hunique hfollows hfollows'

/-- A moment that fails does not move on. -/
theorem Fails.not_moves {m m' : Moment σ} {fault : GraphError} {after : RunState σ}
    (h : backend.Fails m fault after) : ¬ backend.Moves m m' := by
  intro hmove
  cases h with
  | input hnext hinputs =>
    cases hmove with
    | run hnext' hinputs' _ | skip hnext' hinputs' _ | enter hnext' hinputs' _ =>
      obtain ⟨rfl, -⟩ := List.cons.inj (hnext.symm.trans hnext')
      cases hinputs.symm.trans hinputs'
    | leave hdone _ _ _ => simp [hnext] at hdone
  | guard hnext hguard =>
    cases hmove with
    | run hnext' _ _ => simp [hnext] at hnext'
    | skip hnext' _ hguard' | enter hnext' _ hguard' =>
      obtain ⟨hq, -⟩ := List.cons.inj (hnext.symm.trans hnext')
      cases hq
      cases hguard.symm.trans hguard'
    | leave hdone _ _ _ => simp [hnext] at hdone
  | run hnext hinputs hrun =>
    cases hmove with
    | run hnext' hinputs' hrun' =>
      obtain ⟨hc, -⟩ := List.cons.inj (hnext.symm.trans hnext')
      cases hc
      obtain rfl := Except.ok.inj (hinputs.symm.trans hinputs')
      cases hrun.symm.trans hrun'
    | skip hnext' _ _ | enter hnext' _ _ => simp [hnext] at hnext'
    | leave hdone _ _ _ => simp [hnext] at hdone
  | result hdone hvalue =>
    cases hmove with
    | run hnext' _ _ | skip hnext' _ _ | enter hnext' _ _ => simp [hdone] at hnext'
    | leave _ _ hvalue' _ => cases hvalue.symm.trans hvalue'
  | settle hdone hvalue hsettle =>
    cases hmove with
    | run hnext' _ _ | skip hnext' _ _ | enter hnext' _ _ => simp [hdone] at hnext'
    | leave _ _ hvalue' hsettle' =>
      obtain rfl := Except.ok.inj (hvalue.symm.trans hvalue')
      cases hsettle.symm.trans hsettle'

/-- The moments of a run that do not move on are one. -/
theorem Reaches.eq_of_not_moves {m m' : Moment σ} (h : backend.Reaches p s m)
    (h' : backend.Reaches p s m') (hlast : ∀ next, ¬ backend.Moves m next)
    (hlast' : ∀ next, ¬ backend.Moves m' next) : m = m' := by
  rcases h.follows_or_follows h' with hfollows | hfollows
  · rcases Relation.ReflTransGen.cases_head hfollows with rfl | ⟨next, hmove, -⟩
    · rfl
    · exact absurd hmove (hlast next)
  · rcases Relation.ReflTransGen.cases_head hfollows with rfl | ⟨next, hmove, -⟩
    · rfl
    · exact absurd hmove (hlast' next)

/-- A run with a moment that fails ends there, with an error of this moment. -/
theorem Reaches.exists_run_eq_error {m : Moment σ} {fault : GraphError} {after : RunState σ}
    (h : backend.Reaches p s m) (hfails : backend.Fails m fault after) :
    ∃ fault' after', backend.run p s = (.error fault', after') ∧ backend.Fails m fault' after' := by
  rcases hrun : backend.run p s with ⟨result, final⟩
  cases result with
  | ok outcome =>
    obtain ⟨a, hreach, rfl, hdone, -, -, hvalue⟩ := reaches_of_run_eq_ok hrun
    have hlast : ∀ next, ¬ backend.Moves ⟨[a], final⟩ next := by
      intro next hmove
      cases hmove with
      | run hnext _ _ | skip hnext _ _ | enter hnext _ _ => simp [hdone] at hnext
    obtain rfl := h.eq_of_not_moves hreach (fun _ => hfails.not_moves) hlast
    cases hfails with
    | input hnext _ | guard hnext _ | run hnext _ _ => simp [hdone] at hnext
    | result _ hvalue' => cases hvalue.symm.trans hvalue'
  | error fault' =>
    obtain ⟨inputs, hinputs, -⟩ := h.exists_follows
    rcases exists_fails_of_run_eq_error hrun with ⟨hnone, -⟩ | ⟨m', hreach, hfails'⟩
    · cases hinputs.symm.trans hnone
    · obtain rfl := h.eq_of_not_moves hreach (fun _ => hfails.not_moves)
        (fun _ => hfails'.not_moves)
      exact ⟨fault', final, rfl, hfails'⟩

/-- A run that comes to a guard without a value ends there, with the error of the guard. -/
theorem Reaches.run_eq_error_of_guard {m : Moment σ} {path : String} {q : Pipeline}
    {condition : Condition} {inputs : Inputs} {fault : GraphError}
    (hreach : backend.Reaches p s m) (hmeets : m.Meets path (.pipeline q))
    (hcondition : q.condition = some condition)
    (hinputs : Expr.resolveAll (Stack.table m.stack) q.inputs = .ok inputs)
    (herror : condition.evaluate (Stack.table m.stack) = .error fault) :
    (backend.run p s).1 = .error fault := by
  obtain ⟨stack, state⟩ := m
  obtain ⟨a, outer, rest, rfl, hnext, -⟩ := hmeets
  have hguard : Condition.holds (Stack.table (a :: outer)) q.condition = .error fault := by
    rw [hcondition]
    exact herror
  obtain ⟨found, after, hrun, hfails⟩ := hreach.exists_run_eq_error (.guard hnext hguard)
  -- The moment fails with no other error: its inputs resolve, and its guard fails in one way.
  have hfault : found = fault := by
    cases hfails with
    | input hnext' hinputs' =>
      obtain ⟨rfl, -⟩ := List.cons.inj (hnext.symm.trans hnext')
      cases hinputs.symm.trans hinputs'
    | guard hnext' hguard' =>
      obtain ⟨hq, -⟩ := List.cons.inj (hnext.symm.trans hnext')
      cases hq
      exact (Except.error.inj (hguard.symm.trans hguard')).symm
    | run hnext' _ _ => simp [hnext] at hnext'
    | result hdone _ => simp [hnext] at hdone
    | settle hdone _ _ => simp [hnext] at hdone
  rw [hrun, hfault]

/-- What is ahead at a moment of a run is the end of what was ahead at its start. -/
theorem Reaches.ahead {m : Moment σ} (h : backend.Reaches p s m) :
    Stack.ahead m.stack <:+ p.placed := by
  induction h with
  | start hinputs =>
    rw [Stack.ahead, Stack.aheadAround, List.append_nil]
    exact List.suffix_rfl
  | move _ hmove ih => exact hmove.ahead.1.trans ih

theorem Follows.eq_of_meets {m m' : Moment σ} (h : backend.Follows m m')
    (hdistinct : ((Stack.ahead m.stack).map Prod.fst).Nodup) {path : String} {node node' : Node}
    (hmeets : m.Meets path node) (hmeets' : m'.Meets path node') : m = m' := by
  rcases Relation.ReflTransGen.cases_head h with rfl | ⟨between, hmove, hfollows⟩
  · rfl
  · -- What is met later was behind the node that is met now, so its path is another one.
    obtain ⟨later, hahead⟩ := hmeets.ahead
    obtain ⟨rest, hrest⟩ := hmeets'.ahead
    have hsuffix := (Follows.ahead hfollows).trans (hmove.ahead.2 path node hmeets)
    rw [hahead, hrest, List.tail_cons] at hsuffix
    have hagain : path ∈ later.map Prod.fst :=
      List.mem_map.mpr ⟨_, hsuffix.subset List.mem_cons_self, rfl⟩
    rw [hahead, List.map_cons, List.nodup_cons] at hdistinct
    exact absurd hagain hdistinct.1

/-- A run of a traced pipeline meets a node at a path at one moment only. -/
theorem Reaches.eq_of_meets {m m' : Moment σ} (h : backend.Reaches p s m)
    (h' : backend.Reaches p s m') (ht : p.Traced) {path : String} {node node' : Node}
    (hmeets : m.Meets path node) (hmeets' : m'.Meets path node') : m = m' := by
  have hdistinct : ∀ {m : Moment σ}, backend.Reaches p s m →
      ((Stack.ahead m.stack).map Prod.fst).Nodup := fun hreach =>
    (hreach.ahead.sublist.map _).nodup ht.nodup_placed
  rcases h.follows_or_follows h' with hfollows | hfollows
  · exact hfollows.eq_of_meets (hdistinct h) hmeets hmeets'
  · exact (hfollows.eq_of_meets (hdistinct h') hmeets' hmeets).symm

/-- In a run, the guard at a path is reached and evaluates to a verdict. -/
inductive Decides (backend : Backend σ) (p : Pipeline) (s : σ) (path : String)
    (verdict : Bool) : Prop where
  | intro {m : Moment σ} {q : Pipeline} {condition : Condition} {inputs : Inputs}
      (hreach : backend.Reaches p s m) (hmeets : m.Meets path (.pipeline q))
      (hcondition : q.condition = some condition)
      (hinputs : Expr.resolveAll (Stack.table m.stack) q.inputs = .ok inputs)
      (hguard : condition.evaluate (Stack.table m.stack) = .ok verdict)

/-- These are the verdicts of the guards that a run evaluates, by path. -/
def Judges (backend : Backend σ) (p : Pipeline) (s : σ) (verdicts : String → Option Bool) :
    Prop :=
  ∀ path verdict, verdicts path = some verdict ↔ backend.Decides p s path verdict

/-- A guard that is reached is evaluated at one moment, and it has one verdict. -/
theorem Decides.iff_of_meets {path : String} {verdict : Bool} {m : Moment σ} {q : Pipeline}
    (ht : p.Traced) (hreach : backend.Reaches p s m) (hmeets : m.Meets path (.pipeline q)) :
    backend.Decides p s path verdict ↔
      ∃ condition inputs, q.condition = some condition ∧
        Expr.resolveAll (Stack.table m.stack) q.inputs = .ok inputs ∧
        condition.evaluate (Stack.table m.stack) = .ok verdict := by
  constructor
  · rintro ⟨hreach', hmeets', hcondition, hinputs, hguard⟩
    obtain rfl := hreach.eq_of_meets hreach' ht hmeets hmeets'
    obtain ⟨later, hahead⟩ := hmeets.ahead
    obtain ⟨later', hahead'⟩ := hmeets'.ahead
    rw [hahead] at hahead'
    cases hahead'
    exact ⟨_, _, hcondition, hinputs, hguard⟩
  · rintro ⟨condition, inputs, hcondition, hinputs, hguard⟩
    exact ⟨hreach, hmeets, hcondition, hinputs, hguard⟩

theorem Decides.unique {path : String} {verdict verdict' : Bool} (ht : p.Traced)
    (h : backend.Decides p s path verdict) (h' : backend.Decides p s path verdict') :
    verdict = verdict' := by
  obtain ⟨hreach, hmeets, hcondition, hinputs, hguard⟩ := h
  obtain ⟨condition', inputs', hcondition', -, hguard'⟩ :=
    (Decides.iff_of_meets ht hreach hmeets).mp h'
  obtain rfl := Option.some.inj (hcondition.symm.trans hcondition')
  exact Except.ok.inj (hguard.symm.trans hguard')

/-- The guards that a run of a traced pipeline evaluates have verdicts by path. -/
theorem exists_judges (backend : Backend σ) (ht : p.Traced) (s : σ) :
    ∃ verdicts, backend.Judges p s verdicts := by
  have hverdict : ∀ path, ∃ found : Option Bool, ∀ verdict,
      found = some verdict ↔ backend.Decides p s path verdict := by
    intro path
    by_cases hdecides : ∃ verdict, backend.Decides p s path verdict
    · obtain ⟨verdict, hverdict⟩ := hdecides
      refine ⟨some verdict, fun other => ?_⟩
      rw [Option.some.injEq]
      constructor
      · rintro rfl
        exact hverdict
      · exact fun hother => hverdict.unique ht hother
    · refine ⟨none, fun other => ?_⟩
      simpa using fun hother => hdecides ⟨other, hother⟩
  choose verdicts hverdicts using hverdict
  exact ⟨verdicts, hverdicts⟩

variable {verdicts : String → Option Bool}

theorem Judges.iff_of_meets {path : String} {verdict : Bool} {m : Moment σ} {q : Pipeline}
    (h : backend.Judges p s verdicts) (ht : p.Traced) (hreach : backend.Reaches p s m)
    (hmeets : m.Meets path (.pipeline q)) :
    verdicts path = some verdict ↔
      ∃ condition inputs, q.condition = some condition ∧
        Expr.resolveAll (Stack.table m.stack) q.inputs = .ok inputs ∧
        condition.evaluate (Stack.table m.stack) = .ok verdict :=
  (h path verdict).trans (Decides.iff_of_meets ht hreach hmeets)

/-- Where the inputs of the next node resolve, its verdict is false exactly if its guard
is. -/
theorem Judges.eq_false_iff {path : String} {m : Moment σ} {q : Pipeline} {inputs : Inputs}
    (h : backend.Judges p s verdicts) (ht : p.Traced) (hreach : backend.Reaches p s m)
    (hmeets : m.Meets path (.pipeline q))
    (hinputs : Expr.resolveAll (Stack.table m.stack) q.inputs = .ok inputs) :
    verdicts path = some false ↔
      Condition.holds (Stack.table m.stack) q.condition = .ok false := by
  rw [h.iff_of_meets ht hreach hmeets]
  cases hcondition : q.condition with
  | none => simp [Condition.holds]
  | some condition => simp [Condition.holds, hinputs]

end Backend

/-- A moment under a function on the states of backends. -/
def Moment.map {σ τ : Type} (f : σ → τ) (m : Moment σ) : Moment τ := ⟨m.stack, m.state.map f⟩

namespace Backend

variable {σ τ : Type} {backend : Backend σ} {other : Backend τ} {f : σ → τ} {p : Pipeline} {s : σ}

theorem MapsTo.moves (h : backend.MapsTo other f) {m m' : Moment σ} (hmove : backend.Moves m m') :
    other.Moves (m.map f) (m'.map f) := by
  cases hmove with
  | @run a outer state after c rest inputs v hnext hinputs hrun =>
    have hrun' : other.execute c inputs (state.map f) = (.ok v, after.map f) := by
      rw [h.execute, hrun]
    have hmove' := Moves.run hnext hinputs hrun'
    exact hmove'
  | skip hnext hinputs hguard => exact .skip hnext hinputs hguard
  | enter hnext hinputs hguard => exact .enter hnext hinputs hguard
  | leave hdone hnext hvalue hsettle => exact .leave hdone hnext hvalue hsettle

theorem MapsTo.exists_moves (h : backend.MapsTo other f) {m : Moment σ} {n : Moment τ}
    (hmove : other.Moves (m.map f) n) : ∃ m', backend.Moves m m' ∧ m'.map f = n := by
  obtain ⟨stack, state⟩ := m
  rcases hsource : Moment.map f ⟨stack, state⟩ with ⟨stack', state'⟩
  rw [hsource] at hmove
  obtain ⟨rfl, rfl⟩ := Moment.mk.inj hsource
  cases hmove with
  | @run a outer _ after c rest inputs v hnext hinputs hrun =>
    rw [h.execute] at hrun
    rcases hexecute : backend.execute c inputs state with ⟨result, final⟩
    rw [hexecute] at hrun
    obtain ⟨rfl, rfl⟩ := Prod.mk.inj hrun
    exact ⟨_, .run hnext hinputs hexecute, rfl⟩
  | skip hnext hinputs hguard => exact ⟨_, .skip hnext hinputs hguard, rfl⟩
  | enter hnext hinputs hguard => exact ⟨_, .enter hnext hinputs hguard, rfl⟩
  | leave hdone hnext hvalue hsettle => exact ⟨_, .leave hdone hnext hvalue hsettle, rfl⟩

theorem MapsTo.reaches (h : backend.MapsTo other f) {m : Moment σ}
    (hreach : backend.Reaches p s m) : other.Reaches p (f s) (m.map f) := by
  induction hreach with
  | start hinputs => exact .start hinputs
  | move _ hmove ih => exact ih.move (h.moves hmove)

theorem MapsTo.exists_reaches (h : backend.MapsTo other f) {n : Moment τ}
    (hreach : other.Reaches p (f s) n) : ∃ m, backend.Reaches p s m ∧ m.map f = n := by
  induction hreach with
  | start hinputs => exact ⟨_, .start hinputs, rfl⟩
  | move _ hmove ih =>
    obtain ⟨m, hreach, rfl⟩ := ih
    obtain ⟨m', hmove', rfl⟩ := h.exists_moves hmove
    exact ⟨m', hreach.move hmove', rfl⟩

/-- Backends of the same answers decide the guards alike. -/
theorem MapsTo.decides_iff (h : backend.MapsTo other f) {path : String} {verdict : Bool} :
    other.Decides p (f s) path verdict ↔ backend.Decides p s path verdict := by
  constructor
  · rintro ⟨hreach, hmeets, hcondition, hinputs, hguard⟩
    obtain ⟨m, hreach', rfl⟩ := h.exists_reaches hreach
    exact ⟨hreach', hmeets, hcondition, hinputs, hguard⟩
  · rintro ⟨hreach, hmeets, hcondition, hinputs, hguard⟩
    exact ⟨h.reaches hreach, hmeets, hcondition, hinputs, hguard⟩

theorem Judges.watched {verdicts : String → Option Bool} (h : backend.Judges p s verdicts) :
    backend.watched.Judges p ([], s) verdicts := fun path verdict =>
  (h path verdict).trans (backend.watched_mapsTo.decides_iff (s := ([], s)))

end Backend

end Dataflow
