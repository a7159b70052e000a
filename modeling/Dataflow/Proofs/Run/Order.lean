/-
# The order of a run

Which steps a run takes and which components it calls, and in which order, is read off the
pipeline and the verdicts of its guards: siblings in their order, the nodes of a pipeline
before the pipeline itself, and nothing inside a pipeline whose guard was false. A run goes
through this list from the front, until it fails or comes to its end.
-/

import Dataflow.Proofs.Run.Course
import Dataflow.Proofs.Run.Reference

namespace Dataflow

namespace Node

variable (verdicts : String → Option Bool)

mutual

/-- The steps that a node at a path takes under these verdicts, each with its node. What is
inside a pipeline comes before the pipeline, and a pipeline whose guard is false is only
skipped. -/
def visits (path : String) : Node → List (Step × Node)
  | .component c => [(⟨path, .completed⟩, .component c)]
  | .pipeline ⟨name, inputs, children, returnValue, returns, condition⟩ =>
    if verdicts path = some false then
      [(⟨path, .skipped⟩, .pipeline ⟨name, inputs, children, returnValue, returns, condition⟩)]
    else
      visitsAll path children ++
        [(⟨path, .completed⟩, .pipeline ⟨name, inputs, children, returnValue, returns, condition⟩)]

/-- The steps that the nodes of a pipeline at a path take one after another. -/
def visitsAll (path : String) : List Node → List (Step × Node)
  | [] => []
  | child :: rest => visits (path ++ "/" ++ child.name) child ++ visitsAll path rest

end

variable {verdicts} {path : String}

theorem visits_of_false (q : Pipeline) (hfalse : verdicts path = some false) :
    visits verdicts path (.pipeline q) = [(⟨path, .skipped⟩, .pipeline q)] := by
  obtain ⟨name, inputs, children, returnValue, returns, condition⟩ := q
  rw [visits, if_pos hfalse]

theorem visits_of_ne_false (q : Pipeline) (hnot : verdicts path ≠ some false) :
    visits verdicts path (.pipeline q) =
      visitsAll verdicts path q.children ++ [(⟨path, .completed⟩, .pipeline q)] := by
  obtain ⟨name, inputs, children, returnValue, returns, condition⟩ := q
  rw [visits, if_neg hnot]

mutual

theorem eq_false_of_mem_visits : ∀ (node : Node) {path place : String} {visited : Node},
    (⟨place, .skipped⟩, visited) ∈ visits verdicts path node → verdicts place = some false
  | .component _, _, _, _, hmem => by simp [visits] at hmem
  | .pipeline ⟨_, _, children, _, _, _⟩, path, place, visited, hmem => by
    by_cases hfalse : verdicts path = some false
    · rw [visits_of_false _ hfalse, List.mem_singleton] at hmem
      obtain ⟨hstep, -⟩ := Prod.mk.inj hmem
      obtain ⟨rfl, -⟩ := Step.mk.inj hstep
      exact hfalse
    · rw [visits_of_ne_false _ hfalse, List.mem_append] at hmem
      rcases hmem with hinside | hself
      · exact eq_false_of_mem_visitsAll children hinside
      · simp at hself

/-- Only a pipeline whose guard is false is skipped. -/
theorem eq_false_of_mem_visitsAll : ∀ (nodes : List Node) {path place : String} {visited : Node},
    (⟨place, .skipped⟩, visited) ∈ visitsAll verdicts path nodes → verdicts place = some false
  | [], _, _, _, hmem => by simp [visitsAll] at hmem
  | child :: rest, path, place, visited, hmem => by
    rw [visitsAll, List.mem_append] at hmem
    rcases hmem with hchild | hrest
    · exact eq_false_of_mem_visits child hchild
    · exact eq_false_of_mem_visitsAll rest hrest

end

mutual

theorem subperm_visits : ∀ (node : Node) (path : String),
    List.Subperm ((visits verdicts path node).map fun visit => (visit.1.path, visit.2))
      ((path, node) :: placedInner path node)
  | .component _, _ => List.Subperm.refl _
  | .pipeline ⟨name, inputs, children, returnValue, returns, condition⟩, path => by
    by_cases hfalse : verdicts path = some false
    · rw [visits_of_false _ hfalse]
      exact (List.cons_sublist_cons.mpr (List.nil_sublist _)).subperm
    · rw [visits_of_ne_false _ hfalse, List.map_append]
      exact List.perm_append_singleton _ _ |>.subperm.trans
        ((List.subperm_cons _).mpr (subperm_visitsAll children path))

/-- Every step is that of a node in its place, and every node has at most one. -/
theorem subperm_visitsAll : ∀ (nodes : List Node) (path : String),
    List.Subperm ((visitsAll verdicts path nodes).map fun visit => (visit.1.path, visit.2))
      (placed path nodes)
  | [], _ => List.Subperm.refl _
  | child :: rest, path => by
    rw [visitsAll, List.map_append, placed, ← List.cons_append]
    exact (subperm_visits child _).append (subperm_visitsAll rest path)

end

end Node

/-- The component that a step runs, with its path. -/
def leafOf (visit : Step × Node) : Option (String × Component) :=
  match visit.2 with
  | .component c => some (visit.1.path, c)
  | .pipeline _ => none

namespace Pipeline

variable (p : Pipeline) (verdicts : String → Option Bool)

/-- The steps of the nodes inside a pipeline under these verdicts, in order. -/
def visits : List (Step × Node) := Node.visitsAll verdicts p.name p.children

/-- The leaves inside a pipeline with their paths, depth first and in the order of
declaration, without those below a pipeline whose guard is false. -/
def leaves : List (String × Component) := (p.visits verdicts).filterMap leafOf

variable {p verdicts}

theorem mem_placed_of_mem_leaves {leaf : String × Component} (hmem : leaf ∈ p.leaves verdicts) :
    (leaf.1, .component leaf.2) ∈ p.placed := by
  obtain ⟨⟨step, node⟩, hvisit, hleaf⟩ := List.mem_filterMap.mp hmem
  have hplaced : (step.path, node) ∈ p.placed :=
    (Node.subperm_visitsAll p.children p.name).subset (List.mem_map.mpr ⟨_, hvisit, rfl⟩)
  cases node with
  | component c =>
    obtain rfl := Option.some.inj hleaf
    exact hplaced
  | pipeline q => cases hleaf

theorem Traced.nodup_visits (ht : p.Traced) :
    ((p.visits verdicts).map fun visit => visit.1.path).Nodup := by
  have hsubperm : List.Subperm
      ((p.visits verdicts).map fun visit => (visit.1.path, visit.2)) p.placed :=
    Node.subperm_visitsAll p.children p.name
  obtain ⟨all, hperm, hsublist⟩ := hsubperm
  have hpaths : (all.map Prod.fst).Nodup := (hsublist.map Prod.fst).nodup ht.nodup_placed
  have hvisits := (hperm.map Prod.fst).nodup_iff.mp hpaths
  rwa [List.map_map] at hvisits

theorem Traced.nodup_leaves (ht : p.Traced) : ((p.leaves verdicts).map Prod.fst).Nodup := by
  have hpaths : ∀ visits : List (Step × Node), ((visits.filterMap leafOf).map Prod.fst).Sublist
      (visits.map fun visit => visit.1.path) := by
    intro visits
    induction visits with
    | nil => exact List.Sublist.refl _
    | cons visit rest ih =>
      obtain ⟨step, node⟩ := visit
      cases node with
      | component c => exact ih.cons_cons _
      | pipeline q => exact ih.cons _
  exact (hpaths _).nodup ht.nodup_visits

end Pipeline

namespace Stack

variable (verdicts : String → Option Bool)

/-- The steps that are left after the innermost open pipeline has nothing ahead. -/
def visitsAround : Activation → Stack → List (Step × Node)
  | _, [] => []
  | inside, a :: outer =>
    (⟨inside.path, .completed⟩, .pipeline inside.pipeline) ::
      (Node.visitsAll verdicts a.path a.future.tail ++ visitsAround a outer)

/-- The steps that are left while these pipelines are open. -/
def visitsLeft : Stack → List (Step × Node)
  | [] => []
  | a :: outer => Node.visitsAll verdicts a.path a.future ++ visitsAround verdicts a outer

variable {verdicts}

theorem visitsAround_pass (a : Activation) (node : Node) (value : Option Value)
    (rest : List Node) (outer : Stack) :
    visitsAround verdicts (a.pass node value rest) outer = visitsAround verdicts a outer := by
  cases outer <;> rfl

/-- The next node is visited first, then what is left when it is passed. -/
theorem visitsLeft_next {a : Activation} {outer : Stack} {node : Node} {rest : List Node}
    (hnext : a.future = node :: rest) (value : Option Value) :
    visitsLeft verdicts (a :: outer) =
      Node.visits verdicts (a.pathOf node) node ++
        visitsLeft verdicts (a.pass node value rest :: outer) := by
  rw [visitsLeft, visitsLeft, hnext, Node.visitsAll, visitsAround_pass, List.append_assoc]
  rfl

end Stack

namespace Backend

variable {σ : Type} {backend : Backend σ} {p : Pipeline} {s : σ} {verdicts : String → Option Bool}

/-- A node that is met is placed at its path. -/
theorem Reaches.mem_placed_of_meets {m : Moment σ} (h : backend.Reaches p s m) {path : String}
    {node : Node} (hmeets : m.Meets path node) : (path, node) ∈ p.placed := by
  obtain ⟨a, outer, rest, hstack, hnext, rfl⟩ := hmeets
  have ha : a ∈ m.stack := by simp [hstack]
  have hahead : node ∈ a.future := by simp [hnext]
  exact h.openIn.mem_placed a ha node ((h.openIn.walks a ha).mem_of_future hahead)

/-- One moment is reached from another by taking these steps: they are noted, and their
components are called and answer. -/
structure Takes (m m' : Moment (List Call × σ)) (visits : List (Step × Node)) : Prop where
  /-- The steps are noted. -/
  steps : m'.state.steps = m.state.steps ++ visits.map Prod.fst
  /-- The components of the steps are called. -/
  calls : m'.state.backend.1.map Call.component =
    m.state.backend.1.map Call.component ++ (visits.filterMap leafOf).map Prod.snd
  /-- Every new call is answered. -/
  answered : ∀ call ∈ m'.state.backend.1,
    call ∈ m.state.backend.1 ∨ ∃ raw, call.answer = .ok raw

/-- A move takes the steps that come first among those that are left. -/
theorem Reaches.exists_takes {m m' : Moment (List Call × σ)}
    (hreach : backend.watched.Reaches p ([], s) m) (hmove : backend.watched.Moves m m')
    (ht : p.Traced) (hverdicts : backend.Judges p s verdicts) :
    ∃ visits, Stack.visitsLeft verdicts m.stack = visits ++ Stack.visitsLeft verdicts m'.stack ∧
      Takes m m' visits := by
  have hopen := hreach.openIn
  cases hmove with
  | @run a outer state after c rest inputs v hnext hinputs hrun =>
    obtain ⟨answer, hcalls, hanswer⟩ := calls_of_execute_watched hrun
    have hsteps := steps_of_execute hrun
    refine ⟨[(⟨a.pathOf (.component c), .completed⟩, .component c)],
      Stack.visitsLeft_next hnext (some v), ⟨?_, ?_, ?_⟩⟩
    · simp [RunState.note, hsteps]
    · simp [RunState.note, hcalls, leafOf]
    · intro call hcall
      simp only [RunState.note, hcalls] at hcall
      rcases List.mem_append.mp hcall with hbefore | hnew
      · exact .inl hbefore
      · rw [List.mem_singleton.mp hnew]
        cases answer with
        | error fault => cases hanswer
        | ok raw => exact .inr ⟨raw, rfl⟩
  | @skip a outer state q rest inputs hnext hinputs hguard =>
    have hmeets : Moment.Meets ⟨a :: outer, state⟩ _ _ := Moment.meets_of_next hnext
    have hfalse := (hverdicts.watched.eq_false_iff ht hreach hmeets hinputs).mpr hguard
    refine ⟨[(⟨a.pathOf (.pipeline q), .skipped⟩, .pipeline q)], ?_,
      ⟨rfl, ?_, fun call hcall => .inl hcall⟩⟩
    · rw [Stack.visitsLeft_next hnext none, Node.visits_of_false q hfalse]
    · simp [RunState.note, leafOf]
  | @enter a outer state q rest inputs hnext hinputs hguard =>
    have hmeets : Moment.Meets ⟨a :: outer, state⟩ _ _ := Moment.meets_of_next hnext
    have hnot : verdicts (a.pathOf (.pipeline q)) ≠ some false := by
      rw [Ne, hverdicts.watched.eq_false_iff ht hreach hmeets hinputs, hguard]
      simp
    refine ⟨[], ?_, ⟨by simp, by simp, fun call hcall => .inl hcall⟩⟩
    rw [List.nil_append, Stack.visitsLeft_next hnext none, Node.visits_of_ne_false q hnot]
    simp [Stack.visitsLeft, Stack.visitsAround_pass, Stack.visitsAround, Activation.opened, hnext]
  | @leave inside a outer state rest value v hdone hnext hvalue hsettle =>
    cases hopen with
    | nested _ _ hpath _ =>
      refine ⟨[(⟨inside.path, .completed⟩, .pipeline inside.pipeline)], ?_,
        ⟨?_, ?_, fun call hcall => .inl hcall⟩⟩
      · simp [Stack.visitsLeft, Stack.visitsAround, Stack.visitsAround_pass, hdone, hnext,
          Node.visitsAll]
      · simp [RunState.note, hpath]
      · simp [RunState.note, leafOf]

/-- How far a run has come: the steps that it has taken and those that are left make up the
whole list, it has called the components of the steps taken, and each has answered. -/
structure Progress (verdicts : String → Option Bool) (p : Pipeline) (m : Moment (List Call × σ))
    (taken : List (Step × Node)) : Prop where
  /-- The steps taken and those left are all steps. -/
  all : p.visits verdicts = taken ++ Stack.visitsLeft verdicts m.stack
  /-- The steps are noted. -/
  steps : m.state.steps = taken.map Prod.fst
  /-- The components of the steps are called. -/
  calls : m.state.backend.1.map Call.component = (taken.filterMap leafOf).map Prod.snd
  /-- Every call is answered. -/
  answered : ∀ call ∈ m.state.backend.1, ∃ raw, call.answer = .ok raw

/-- At every moment, a run has taken the steps from the front of the list. -/
theorem Reaches.exists_progress {m : Moment (List Call × σ)}
    (hreach : backend.watched.Reaches p ([], s) m) (ht : p.Traced)
    (hverdicts : backend.Judges p s verdicts) : ∃ taken, Progress verdicts p m taken := by
  induction hreach with
  | start hinputs =>
    refine ⟨[], ?_, rfl, rfl, by simp⟩
    simp [Stack.visitsLeft, Stack.visitsAround, Activation.opened, Pipeline.visits]
  | move hreach hmove ih =>
    obtain ⟨taken, hprogress⟩ := ih
    obtain ⟨visits, hleft, htakes⟩ := hreach.exists_takes hmove ht hverdicts
    refine ⟨taken ++ visits, ?_, ?_, ?_, ?_⟩
    · rw [hprogress.all, hleft, List.append_assoc]
    · rw [htakes.steps, hprogress.steps, List.map_append]
    · rw [htakes.calls, hprogress.calls, List.filterMap_append, List.map_append]
    · intro call hcall
      rcases htakes.answered call hcall with hbefore | hanswer
      · exact hprogress.answered call hbefore
      · exact hanswer

/-- The nodes that are skipped are those whose guard is reached and evaluates to false. -/
theorem skipped_mem_visits_iff (ht : p.Traced) (hverdicts : backend.Judges p s verdicts)
    {path : String} : (⟨path, .skipped⟩ : Step) ∈ (p.visits verdicts).map Prod.fst ↔
      backend.Decides p s path false := by
  constructor
  · intro hmem
    obtain ⟨⟨step, node⟩, hvisit, rfl⟩ := List.mem_map.mp hmem
    exact (hverdicts path false).mp (Node.eq_false_of_mem_visitsAll p.children hvisit)
  · intro hdecides
    have hfalse := (hverdicts path false).mpr hdecides
    have hwatched : backend.watched.Decides p ([], s) path false :=
      (hverdicts.watched path false).mp hfalse
    obtain ⟨hreach, ⟨a, outer, rest, hstack, hnext, rfl⟩, -, -, -⟩ := hwatched
    obtain ⟨taken, hprogress⟩ := hreach.exists_progress ht hverdicts
    rw [hprogress.all, hstack, Stack.visitsLeft_next hnext none, Node.visits_of_false _ hfalse]
    simp

/-- What the calls of a run are: a beginning of the leaves, and whenever one fails, it is the
last and the run fails with it. -/
structure CallsInOrder (leaves : List (String × Component)) (calls : List Call)
    (result : Except GraphError RunOutcome) : Prop where
  /-- The components that are called are the first leaves. -/
  isPrefix : calls.map Call.component <+: leaves.map Prod.snd
  /-- A call that fails is the last one, and the run fails with its error. -/
  aborts : ∀ before call after fault, calls = before ++ call :: after →
    call.answer = .error fault → after = [] ∧ result = .error fault

theorem Progress.callsInOrder {m : Moment (List Call × σ)} {taken : List (Step × Node)}
    (h : Progress verdicts p m taken) (result : Except GraphError RunOutcome) :
    CallsInOrder (p.leaves verdicts) m.state.backend.1 result := by
  constructor
  · rw [h.calls, Pipeline.leaves, h.all, List.filterMap_append, List.map_append]
    exact List.prefix_append _ _
  · intro before call after fault hsplit hfails
    have hmem : call ∈ m.state.backend.1 := by simp [hsplit]
    obtain ⟨raw, hanswer⟩ := h.answered call hmem
    simp [hanswer] at hfails

/-- One more call, of the next component, is in order as well. -/
theorem Progress.callsInOrder_next {a : Activation} {outer : Stack}
    {state : RunState (List Call × σ)} {taken : List (Step × Node)}
    (h : Progress verdicts p ⟨a :: outer, state⟩ taken) {c : Component} {rest : List Node}
    (hnext : a.future = .component c :: rest) {inputs : Inputs}
    {answer : Except GraphError Value} {result : Except GraphError RunOutcome}
    (hresult : ∀ fault, answer = .error fault → result = .error fault) :
    CallsInOrder (p.leaves verdicts) (state.backend.1 ++ [⟨c, inputs, answer⟩]) result := by
  constructor
  · rw [List.map_append, h.calls, Pipeline.leaves, h.all, Stack.visitsLeft_next hnext none,
      Node.visits]
    simp [leafOf]
  · intro before call after fault hsplit hfails
    rcases List.eq_nil_or_concat after with rfl | ⟨others, last, rfl⟩
    · have hlast := List.append_inj_right' hsplit rfl
      rw [← List.singleton_inj.mp hlast] at hfails
      exact ⟨rfl, hresult fault hfails⟩
    · -- A call before the last one has been answered.
      have hinit : state.backend.1 = before ++ call :: others := by
        have hconcat : state.backend.1 ++ [⟨c, inputs, answer⟩] =
            (before ++ call :: others) ++ [last] := by simp [hsplit]
        exact List.append_inj_left' hconcat rfl
      have hmem : call ∈ state.backend.1 := by simp [hinit]
      obtain ⟨raw, hanswer⟩ := h.answered call hmem
      simp [hanswer] at hfails

theorem callsInOrder_run (ht : p.Traced) (hverdicts : backend.Judges p s verdicts) :
    CallsInOrder (p.leaves verdicts) (backend.calls p s) (backend.run p s).1 := by
  rw [backend.run_watched p s, calls]
  rcases hrun : backend.watched.run p ([], s) with ⟨result, after⟩
  cases result with
  | ok outcome =>
    obtain ⟨a, hreach, -⟩ := reaches_of_run_eq_ok hrun
    obtain ⟨taken, hprogress⟩ := hreach.exists_progress ht hverdicts
    exact hprogress.callsInOrder _
  | error fault =>
    rcases exists_fails_of_run_eq_error hrun with ⟨-, rfl⟩ | ⟨m, hreach, hfails⟩
    · exact ⟨List.nil_prefix, by simp⟩
    · obtain ⟨taken, hprogress⟩ := hreach.exists_progress ht hverdicts
      cases hfails with
      | run hnext hinputs hexecute =>
        obtain ⟨answer, hcalls, hresult⟩ := calls_of_execute_watched hexecute
        rw [hcalls]
        refine hprogress.callsInOrder_next hnext ?_
        rintro found rfl
        exact congrArg Except.error (Except.error.inj hresult)
      | input _ _ => exact hprogress.callsInOrder _
      | guard _ _ => exact hprogress.callsInOrder _
      | result _ _ => exact hprogress.callsInOrder _
      | settle _ _ _ => exact hprogress.callsInOrder _

/-- A run that succeeds calls all leaves and takes all steps. -/
theorem steps_of_run_eq_ok (ht : p.Traced) (hverdicts : backend.Judges p s verdicts)
    {outcome : RunOutcome} (hrun : (backend.run p s).1 = .ok outcome) :
    (backend.calls p s).map Call.component = (p.leaves verdicts).map Prod.snd ∧
      outcome.steps = (p.visits verdicts).map Prod.fst := by
  rw [backend.run_watched p s] at hrun
  rw [calls]
  rcases hwatched : backend.watched.run p ([], s) with ⟨result, after⟩
  rw [hwatched] at hrun
  obtain rfl : result = .ok outcome := hrun
  obtain ⟨a, hreach, -, hdone, -, hsteps, -⟩ := reaches_of_run_eq_ok hwatched
  obtain ⟨taken, hprogress⟩ := hreach.exists_progress ht hverdicts
  have hall : p.visits verdicts = taken := by
    simpa [Stack.visitsLeft, Stack.visitsAround, hdone, Node.visitsAll] using hprogress.all
  refine ⟨?_, ?_⟩
  · rw [Pipeline.leaves, hall]
    exact hprogress.calls
  · rw [hsteps, hall]
    exact hprogress.steps

/-- A run of a traced pipeline calls its leaves depth first and in the order of declaration,
without those below a pipeline whose guard evaluated to false. Each leaf is at its own path
and is called at most once, and a call that fails is the last one and gives the error of the
run. A run that succeeds calls all of these leaves, and its steps are those of the list, at
distinct paths. The pipelines that it skips are those whose guard evaluated to false. -/
theorem calls_steps_in_order (backend : Backend σ) (ht : p.Traced) (s : σ) :
    ∃ verdicts, backend.Judges p s verdicts ∧
      ((p.leaves verdicts).map Prod.fst).Nodup ∧
      (∀ leaf ∈ p.leaves verdicts, (leaf.1, .component leaf.2) ∈ p.placed) ∧
      CallsInOrder (p.leaves verdicts) (backend.calls p s) (backend.run p s).1 ∧
      ∀ outcome, (backend.run p s).1 = .ok outcome →
        (backend.calls p s).map Call.component = (p.leaves verdicts).map Prod.snd ∧
        outcome.steps = (p.visits verdicts).map Prod.fst ∧
        (outcome.steps.map Step.path).Nodup ∧
        ∀ path, ⟨path, .skipped⟩ ∈ outcome.steps ↔ backend.Decides p s path false := by
  obtain ⟨verdicts, hverdicts⟩ := backend.exists_judges ht s
  refine ⟨verdicts, hverdicts, ht.nodup_leaves, fun _ => Pipeline.mem_placed_of_mem_leaves,
    callsInOrder_run ht hverdicts, ?_⟩
  intro outcome hrun
  obtain ⟨hcalls, hsteps⟩ := steps_of_run_eq_ok ht hverdicts hrun
  rw [hsteps]
  refine ⟨hcalls, rfl, ?_, fun path => skipped_mem_visits_iff ht hverdicts⟩
  rw [List.map_map]
  exact ht.nodup_visits

end Backend

namespace Branching

/-- A text. -/
def text : Component := echoed "text" (.literal (.string "hello"))

/-- The pipeline of a node that is not to run. -/
def refused : Pipeline :=
  ⟨"condition", .empty, [.component (echoed "second" text.expr)], none, none,
    some ⟨text.expr, .literal (.string "bye"), .equal⟩⟩

/-- The pipeline of a node that is to run, before the other pipeline. -/
def admitted : Pipeline :=
  ⟨"condition", .empty, [.component (echoed "first" text.expr), .pipeline refused], none, none,
    some ⟨text.expr, .literal (.string "hello"), .equal⟩⟩

/-- The root pipeline. -/
def root : Pipeline := ⟨"main", .empty, [.component text, .pipeline admitted], none, none, none⟩

theorem root_traced : root.Traced := by
  refine ⟨Unit, .invoke ⟨"main", some "main", [], none⟩ [], fun _ => do
    let text ← .call (echo "text") [("text", .literal (.string "hello"))]
    let _ ← .guardedBy text.expr (.literal (.string "hello")) .equal do
      let _ ← .call (echo "first") [("text", text.expr)]
      let _ ← .guardedBy text.expr (.literal (.string "bye")) .equal do
        let _ ← .call (echo "second") [("text", text.expr)]
        return ()
      return ()
    return none,
    .start { Settings.default with suffixLength := 0 } ⟨fun _ => 0, 0⟩, (), ?_⟩
  rfl

/-- The run enters the first guarded pipeline and skips the one in it. -/
theorem run_root : ∃ outcome, (Backend.inProcess.run root ()).1 = .ok outcome ∧
    outcome.steps = [⟨"main/text", .completed⟩, ⟨"main/condition/first", .completed⟩,
      ⟨"main/condition/condition", .skipped⟩, ⟨"main/condition", .completed⟩] :=
  ⟨_, rfl, rfl⟩

end Branching

/-- A run that enters one guarded pipeline and skips another one in it is in order. -/
theorem calls_steps_in_order_branching :
    Branching.root.Traced ∧ ∃ verdicts outcome,
      Backend.inProcess.Judges Branching.root () verdicts ∧
      (Backend.inProcess.run Branching.root ()).1 = .ok outcome ∧
      Backend.CallsInOrder (Branching.root.leaves verdicts)
        (Backend.inProcess.calls Branching.root ()) (.ok outcome) ∧
      (Branching.root.visits verdicts).map Prod.fst =
        [⟨"main/text", .completed⟩, ⟨"main/condition/first", .completed⟩,
          ⟨"main/condition/condition", .skipped⟩, ⟨"main/condition", .completed⟩] := by
  obtain ⟨verdicts, hverdicts, -, -, hcalls, hall⟩ :=
    Backend.inProcess.calls_steps_in_order Branching.root_traced ()
  obtain ⟨outcome, hrun, hsteps⟩ := Branching.run_root
  rw [hrun] at hcalls
  refine ⟨Branching.root_traced, verdicts, outcome, hverdicts, hrun, hcalls, ?_⟩
  rw [← (hall outcome hrun).2.1, hsteps]

end Dataflow
