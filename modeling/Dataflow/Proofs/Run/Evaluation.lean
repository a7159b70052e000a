/-
# What nodes evaluate to

If what a backend answers depends on the component and its inputs alone, what a node
gives depends on the table that it starts from. `Node.Evaluates` says so without a state:
the nodes of a pipeline have values by name, and each of them is evaluated in the table
that the ones before it leave. A run of such a backend succeeds exactly if its nodes
evaluate, and takes the steps of the evaluation.
-/

import Dataflow.Proofs.Pipeline.Tree
import Dataflow.Proofs.Run.Machine

namespace Dataflow

namespace ValueTable

/-- The table after a node, which has a value or was skipped. -/
def settle (table : ValueTable) (name : String) : Option Value → ValueTable
  | none => table
  | some v => table.insert name v

/-- The table after nodes with these values, one after another. -/
def settleAll (table : ValueTable) (values : String → Option Value) (names : List String) :
    ValueTable :=
  names.foldl (fun built name => built.settle name (values name)) table

variable {table : ValueTable} {values values' : String → Option Value}

@[simp]
theorem settleAll_nil : table.settleAll values [] = table := rfl

@[simp]
theorem settleAll_cons (name : String) (names : List String) :
    table.settleAll values (name :: names) =
      (table.settle name (values name)).settleAll values names := rfl

theorem settleAll_append (first second : List String) :
    table.settleAll values (first ++ second) =
      (table.settleAll values first).settleAll values second :=
  List.foldl_append

/-- A node changes the table under its own name alone, and only if it has a value. -/
theorem get?_settle (table : ValueTable) (name : String) (value : Option Value)
    (sought : String) :
    (table.settle name value).get? sought =
      if sought = name then value.or (table.get? sought) else table.get? sought := by
  cases value with
  | none =>
    rw [Option.none_or, ite_self]
    rfl
  | some v =>
    by_cases hsame : sought = name
    · rw [if_pos hsame, hsame]
      exact Named.get?_insert_self table name v
    · rw [if_neg hsame]
      exact Named.get?_insert_of_ne table v hsame

/-- After many nodes, what stands under the name of one of them is its value, if it has
one. -/
theorem get?_settleAll (table : ValueTable) (values : String → Option Value)
    (names : List String) (sought : String) :
    (table.settleAll values names).get? sought =
      if sought ∈ names then (values sought).or (table.get? sought) else table.get? sought := by
  induction names generalizing table with
  | nil => simp
  | cons name rest ih =>
    rw [settleAll_cons, ih, get?_settle]
    by_cases hsame : sought = name
    · subst hsame
      cases values sought <;> simp
    · simp [hsame]

/-- The order of the nodes does not matter for what stands under a name. -/
theorem get?_settleAll_congr {table' : ValueTable} {names names' : List String} {sought : String}
    (hagree : table.get? sought = table'.get? sought) (hmem : sought ∈ names ↔ sought ∈ names') :
    (table.settleAll values names).get? sought = (table'.settleAll values names').get? sought := by
  rw [get?_settleAll, get?_settleAll, hagree]
  by_cases hsought : sought ∈ names
  · rw [if_pos hsought, if_pos (hmem.mp hsought)]
  · rw [if_neg hsought, if_neg (fun hother => hsought (hmem.mpr hother))]

theorem settleAll_congr {names : List String}
    (hvalues : ∀ name ∈ names, values name = values' name) :
    table.settleAll values names = table.settleAll values' names := by
  induction names generalizing table with
  | nil => rfl
  | cons name rest ih =>
    rw [settleAll_cons, settleAll_cons, hvalues name List.mem_cons_self]
    exact ih fun other hother => hvalues other (List.mem_cons_of_mem _ hother)

end ValueTable

/-- The steps of nodes at a path: what each of them does inside, then its own step. -/
def Step.ofNodes (path : String) (values : String → Option Value) (inside : String → List Step)
    (names : List String) : List Step :=
  names.flatMap fun name => inside name ++ [⟨path ++ "/" ++ name, .ofValue (values name)⟩]

theorem Step.ofNodes_cons (path : String) (values : String → Option Value)
    (inside : String → List Step) (name : String) (names : List String) :
    ofNodes path values inside (name :: names) =
      inside name ++ [⟨path ++ "/" ++ name, .ofValue (values name)⟩] ++
        ofNodes path values inside names := by
  rw [ofNodes, List.flatMap_cons]
  rfl

theorem Step.ofNodes_congr {path : String} {values values' : String → Option Value}
    {inside inside' : String → List Step} {names : List String}
    (hvalues : ∀ name ∈ names, values name = values' name)
    (hinside : ∀ name ∈ names, inside name = inside' name) :
    ofNodes path values inside names = ofNodes path values' inside' names := by
  unfold ofNodes
  apply List.flatMap_congr
  intro name hname
  rw [hvalues name hname, hinside name hname]

/-- What holds of every element of a list with the elements before it. -/
theorem forall_split_cons {α : Type} {first : α} {rest : List α} {holds : List α → α → Prop} :
    (∀ before other after, first :: rest = before ++ other :: after → holds before other) ↔
      holds [] first ∧ ∀ before other after, rest = before ++ other :: after →
        holds (first :: before) other := by
  constructor
  · intro hall
    refine ⟨hall [] first rest rfl, ?_⟩
    rintro before other after rfl
    exact hall (first :: before) other after rfl
  · rintro ⟨hfirst, hrest⟩ before other after hsplit
    cases before with
    | nil =>
      obtain ⟨rfl, -⟩ := List.cons.inj hsplit
      exact hfirst
    | cons head before =>
      rw [List.cons_append, List.cons.injEq] at hsplit
      obtain ⟨rfl, hsplit⟩ := hsplit
      exact hrest before other after hsplit

namespace Node

variable (answer : Component → Inputs → Except GraphError Value)

/-- A node at a path gives a value or is skipped, starting from a table, and takes these
steps inside. -/
inductive Evaluates : Node → String → ValueTable → Option Value → List Step → Prop where
  | component {c : Component} {path : String} {table : ValueTable} {inputs : Inputs}
      {raw v : Value}
      (hinputs : Expr.resolveAll table c.inputs = .ok inputs)
      (hanswer : answer c inputs = .ok raw)
      (hvalue : reconstruct c.name c.returns raw = .ok v) :
      Evaluates (.component c) path table (some v) []
  | skipped {q : Pipeline} {path : String} {table : ValueTable} {inputs : Inputs}
      (hinputs : Expr.resolveAll table q.inputs = .ok inputs)
      (hguard : Condition.holds table q.condition = .ok false) :
      Evaluates (.pipeline q) path table none []
  /-- A pipeline gives its settled return value, once each of its nodes has been evaluated
  in the table that the ones before it leave. -/
  | pipeline {q : Pipeline} {path : String} {table : ValueTable} {inputs : Inputs}
      {values : String → Option Value} {inside : String → List Step} {value : Option Value}
      {v : Value}
      (hinputs : Expr.resolveAll table q.inputs = .ok inputs)
      (hguard : Condition.holds table q.condition = .ok true)
      (hchildren : ∀ before child after, q.children = before ++ child :: after →
        Evaluates child (path ++ "/" ++ child.name)
          (ValueTable.settleAll (table.merge inputs) values (before.map name))
          (values child.name) (inside child.name))
      (hresult : Expr.resolveOption
        (ValueTable.settleAll (table.merge inputs) values (q.children.map name))
        q.returnValue = .ok value)
      (hvalue : q.settle value = .ok v) :
      Evaluates (.pipeline q) path table (some v)
        (Step.ofNodes path values inside (q.children.map name))

/-- Nodes at a path have these values, each of them in the table that the ones before it
leave, and take these steps inside. -/
def EvaluateAll (nodes : List Node) (path : String) (table : ValueTable)
    (values : String → Option Value) (inside : String → List Step) : Prop :=
  ∀ before child after, nodes = before ++ child :: after →
    Evaluates answer child (path ++ "/" ++ child.name)
      (table.settleAll values (before.map name)) (values child.name) (inside child.name)

variable {answer}

/-- A node evaluated before others of other names. -/
theorem EvaluateAll.cons {child : Node} {rest : List Node} {path : String} {table : ValueTable}
    {value : Option Value} {steps : List Step} {values : String → Option Value}
    {inside : String → List Step} (hnew : child.name ∉ rest.map name)
    (hchild : Evaluates answer child (path ++ "/" ++ child.name) table value steps)
    (hrest : EvaluateAll answer rest path (table.settle child.name value) values inside) :
    EvaluateAll answer (child :: rest) path table (Function.update values child.name value)
      (Function.update inside child.name steps) := by
  refine forall_split_cons.mpr ⟨?_, ?_⟩
  · rw [Function.update_self, Function.update_self]
    exact hchild
  · rintro before other after rfl
    have hother : other.name ≠ child.name :=
      ne_of_mem_of_not_mem (List.mem_map_of_mem (by simp)) hnew
    have hbefore : child.name ∉ before.map name := by
      intro hmem
      rw [List.map_append] at hnew
      exact hnew (List.mem_append_left _ hmem)
    have hvalues : ∀ sought ∈ before.map name,
        Function.update values child.name value sought = values sought := fun sought hsought =>
      Function.update_of_ne (ne_of_mem_of_not_mem hsought hbefore) _ _
    rw [List.map_cons, ValueTable.settleAll_cons, Function.update_self,
      ValueTable.settleAll_congr hvalues, Function.update_of_ne hother,
      Function.update_of_ne hother]
    exact hrest before other after rfl

end Node

namespace Backend

variable {σ : Type} {backend : Backend σ} {answer : Component → Inputs → Except GraphError Value}

/-- What the backend answers to a component depends on its inputs alone. -/
def Answers (backend : Backend σ) (answer : Component → Inputs → Except GraphError Value) :
    Prop :=
  ∀ c inputs s, (backend.runComponent c inputs s).1 = answer c inputs

/-- A component gives a value exactly if the answer is one that can be reconstructed. -/
theorem Answers.execute_eq_ok (hanswers : backend.Answers answer) {c : Component}
    {inputs : Inputs} {state : RunState σ} {v : Value} :
    (∃ after, backend.execute c inputs state = (.ok v, after)) ↔
      ∃ raw, answer c inputs = .ok raw ∧ reconstruct c.name c.returns raw = .ok v := by
  have hanswer := hanswers c inputs state.backend
  unfold execute
  rcases hcomponent : backend.runComponent c inputs state.backend with ⟨result, after⟩
  rw [hcomponent] at hanswer
  cases result with
  | error fault => simp [← hanswer]
  | ok raw => simp [← hanswer]

/-- A component that is run gives the value that its execution gives. -/
theorem runNode_component_eq_ok {c : Component} {path : String} {table : ValueTable}
    {state after : RunState σ} {value : Option Value} :
    backend.runNode (.component c) path table state = (.ok value, after) ↔
      ∃ inputs v, Expr.resolveAll table c.inputs = .ok inputs ∧
        backend.execute c inputs state = (.ok v, after) ∧ value = some v := by
  rw [runNode]
  cases Expr.resolveAll table c.inputs with
  | error fault => simp
  | ok inputs =>
    rcases hexecute : backend.execute c inputs state with ⟨result, final⟩
    cases result with
    | error fault => simp [hexecute]
    | ok v =>
      simp only [hexecute, Prod.mk.injEq, Except.ok.injEq]
      constructor
      · rintro ⟨rfl, rfl⟩
        exact ⟨inputs, v, rfl, hexecute, rfl⟩
      · rintro ⟨_, w, rfl, hgives, rfl⟩
        rw [hexecute, Prod.mk.injEq, Except.ok.injEq] at hgives
        exact ⟨congrArg some hgives.1, hgives.2⟩

/-- A pipeline that is run gives its return value, resolved in the table that its nodes
leave. -/
theorem runPipeline_eq_ok {q : Pipeline} {path : String} {table final : ValueTable}
    {state after : RunState σ} {value : Option Value} :
    backend.runPipeline q path table state = (.ok (value, final), after) ↔
      backend.runChildren q.children path table state = (.ok final, after) ∧
        Expr.resolveOption final q.returnValue = .ok value := by
  obtain ⟨name, given, children, returnValue, returns, condition⟩ := q
  rw [runPipeline]
  rcases backend.runChildren children path table state with ⟨result, between⟩
  cases result with
  | error fault => simp
  | ok built =>
    cases hvalue : Expr.resolveOption built returnValue with
    | error fault =>
      simp only [hvalue, Prod.mk.injEq, reduceCtorEq, false_and, false_iff, Except.ok.injEq]
      rintro ⟨⟨rfl, -⟩, hother⟩
      cases hvalue.symm.trans hother
    | ok found =>
      simp only [hvalue, Prod.mk.injEq, Except.ok.injEq]
      constructor
      · rintro ⟨⟨rfl, rfl⟩, rfl⟩
        exact ⟨⟨rfl, rfl⟩, hvalue⟩
      · rintro ⟨⟨rfl, rfl⟩, hother⟩
        exact ⟨⟨Except.ok.inj (hvalue.symm.trans hother), rfl⟩, rfl⟩

/-- A nested pipeline that is run is skipped, or gives its settled return value. -/
theorem runNode_pipeline_eq_ok {q : Pipeline} {path : String} {table : ValueTable}
    {state after : RunState σ} {value : Option Value} :
    backend.runNode (.pipeline q) path table state = (.ok value, after) ↔
      ∃ inputs, Expr.resolveAll table q.inputs = .ok inputs ∧
        ((Condition.holds table q.condition = .ok false ∧ value = none ∧ after = state) ∨
          Condition.holds table q.condition = .ok true ∧
            ∃ found final v,
              backend.runPipeline q path (table.merge inputs) state = (.ok (found, final), after) ∧
              q.settle found = .ok v ∧ value = some v) := by
  rw [runNode]
  cases Expr.resolveAll table q.inputs with
  | error fault => simp
  | ok inputs =>
    cases Condition.holds table q.condition with
    | error fault => simp
    | ok holds =>
      cases holds with
      | false => simp [eq_comm]
      | true =>
        rcases hinside : backend.runPipeline q path (table.merge inputs) state
          with ⟨result, between⟩
        cases result with
        | error fault => simp [hinside]
        | ok built =>
          obtain ⟨found, final⟩ := built
          cases hsettle : q.settle found with
          | error fault => simp [hinside, hsettle]
          | ok v => simp [hinside, hsettle, eq_comm, and_comm]

/-- Nodes run one after another, each in the table that the ones before it left. -/
theorem runChildren_cons_eq_ok {child : Node} {rest : List Node} {path : String}
    {table final : ValueTable} {state after : RunState σ} :
    backend.runChildren (child :: rest) path table state = (.ok final, after) ↔
      ∃ value between,
        backend.runNode child (path ++ "/" ++ child.name) table state = (.ok value, between) ∧
        backend.runChildren rest path (table.settle child.name value)
          (between.note (path ++ "/" ++ child.name) (.ofValue value)) = (.ok final, after) := by
  rw [runChildren]
  rcases hchild : backend.runNode child (path ++ "/" ++ child.name) table state
    with ⟨result, between⟩
  cases result with
  | error fault => simp
  | ok value =>
    simp only [Prod.mk.injEq, Except.ok.injEq]
    constructor
    · intro hrest
      refine ⟨value, between, ⟨rfl, rfl⟩, ?_⟩
      cases value with
      | none => exact hrest
      | some v => exact hrest
    · rintro ⟨_, _, ⟨rfl, rfl⟩, hrest⟩
      cases value with
      | none => exact hrest
      | some v => exact hrest

/-- A run succeeds exactly if the arguments resolve, the nodes run one after another and the
return value resolves in the table that they leave. -/
theorem run_eq_ok {p : Pipeline} {s : σ} {outcome : RunOutcome} {after : RunState σ} :
    backend.run p s = (.ok outcome, after) ↔
      ∃ inputs, Expr.resolveAll .empty p.inputs = .ok inputs ∧
        backend.runPipeline p p.name (Named.merge .empty inputs) ⟨[], s⟩ =
          (.ok (outcome.value, outcome.values), after) ∧
        outcome.steps = after.steps := by
  obtain ⟨value, values, steps⟩ := outcome
  rw [run]
  cases Expr.resolveAll .empty p.inputs with
  | error fault => simp
  | ok inputs =>
    rcases hroot : backend.runPipeline p p.name (Named.merge .empty inputs) ⟨[], s⟩
      with ⟨result, final⟩
    cases result with
    | error fault => simp [hroot]
    | ok built =>
      obtain ⟨found, built⟩ := built
      simp only [hroot, Prod.mk.injEq, Except.ok.injEq, RunOutcome.mk.injEq]
      constructor
      · rintro ⟨⟨rfl, rfl, rfl⟩, rfl⟩
        exact ⟨inputs, rfl, hroot, rfl⟩
      · rintro ⟨_, rfl, hinside, rfl⟩
        rw [hroot, Prod.mk.injEq, Except.ok.injEq, Prod.mk.injEq] at hinside
        obtain ⟨⟨rfl, rfl⟩, rfl⟩ := hinside
        exact ⟨⟨rfl, rfl, rfl⟩, rfl⟩

mutual

/-- What a run of a node gives is what the node evaluates to, and its steps are those of
the evaluation. -/
theorem evaluates_of_runNode (hanswers : backend.Answers answer) : ∀ (node : Node)
    {path : String} {table : ValueTable} {state after : RunState σ} {value : Option Value},
    (node.inner.map Node.name).Nodup →
    backend.runNode node path table state = (.ok value, after) →
      ∃ steps, Node.Evaluates answer node path table value steps ∧
        after.steps = state.steps ++ steps
  | .component c, path, table, state, after, value, _, hrun => by
    obtain ⟨inputs, v, hinputs, hexecute, rfl⟩ := runNode_component_eq_ok.mp hrun
    obtain ⟨raw, hanswer, hvalue⟩ := hanswers.execute_eq_ok.mp ⟨after, hexecute⟩
    refine ⟨[], .component hinputs hanswer hvalue, ?_⟩
    rw [List.append_nil]
    exact steps_of_execute hexecute
  | .pipeline ⟨name, given, children, returnValue, returns, condition⟩, path, table, state,
    after, value, hdistinct, hrun => by
    obtain ⟨inputs, hinputs, hentered⟩ := runNode_pipeline_eq_ok.mp hrun
    rcases hentered with ⟨hguard, rfl, rfl⟩ | ⟨hguard, found, final, v, hinside, hvalue, rfl⟩
    · exact ⟨[], .skipped hinputs hguard, (List.append_nil _).symm⟩
    · obtain ⟨hchildren, hresult⟩ := runPipeline_eq_ok.mp hinside
      obtain ⟨values, inside, hall, rfl, hsteps⟩ :=
        evaluateAll_of_runChildren hanswers children hdistinct hchildren
      exact ⟨_, .pipeline hinputs hguard hall hresult hvalue, hsteps⟩

/-- A run of nodes with distinct names evaluates them one after another. -/
theorem evaluateAll_of_runChildren (hanswers : backend.Answers answer) : ∀ (nodes : List Node)
    {path : String} {table final : ValueTable} {state after : RunState σ},
    ((Node.listed nodes).map Node.name).Nodup →
    backend.runChildren nodes path table state = (.ok final, after) →
      ∃ values inside, Node.EvaluateAll answer nodes path table values inside ∧
        final = table.settleAll values (nodes.map Node.name) ∧
        after.steps = state.steps ++ Step.ofNodes path values inside (nodes.map Node.name)
  | [], path, table, final, state, after, _, hrun => by
    rw [runChildren, Prod.mk.injEq, Except.ok.injEq] at hrun
    obtain ⟨rfl, rfl⟩ := hrun
    refine ⟨fun _ => none, fun _ => [], ?_, rfl, (List.append_nil _).symm⟩
    intro before child rest hsplit
    simp at hsplit
  | child :: rest, path, table, final, state, after, hdistinct, hrun => by
    simp only [Node.listed, List.map_cons, List.map_append, List.nodup_cons,
      List.mem_append, not_or] at hdistinct
    obtain ⟨⟨-, hlater⟩, hboth⟩ := hdistinct
    obtain ⟨hinner, hlisted, -⟩ := List.nodup_append.mp hboth
    have hnew : child.name ∉ rest.map Node.name := fun hmem =>
      hlater (List.map_subset _ (Node.subset_listed rest) hmem)
    obtain ⟨value, between, hchild, hrest⟩ := runChildren_cons_eq_ok.mp hrun
    obtain ⟨steps, heval, hsteps⟩ := evaluates_of_runNode hanswers child hinner hchild
    obtain ⟨values, inside, hall, hfinal, hafter⟩ :=
      evaluateAll_of_runChildren hanswers rest hlisted hrest
    have hvalues : ∀ sought ∈ rest.map Node.name,
        Function.update values child.name value sought = values sought := fun sought hmem =>
      Function.update_of_ne (ne_of_mem_of_not_mem hmem hnew) _ _
    have hinside : ∀ sought ∈ rest.map Node.name,
        Function.update inside child.name steps sought = inside sought := fun sought hmem =>
      Function.update_of_ne (ne_of_mem_of_not_mem hmem hnew) _ _
    refine ⟨_, _, hall.cons hnew heval, ?_, ?_⟩
    · rw [List.map_cons, ValueTable.settleAll_cons, Function.update_self,
        ValueTable.settleAll_congr hvalues]
      exact hfinal
    · rw [List.map_cons, Step.ofNodes_cons, Function.update_self, Function.update_self,
        Step.ofNodes_congr hvalues hinside, hafter]
      simp [RunState.note, hsteps]

end

/-- From every state, a run of a node gives this value and takes these steps. -/
def Performs (backend : Backend σ) (node : Node) (path : String) (table : ValueTable)
    (value : Option Value) (steps : List Step) : Prop :=
  ∀ state, ∃ after, backend.runNode node path table state = (.ok value, after) ∧
    after.steps = state.steps ++ steps

/-- Nodes that each perform in the table that the ones before them leave run one after
another. -/
theorem exists_runChildren_of_performs {nodes : List Node} {path : String} {table : ValueTable}
    {values : String → Option Value} {inside : String → List Step}
    (hall : ∀ before child after, nodes = before ++ child :: after →
      backend.Performs child (path ++ "/" ++ child.name)
        (table.settleAll values (before.map Node.name)) (values child.name) (inside child.name))
    {ahead behind : List Node} (hsplit : nodes = behind ++ ahead) (state : RunState σ) :
    ∃ after, backend.runChildren ahead path (table.settleAll values (behind.map Node.name)) state =
        (.ok (table.settleAll values (nodes.map Node.name)), after) ∧
      after.steps = state.steps ++ Step.ofNodes path values inside (ahead.map Node.name) := by
  induction ahead generalizing behind state with
  | nil =>
    refine ⟨state, ?_, (List.append_nil _).symm⟩
    rw [runChildren, hsplit, List.append_nil]
  | cons child rest ih =>
    obtain ⟨between, hchild, hsteps⟩ := hall behind child rest hsplit state
    have hbehind : table.settleAll values ((behind ++ [child]).map Node.name) =
        (table.settleAll values (behind.map Node.name)).settle child.name (values child.name) := by
      rw [List.map_append, ValueTable.settleAll_append]
      rfl
    have hrest : nodes = (behind ++ [child]) ++ rest := by simp [hsplit]
    obtain ⟨after, hrun, hafter⟩ := ih hrest
      (between.note (path ++ "/" ++ child.name) (.ofValue (values child.name)))
    refine ⟨after, ?_, ?_⟩
    · rw [hbehind] at hrun
      exact runChildren_cons_eq_ok.mpr ⟨_, between, hchild, hrun⟩
    · rw [hafter, List.map_cons, Step.ofNodes_cons]
      simp [RunState.note, hsteps]

/-- What a node evaluates to is what a run of it gives, from every state. -/
theorem Answers.performs (hanswers : backend.Answers answer) {node : Node} {path : String}
    {table : ValueTable} {value : Option Value} {steps : List Step}
    (heval : Node.Evaluates answer node path table value steps) :
    backend.Performs node path table value steps := by
  induction heval with
  | @component c path table inputs raw v hinputs hanswer hvalue =>
    intro state
    have hgives : ∃ after, backend.execute c inputs state = (.ok v, after) :=
      hanswers.execute_eq_ok.mpr ⟨raw, hanswer, hvalue⟩
    obtain ⟨after, hexecute⟩ := hgives
    refine ⟨after, ?_, ?_⟩
    · exact runNode_component_eq_ok.mpr ⟨inputs, v, hinputs, hexecute, rfl⟩
    · rw [List.append_nil]
      exact steps_of_execute hexecute
  | skipped hinputs hguard =>
    intro state
    refine ⟨state, ?_, (List.append_nil _).symm⟩
    exact runNode_pipeline_eq_ok.mpr ⟨_, hinputs, .inl ⟨hguard, rfl, rfl⟩⟩
  | @pipeline q path table inputs values inside value v hinputs hguard _ hresult hvalue ih =>
    intro state
    obtain ⟨after, hrun, hsteps⟩ :=
      exists_runChildren_of_performs ih (List.nil_append q.children).symm state
    have hpipeline := runPipeline_eq_ok.mpr ⟨hrun, hresult⟩
    refine ⟨after, ?_, hsteps⟩
    exact runNode_pipeline_eq_ok.mpr
      ⟨inputs, hinputs, .inr ⟨hguard, value, _, v, hpipeline, hvalue, rfl⟩⟩

end Backend

end Dataflow
