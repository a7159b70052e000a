/-
# How tasks are compiled

What a successful compilation consists of: the arguments of a task are those of the
inputs of its node, a nested pipeline is compiled in the scopes around it with one of its
own, and each task is declared for the tasks after it.
-/

import Dataflow.Proofs.Pipeline.Tree
import Dataflow.Proofs.Workflow.Argument

namespace Dataflow.Compile

variable {scopes : Scopes}

/-- An expression compiles in these scopes. -/
def Visible (scopes : Scopes) (e : Expr) : Prop :=
  ∃ compiled reads, argument scopes e = .ok (compiled, reads)

theorem visible_of_arguments {fields : List (String × Expr)} {parts : List (String × Argument)}
    {reads : List Reference} (hcompiled : arguments scopes fields = .ok (parts, reads)) :
    ∀ e ∈ fields.map Prod.snd, Visible scopes e := by
  induction fields generalizing parts reads with
  | nil => simp
  | cons field rest ih =>
    obtain ⟨name, e⟩ := field
    obtain ⟨part, first, others, further, hpart, hothers, -, -⟩ :=
      arguments_cons_eq_ok.mp hcompiled
    intro other hother
    rcases List.mem_cons.mp hother with rfl | hrest
    · exact ⟨part, first, hpart⟩
    · exact ih hothers other hrest

theorem exists_of_namedArguments {exprs : Named Expr} {inputs : Named Argument}
    {reads : List Reference} (hcompiled : namedArguments scopes exprs = .ok (inputs, reads)) :
    ∃ parts, arguments scopes exprs.entries = .ok (parts, reads) ∧ inputs = .ofList parts := by
  unfold namedArguments at hcompiled
  cases hparts : arguments scopes exprs.entries with
  | error fault => simp [hparts] at hcompiled
  | ok found =>
    simp only [hparts, Except.ok.injEq, Prod.mk.injEq] at hcompiled
    exact ⟨found.1, by rw [← hcompiled.2], hcompiled.1.symm⟩

theorem visible_of_namedArguments {exprs : Named Expr} {inputs : Named Argument}
    {reads : List Reference} (hcompiled : namedArguments scopes exprs = .ok (inputs, reads)) :
    ∀ e ∈ exprs.values, Visible scopes e := by
  obtain ⟨parts, hparts, -⟩ := exists_of_namedArguments hcompiled
  exact visible_of_arguments hparts

/-- A return value that compiles is an expression that compiles. -/
theorem argument_of_optionalArgument {e : Expr} {output : Option Argument}
    {reads : List Reference} (hcompiled : optionalArgument scopes (some e) = .ok (output, reads)) :
    ∃ compiled, argument scopes e = .ok (compiled, reads) ∧ output = some compiled := by
  rw [optionalArgument] at hcompiled
  cases hargument : argument scopes e with
  | error fault => simp [hargument] at hcompiled
  | ok found =>
    simp only [hargument, Except.ok.injEq, Prod.mk.injEq] at hcompiled
    exact ⟨found.1, by rw [← hcompiled.2], hcompiled.1.symm⟩

/-- The operands of a guard that compiles are compiled one after the other. -/
theorem arguments_of_whenClause {condition : Condition} {clause : Option WhenClause}
    {reads : List Reference}
    (hcompiled : whenClause scopes (some condition) = .ok (clause, reads)) :
    ∃ left right first further, argument scopes condition.left = .ok (left, first) ∧
      argument scopes condition.right = .ok (right, further) ∧
      clause = some ⟨left, condition.comparator, right⟩ ∧ reads = first ++ further := by
  rw [whenClause] at hcompiled
  cases hleft : argument scopes condition.left with
  | error fault => simp [hleft] at hcompiled
  | ok left =>
    cases hright : argument scopes condition.right with
    | error fault => simp [hleft, hright] at hcompiled
    | ok right =>
      simp only [hleft, hright, Except.ok.injEq, Prod.mk.injEq] at hcompiled
      exact ⟨left.1, right.1, left.2, right.2, rfl, rfl, hcompiled.1.symm, hcompiled.2.symm⟩

/-- A nested pipeline compiles with its guard in the scopes around it, and with its tasks
and its return value in a further scope of its own. -/
theorem exists_of_taskKind_pipeline {q : Pipeline} {kind : TaskKind}
    {clause : Option WhenClause} {reads : List Reference}
    (hcompiled : taskKind scopes (.pipeline q) = .ok (kind, clause, reads)) :
    ∃ guardReads inner innerScopes innerReads output outputReads,
      whenClause scopes q.condition = .ok (clause, guardReads) ∧
      tasks ([] :: scopes) scopes.length q.children = .ok (inner, innerScopes, innerReads) ∧
      optionalArgument innerScopes q.returnValue = .ok (output, outputReads) ∧
      kind = .dag inner output ∧
      reads = guardReads ++ innerReads ++ outside scopes.length outputReads := by
  obtain ⟨name, inputs, children, returnValue, returns, condition⟩ := q
  rw [taskKind] at hcompiled
  cases hclause : whenClause scopes condition with
  | error fault => simp [hclause] at hcompiled
  | ok found =>
    obtain ⟨clause', guardReads⟩ := found
    cases hinner : tasks ([] :: scopes) scopes.length children with
    | error fault => simp [hclause, hinner] at hcompiled
    | ok found =>
      obtain ⟨inner, innerScopes, innerReads⟩ := found
      cases houtput : optionalArgument innerScopes returnValue with
      | error fault => simp [hclause, hinner, houtput] at hcompiled
      | ok found =>
        obtain ⟨output, outputReads⟩ := found
        simp only [hclause, hinner, houtput, Except.ok.injEq, Prod.mk.injEq] at hcompiled
        obtain ⟨rfl, rfl, rfl⟩ := hcompiled
        exact ⟨guardReads, inner, innerScopes, innerReads, output, outputReads,
          rfl, rfl, houtput, rfl, rfl⟩

/-- Tasks compile one after another, each declared for those after it. -/
theorem exists_of_tasks_cons {level : Nat} {child : Node} {rest : List Node}
    {compiled : List Task} {final : Scopes} {reads : List Reference}
    (hcompiled : tasks scopes level (child :: rest) = .ok (compiled, final, reads)) :
    ∃ inputs inputReads kind clause innerReads further furtherReads,
      namedArguments scopes child.inputs = .ok (inputs, inputReads) ∧
      taskKind scopes child = .ok (kind, clause, innerReads) ∧
      tasks (declare child.name scopes) level rest = .ok (further, final, furtherReads) ∧
      compiled = ⟨child.name, kind, inputs, siblings level (inputReads ++ innerReads), clause⟩ ::
        further ∧
      reads = outside level (inputReads ++ innerReads) ++ furtherReads := by
  rw [tasks] at hcompiled
  cases hinputs : namedArguments scopes child.inputs with
  | error fault => simp [hinputs] at hcompiled
  | ok found =>
    obtain ⟨inputs, inputReads⟩ := found
    cases hkind : taskKind scopes child with
    | error fault => simp [hinputs, hkind] at hcompiled
    | ok found =>
      obtain ⟨kind, clause, innerReads⟩ := found
      cases hrest : tasks (declare child.name scopes) level rest with
      | error fault => simp [hinputs, hkind, hrest] at hcompiled
      | ok found =>
        obtain ⟨further, final', furtherReads⟩ := found
        simp only [hinputs, hkind, hrest, Except.ok.injEq, Prod.mk.injEq] at hcompiled
        obtain ⟨rfl, rfl, rfl⟩ := hcompiled
        exact ⟨inputs, inputReads, kind, clause, innerReads, further, furtherReads,
          rfl, rfl, rfl, rfl, rfl⟩

/-- The guard of a node that compiles has operands that compile. -/
theorem visible_of_taskKind {node : Node} {kind : TaskKind} {clause : Option WhenClause}
    {reads : List Reference} (hcompiled : taskKind scopes node = .ok (kind, clause, reads)) :
    ∀ e ∈ node.operands, Visible scopes e := by
  cases node with
  | component c => simp [Node.operands, Node.guard]
  | pipeline q =>
    obtain ⟨guardReads, -, -, -, -, -, hclause, -⟩ := exists_of_taskKind_pipeline hcompiled
    cases hguard : (Node.pipeline q).guard with
    | none =>
      rw [Node.operands_of_guard_eq_none hguard]
      simp
    | some condition =>
      have hcondition : q.condition = some condition := hguard
      rw [hcondition] at hclause
      obtain ⟨left, right, first, further, hleft, hright, -, -⟩ := arguments_of_whenClause hclause
      rw [Node.operands_of_guard_eq_some hguard]
      intro e he
      simp only [List.mem_cons, List.not_mem_nil, or_false] at he
      rcases he with rfl | rfl
      · exact ⟨left, first, hleft⟩
      · exact ⟨right, further, hright⟩

/-- A pipeline that compiles has tasks and a return value that compile. -/
theorem exists_of_compile {p : Pipeline} {w : Workflow} (hcompiled : p.compile = .ok w) :
    ∃ inputs inputReads scopes reads output outputReads,
      namedArguments [[]] p.inputs = .ok (inputs, inputReads) ∧
      tasks [[]] 0 p.children = .ok (w.tasks, scopes, reads) ∧
      optionalArgument scopes p.returnValue = .ok (output, outputReads) ∧
      w = ⟨p.name, inputs, w.tasks, output⟩ := by
  unfold Pipeline.compile at hcompiled
  cases hinputs : namedArguments [[]] p.inputs with
  | error fault => simp [hinputs] at hcompiled
  | ok found =>
    obtain ⟨inputs, inputReads⟩ := found
    cases htasks : tasks [[]] 0 p.children with
    | error fault => simp [hinputs, htasks] at hcompiled
    | ok found =>
      obtain ⟨compiled, scopes, reads⟩ := found
      cases houtput : optionalArgument scopes p.returnValue with
      | error fault => simp [hinputs, htasks, houtput] at hcompiled
      | ok found =>
        obtain ⟨output, outputReads⟩ := found
        simp only [hinputs, htasks, houtput, Except.ok.injEq] at hcompiled
        rw [← hcompiled]
        exact ⟨inputs, inputReads, scopes, reads, output, outputReads, rfl, rfl, houtput, rfl⟩

end Dataflow.Compile
