/-
# What the dependencies of a task leave out

Every task that is read is read at the level of the innermost pipeline that declares it.
The siblings among the tasks that a node reads, at any depth inside it, are exactly the
dependencies of its task; whatever else it reads is handed on to the pipeline around. So
tables that agree on the tasks that are read give the same inputs, guards and results.
-/

import Dataflow.Proofs.Condition
import Dataflow.Proofs.Workflow.Tasks

namespace Dataflow

namespace ValueTable

/-- Two tables hold the same under each of these names. -/
def AgreeOn (table table' : ValueTable) (names : List String) : Prop :=
  ∀ name ∈ names, table.get? name = table'.get? name

variable {table table' : ValueTable}

theorem AgreeOn.mono {names names' : List String} (hagree : AgreeOn table table' names)
    (hsubset : names' ⊆ names) : AgreeOn table table' names' :=
  fun name hname => hagree name (hsubset hname)

theorem agreeOn_append {names names' : List String} :
    AgreeOn table table' (names ++ names') ↔
      AgreeOn table table' names ∧ AgreeOn table table' names' :=
  List.forall_mem_append

/-- Tables that agree still do so when the same arguments are put into them. -/
theorem AgreeOn.merge {names : List String} (hagree : AgreeOn table table' names)
    (inputs : Inputs) : AgreeOn (Named.merge table inputs) (Named.merge table' inputs) names :=
  fun name hname => Named.get?_insertAll_congr inputs.entries (hagree name hname)

end ValueTable

namespace Compile

variable {scopes outer : Scopes} {scope : List String} {name : String} {level : Nat}

theorem lt_length_of_levelOf? (hlevel : levelOf? name scopes = some level) :
    level < scopes.length := by
  induction scopes with
  | nil => cases hlevel
  | cons scope outer ih =>
    rw [levelOf?] at hlevel
    rw [List.length_cons]
    split at hlevel
    · rw [← Option.some.inj hlevel]
      exact Nat.lt_succ_self _
    · exact Nat.lt_succ_of_lt (ih hlevel)

theorem mem_flatten_of_levelOf? (hlevel : levelOf? name scopes = some level) :
    name ∈ scopes.flatten := by
  induction scopes with
  | nil => cases hlevel
  | cons scope outer ih =>
    rw [levelOf?] at hlevel
    rw [List.flatten_cons, List.mem_append]
    split at hlevel
    · rename_i hcontains
      exact .inl (List.contains_iff_mem.mp hcontains)
    · exact .inr (ih hlevel)

/-- A name is declared by the innermost scope, at its level, or by one around it, at a
lower one. -/
theorem cases_of_levelOf?_cons (hlevel : levelOf? name (scope :: outer) = some level) :
    (level = outer.length ∧ name ∈ scope) ∨
      (level < outer.length ∧ levelOf? name outer = some level) := by
  rw [levelOf?] at hlevel
  split at hlevel
  · rename_i hcontains
    exact .inl ⟨(Option.some.inj hlevel).symm, List.contains_iff_mem.mp hcontains⟩
  · exact .inr ⟨lt_length_of_levelOf? hlevel, hlevel⟩

/-- Each of these tasks is read at the level of the innermost scope that declares it. -/
def ReadIn (scopes : Scopes) (reads : List Reference) : Prop :=
  ∀ read ∈ reads, levelOf? read.task scopes = some read.level

/-- What is read outside of the innermost scope is read in the scopes around it. -/
theorem ReadIn.outside {reads : List Reference} (hreads : ReadIn (scope :: outer) reads) :
    ReadIn outer (outside outer.length reads) := by
  intro read hread
  rw [Compile.outside, List.mem_filter, decide_eq_true_eq] at hread
  rcases cases_of_levelOf?_cons (hreads read hread.1) with ⟨hlevel, -⟩ | ⟨-, houter⟩
  · exact absurd hlevel (Nat.ne_of_lt hread.2)
  · exact houter

theorem ReadIn.append {first further : List Reference} (hfirst : ReadIn scopes first)
    (hfurther : ReadIn scopes further) : ReadIn scopes (first ++ further) := by
  intro read hread
  rcases List.mem_append.mp hread with hmem | hmem
  · exact hfirst read hmem
  · exact hfurther read hmem

/-- The siblings that are read are the tasks that are read at the level of the
pipeline. -/
theorem mem_siblings {reads : List Reference} :
    name ∈ siblings level reads ↔ ⟨level, name⟩ ∈ reads := by
  rw [siblings, Expr.mem_firstOccurrences, List.mem_map]
  constructor
  · rintro ⟨read, hread, rfl⟩
    rw [List.mem_filter, beq_iff_eq] at hread
    rw [← hread.2]
    exact hread.1
  · intro hread
    exact ⟨⟨level, name⟩, List.mem_filter.mpr ⟨hread, beq_self_eq_true level⟩, rfl⟩

theorem readIn_of_readFor {refs : List NodeRef} {reads : List Reference}
    (hreads : List.Forall₂ (ReadFor scopes) refs reads) : ReadIn scopes reads := by
  induction hreads with
  | nil => exact fun read hread => absurd hread List.not_mem_nil
  | cons hfirst _ ih =>
    intro read hread
    rcases List.mem_cons.mp hread with rfl | hrest
    · rw [hfirst.1]
      exact hfirst.2
    · exact ih read hrest

theorem readIn_of_namedArguments {exprs : Named Expr} {inputs : Named Argument}
    {reads : List Reference} (hcompiled : namedArguments scopes exprs = .ok (inputs, reads)) :
    ReadIn scopes reads := by
  obtain ⟨parts, hparts, -⟩ := exists_of_namedArguments hcompiled
  exact readIn_of_readFor (reads_of_arguments _ hparts)

theorem readIn_of_optionalArgument {result : Option Expr} {output : Option Argument}
    {reads : List Reference} (hcompiled : optionalArgument scopes result = .ok (output, reads)) :
    ReadIn scopes reads := by
  cases result with
  | none =>
    rw [optionalArgument, Except.ok.injEq, Prod.mk.injEq] at hcompiled
    rw [← hcompiled.2]
    exact fun read hread => absurd hread List.not_mem_nil
  | some e =>
    obtain ⟨compiled, hargument, -⟩ := argument_of_optionalArgument hcompiled
    exact readIn_of_readFor (reads_of_argument e hargument)

theorem readIn_of_whenClause {guard : Option Condition} {clause : Option WhenClause}
    {reads : List Reference} (hcompiled : whenClause scopes guard = .ok (clause, reads)) :
    ReadIn scopes reads := by
  cases guard with
  | none =>
    rw [whenClause, Except.ok.injEq, Prod.mk.injEq] at hcompiled
    rw [← hcompiled.2]
    exact fun read hread => absurd hread List.not_mem_nil
  | some condition =>
    obtain ⟨left, right, first, further, hleft, hright, -, rfl⟩ :=
      arguments_of_whenClause hcompiled
    exact (readIn_of_readFor (reads_of_argument _ hleft)).append
      (readIn_of_readFor (reads_of_argument _ hright))

mutual

/-- What a node reads, it reads in the scopes that it is compiled in, however deep inside
it the reading is. -/
theorem readIn_of_taskKind : ∀ (node : Node) {scopes : Scopes} {kind : TaskKind}
    {clause : Option WhenClause} {reads : List Reference},
    taskKind scopes node = .ok (kind, clause, reads) → ReadIn scopes reads
  | .component c, scopes, kind, clause, reads, hcompiled => by
    rw [taskKind, Except.ok.injEq, Prod.mk.injEq, Prod.mk.injEq] at hcompiled
    rw [← hcompiled.2.2]
    exact fun read hread => absurd hread List.not_mem_nil
  | .pipeline ⟨name, given, children, returnValue, returns, condition⟩, scopes, kind, clause,
    reads, hcompiled => by
    obtain ⟨guardReads, inner, innerScopes, innerReads, output, outputReads, hclause, hinner,
      houtput, -, rfl⟩ := exists_of_taskKind_pipeline hcompiled
    obtain ⟨hread, rfl⟩ := readIn_of_tasks children hinner
    have hresult := (readIn_of_optionalArgument houtput).outside
    exact ((readIn_of_whenClause hclause).append hread).append hresult

/-- What the nodes of a pipeline read outside of it, they read in the scopes around it.
After them all of them are declared. -/
theorem readIn_of_tasks : ∀ (nodes : List Node) {scope : List String} {outer : Scopes}
    {compiled : List Task} {final : Scopes} {reads : List Reference},
    tasks (scope :: outer) outer.length nodes = .ok (compiled, final, reads) →
      ReadIn outer reads ∧ final = (scope ++ nodes.map Node.name) :: outer
  | [], scope, outer, compiled, final, reads, hcompiled => by
    rw [tasks, Except.ok.injEq, Prod.mk.injEq, Prod.mk.injEq] at hcompiled
    rw [← hcompiled.2.1, ← hcompiled.2.2, List.map_nil, List.append_nil]
    exact ⟨fun read hread => absurd hread List.not_mem_nil, rfl⟩
  | child :: rest, scope, outer, compiled, final, reads, hcompiled => by
    obtain ⟨inputs, inputReads, kind, clause, innerReads, further, furtherReads, hinputs, hkind,
      hrest, -, rfl⟩ := exists_of_tasks_cons hcompiled
    obtain ⟨hread, rfl⟩ := readIn_of_tasks rest hrest
    have hchild := (readIn_of_namedArguments hinputs).append (readIn_of_taskKind child hkind)
    exact ⟨hchild.outside.append hread, by simp⟩

end

variable {table table' : ValueTable}

/-- Tables that agree on what is read agree on the references that it is read for. -/
theorem agree_of_readFor {refs : List NodeRef} {reads : List Reference}
    (hreads : List.Forall₂ (ReadFor scopes) refs reads)
    (hagree : table.AgreeOn table' (reads.map Reference.task)) :
    ∀ ref ∈ refs, table.get? ref.name = table'.get? ref.name := by
  intro ref href
  obtain ⟨read, hread, hname, -⟩ := exists_readFor hreads href
  rw [← hname]
  exact hagree _ (List.mem_map_of_mem hread)

/-- Tables that agree on what an expression reads give it one result. -/
theorem resolve_congr_of_argument {e : Expr} {compiled : Argument} {reads : List Reference}
    (hcompiled : argument scopes e = .ok (compiled, reads))
    (hagree : table.AgreeOn table' (reads.map Reference.task)) :
    e.resolve table = e.resolve table' :=
  Expr.resolve_congr e (agree_of_readFor (reads_of_argument e hcompiled) hagree)

theorem resolveAll_congr_of_namedArguments {exprs : Named Expr} {inputs : Named Argument}
    {reads : List Reference} (hcompiled : namedArguments scopes exprs = .ok (inputs, reads))
    (hagree : table.AgreeOn table' (reads.map Reference.task)) :
    Expr.resolveAll table exprs = Expr.resolveAll table' exprs := by
  obtain ⟨parts, hparts, -⟩ := exists_of_namedArguments hcompiled
  have hrefs := agree_of_readFor (reads_of_arguments _ hparts) hagree
  rw [Expr.resolveAll, Expr.resolveAll, Expr.resolveFields_congr exprs.entries hrefs]

theorem resolveOption_congr_of_optionalArgument {result : Option Expr}
    {output : Option Argument} {reads : List Reference}
    (hcompiled : optionalArgument scopes result = .ok (output, reads))
    (hagree : table.AgreeOn table' (reads.map Reference.task)) :
    Expr.resolveOption table result = Expr.resolveOption table' result := by
  cases result with
  | none => rfl
  | some e =>
    obtain ⟨compiled, hargument, -⟩ := argument_of_optionalArgument hcompiled
    rw [Expr.resolveOption, Expr.resolveOption, resolve_congr_of_argument hargument hagree]

theorem holds_congr_of_whenClause {guard : Option Condition} {clause : Option WhenClause}
    {reads : List Reference} (hcompiled : whenClause scopes guard = .ok (clause, reads))
    (hagree : table.AgreeOn table' (reads.map Reference.task)) :
    Condition.holds table guard = Condition.holds table' guard := by
  cases guard with
  | none => rfl
  | some condition =>
    obtain ⟨left, right, first, further, hleft, hright, -, rfl⟩ :=
      arguments_of_whenClause hcompiled
    rw [List.map_append] at hagree
    rw [Condition.holds, Condition.holds, Condition.evaluate_eq, Condition.evaluate_eq,
      resolve_congr_of_argument hleft (hagree.mono (List.subset_append_left _ _)),
      resolve_congr_of_argument hright (hagree.mono (List.subset_append_right _ _))]

end Compile

end Dataflow
