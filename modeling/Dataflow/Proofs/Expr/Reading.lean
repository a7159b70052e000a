/-
# What the resolution of an expression reads

Resolving an expression looks up the nodes that it refers to, and nothing else: two
tables that agree on these give one result. A successful resolution found every one
of them. A failed resolution always reports a name that has no value.
-/

import Dataflow.Expr.Resolve
import Dataflow.Proofs.Named

namespace Dataflow.Expr

variable {table : ValueTable}

theorem mem_firstOccurrences {sought : String} {names : List String} :
    sought ∈ firstOccurrences names ↔ sought ∈ names := by
  induction names with
  | nil => rfl
  | cons name rest ih =>
    by_cases hsame : sought = name
    · simp [firstOccurrences, hsame]
    · simp [firstOccurrences, hsame, ih]

/-- A field resolves to what stands under its name in the record of its parent. -/
theorem resolve_field_eq_ok {parent : Expr} {name : String} {w : Value} :
    (Expr.field parent name).resolve table = .ok w ↔
      ∃ fields, parent.resolve table = .ok (.record fields) ∧ fields.get? name = some w := by
  rw [resolve]
  cases hparent : parent.resolve table with
  | error fault => simp
  | ok v =>
    cases v with
    | record fields => cases hget : fields.get? name <;> simp [fieldOf, hget]
    | boolean b | integer i | float x | string s => simp [fieldOf]

/-- An element resolves to what stands at its position in the record of its parent. -/
theorem resolve_index_eq_ok {parent : Expr} {position : Nat} {w : Value} :
    (Expr.index parent position).resolve table = .ok w ↔
      ∃ fields name, parent.resolve table = .ok (.record fields) ∧
        fields.entryAt? position = some (name, w) := by
  rw [resolve]
  cases hparent : parent.resolve table with
  | error fault => simp
  | ok v =>
    cases v with
    | record fields =>
      cases hentry : fields.entryAt? position with
      | none => simp [elementOf, hentry]
      | some entry =>
        obtain ⟨name, found⟩ := entry
        simp [elementOf, hentry]
    | boolean b | integer i | float x | string s => simp [elementOf]

theorem resolve_record_eq_ok {fields : List (String × Expr)} {w : Value} :
    (Expr.record ⟨fields⟩).resolve table = .ok w ↔
      ∃ values, resolveFields table fields = .ok values ∧ w = .record (.ofList values) := by
  rw [resolve]
  cases resolveFields table fields with
  | error fault => simp
  | ok values => simp [eq_comm]

/-- Fields resolve one after another. -/
theorem resolveFields_cons_eq_ok {name : String} {e : Expr} {rest : List (String × Expr)}
    {values : List (String × Value)} :
    resolveFields table ((name, e) :: rest) = .ok values ↔
      ∃ v others, e.resolve table = .ok v ∧ resolveFields table rest = .ok others ∧
        values = (name, v) :: others := by
  rw [resolveFields]
  cases e.resolve table with
  | error fault => simp
  | ok v => cases resolveFields table rest <;> simp [Except.map, eq_comm]

/-- Named expressions resolve to the inputs that their values make. -/
theorem resolveAll_eq_ok {exprs : Named Expr} {inputs : Inputs} :
    resolveAll table exprs = .ok inputs ↔
      ∃ values, resolveFields table exprs.entries = .ok values ∧ inputs = .ofList values := by
  unfold resolveAll
  cases resolveFields table exprs.entries <;> simp [Except.map, eq_comm]

theorem map_fst_of_resolveFields {fields : List (String × Expr)} {values : List (String × Value)}
    (hvalues : resolveFields table fields = .ok values) :
    values.map Prod.fst = fields.map Prod.fst := by
  induction fields generalizing values with
  | nil =>
    simp only [resolveFields, Except.ok.injEq] at hvalues
    rw [← hvalues, List.map_nil, List.map_nil]
  | cons field rest ih =>
    obtain ⟨v, others, -, hrest, rfl⟩ := resolveFields_cons_eq_ok.mp hvalues
    simp [ih hrest]

mutual

/-- Tables that agree on what an expression reads give it one result. -/
theorem resolve_congr {table' : ValueTable} : ∀ e : Expr,
    (∀ ref ∈ e.references, table.get? ref.name = table'.get? ref.name) →
      e.resolve table = e.resolve table'
  | .literal _, _ => rfl
  | .node ref, hagree => by
    have hget := hagree ref (by simp [references])
    simp [resolve, ValueTable.lookup, hget]
  | .field parent _, hagree => by
    rw [resolve, resolve, resolve_congr parent hagree]
  | .index parent _, hagree => by
    rw [resolve, resolve, resolve_congr parent hagree]
  | .record ⟨fields⟩, hagree => by
    rw [resolve, resolve, resolveFields_congr fields hagree]

theorem resolveFields_congr {table' : ValueTable} : ∀ fields : List (String × Expr),
    (∀ ref ∈ fieldReferences fields, table.get? ref.name = table'.get? ref.name) →
      resolveFields table fields = resolveFields table' fields
  | [], _ => rfl
  | (_, e) :: rest, hagree => by
    simp only [fieldReferences, List.mem_append] at hagree
    rw [resolveFields, resolveFields, resolve_congr e fun ref href => hagree ref (.inl href),
      resolveFields_congr rest fun ref href => hagree ref (.inr href)]

end

mutual

/-- A node that a resolved expression reads has a value. -/
theorem isSome_get?_of_resolve : ∀ (e : Expr) {v : Value}, e.resolve table = .ok v →
    ∀ ref ∈ e.references, (table.get? ref.name).isSome
  | .literal _, _, _ => by simp [references]
  | .node ref, v, hresolve => by
    intro read hread
    obtain rfl : read = ref := by simpa [references] using hread
    cases hget : table.get? read.name with
    | none => simp [resolve, ValueTable.lookup, hget] at hresolve
    | some w => rfl
  | .field parent _, _, hresolve => by
    obtain ⟨fields, hparent, -⟩ := resolve_field_eq_ok.mp hresolve
    exact isSome_get?_of_resolve parent hparent
  | .index parent _, _, hresolve => by
    obtain ⟨fields, name, hparent, -⟩ := resolve_index_eq_ok.mp hresolve
    exact isSome_get?_of_resolve parent hparent
  | .record ⟨fields⟩, _, hresolve => by
    obtain ⟨values, hvalues, -⟩ := resolve_record_eq_ok.mp hresolve
    exact isSome_get?_of_resolveFields fields hvalues

theorem isSome_get?_of_resolveFields : ∀ (fields : List (String × Expr))
    {values : List (String × Value)}, resolveFields table fields = .ok values →
      ∀ ref ∈ fieldReferences fields, (table.get? ref.name).isSome
  | [], _, _ => by simp [fieldReferences]
  | (_, e) :: rest, _, hresolve => by
    obtain ⟨v, others, hv, hothers, -⟩ := resolveFields_cons_eq_ok.mp hresolve
    intro ref href
    rcases List.mem_append.mp href with hfirst | hrest
    · exact isSome_get?_of_resolve e hv ref hfirst
    · exact isSome_get?_of_resolveFields rest hothers ref hrest

end

/-- A field that cannot be taken is reported as a name without value. -/
theorem eq_nameNotProduced_of_fieldOf {path name : String} {v : Value} {fault : GraphError}
    (herror : fieldOf path name v = .error fault) : fault = .nameNotProduced path := by
  unfold fieldOf at herror
  split at herror
  · split at herror
    · cases herror
    · exact (Except.error.inj herror).symm
  · exact (Except.error.inj herror).symm

theorem eq_nameNotProduced_of_elementOf {path : String} {position : Nat} {v : Value}
    {fault : GraphError} (herror : elementOf path position v = .error fault) :
    fault = .nameNotProduced path := by
  unfold elementOf at herror
  split at herror
  · split at herror
    · cases herror
    · exact (Except.error.inj herror).symm
  · exact (Except.error.inj herror).symm

mutual

/-- A failed resolution reports a name without value. -/
theorem exists_nameNotProduced_of_resolve : ∀ (e : Expr) {fault : GraphError},
    e.resolve table = .error fault → ∃ name, fault = .nameNotProduced name
  | .literal _, _, herror => by simp [resolve] at herror
  | .node ref, _, herror => by
    rw [resolve, ValueTable.lookup] at herror
    split at herror
    · cases herror
    · exact ⟨_, (Except.error.inj herror).symm⟩
  | .field parent name, _, herror => by
    rw [resolve] at herror
    cases hparent : parent.resolve table with
    | error inner =>
      simp only [hparent] at herror
      exact Except.error.inj herror ▸ exists_nameNotProduced_of_resolve parent hparent
    | ok v =>
      simp only [hparent] at herror
      exact ⟨_, eq_nameNotProduced_of_fieldOf herror⟩
  | .index parent position, _, herror => by
    rw [resolve] at herror
    cases hparent : parent.resolve table with
    | error inner =>
      simp only [hparent] at herror
      exact Except.error.inj herror ▸ exists_nameNotProduced_of_resolve parent hparent
    | ok v =>
      simp only [hparent] at herror
      exact ⟨_, eq_nameNotProduced_of_elementOf herror⟩
  | .record ⟨fields⟩, _, herror => by
    rw [resolve] at herror
    cases hfields : resolveFields table fields with
    | error inner =>
      simp only [hfields] at herror
      exact Except.error.inj herror ▸ exists_nameNotProduced_of_resolveFields fields hfields
    | ok values => simp [hfields] at herror

theorem exists_nameNotProduced_of_resolveFields : ∀ (fields : List (String × Expr))
    {fault : GraphError}, resolveFields table fields = .error fault →
      ∃ name, fault = .nameNotProduced name
  | [], _, herror => by simp [resolveFields] at herror
  | (_, e) :: rest, _, herror => by
    rw [resolveFields] at herror
    cases hfirst : e.resolve table with
    | error inner =>
      simp only [hfirst] at herror
      exact Except.error.inj herror ▸ exists_nameNotProduced_of_resolve e hfirst
    | ok v =>
      simp only [hfirst] at herror
      cases hrest : resolveFields table rest with
      | error inner =>
        simp only [hrest, Except.map] at herror
        exact Except.error.inj herror ▸ exists_nameNotProduced_of_resolveFields rest hrest
      | ok others => simp [hrest, Except.map] at herror

end

/-- Fields that do not resolve have one among them that does not. -/
theorem exists_of_resolveFields_eq_error {fields : List (String × Expr)} {fault : GraphError}
    (herror : resolveFields table fields = .error fault) :
    ∃ e ∈ fields.map Prod.snd, e.resolve table = .error fault := by
  induction fields with
  | nil => cases herror
  | cons field rest ih =>
    obtain ⟨name, e⟩ := field
    rw [resolveFields] at herror
    cases hfirst : e.resolve table with
    | error found =>
      rw [hfirst] at herror
      exact ⟨e, List.mem_cons_self, hfirst.trans (congrArg _ (Except.error.inj herror))⟩
    | ok v =>
      cases hrest : resolveFields table rest with
      | error found =>
        simp only [hfirst, hrest, Except.map, Except.error.injEq] at herror
        obtain ⟨other, hother, hresolve⟩ := ih (hrest.trans (congrArg _ herror))
        exact ⟨other, List.mem_cons_of_mem _ hother, hresolve⟩
      | ok others => simp [hfirst, hrest, Except.map] at herror

theorem exists_of_resolveAll_eq_error {exprs : Named Expr} {fault : GraphError}
    (herror : resolveAll table exprs = .error fault) :
    ∃ e ∈ exprs.values, e.resolve table = .error fault := by
  apply exists_of_resolveFields_eq_error
  unfold resolveAll at herror
  cases hfields : resolveFields table exprs.entries with
  | error found => simpa [hfields, Except.map] using herror
  | ok values => simp [hfields, Except.map] at herror

theorem exists_nameNotProduced_of_resolveAll {exprs : Named Expr} {fault : GraphError}
    (herror : resolveAll table exprs = .error fault) : ∃ name, fault = .nameNotProduced name := by
  obtain ⟨e, -, hresolve⟩ := exists_of_resolveAll_eq_error herror
  exact exists_nameNotProduced_of_resolve e hresolve

end Dataflow.Expr
