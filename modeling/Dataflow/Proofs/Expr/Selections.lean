/-
# Selections that miss

An expression that does not resolve is stopped at one place: at a node that has no value, or
at a selection inside it, of a field or of an element that a value does not have. The names
that an expression refers to are those of its nodes, and it has any exactly if it is
deferred. So the names decide everything: tables that agree on them give one result, and
where all of them have values, nothing but a selection can fail.
-/

import Dataflow.Proofs.Expr.Reading

namespace Dataflow.Expr

variable {table : ValueTable}

/-- An expression is the whole of another one, or stands inside it at some depth. -/
inductive Within : Expr → Expr → Prop where
  | whole (e : Expr) : Within e e
  | field {part parent : Expr} (name : String) (h : Within part parent) :
      Within part (.field parent name)
  | index {part parent : Expr} (position : Nat) (h : Within part parent) :
      Within part (.index parent position)
  | record {part item : Expr} {fields : Named Expr} (hitem : item ∈ fields.values)
      (h : Within part item) : Within part (.record fields)

/-- A selection whose parent has a value, but one without the part that is selected. It is
reported by its text. -/
inductive Misses (table : ValueTable) : Expr → GraphError → Prop where
  | field {parent : Expr} {name : String} {v : Value} (hparent : parent.resolve table = .ok v)
      (hmissing : ∀ fields, v = .record fields → fields.get? name = none) :
      Misses table (.field parent name) (.nameNotProduced (text (.field parent name)))
  | index {parent : Expr} {position : Nat} {v : Value} (hparent : parent.resolve table = .ok v)
      (hmissing : ∀ fields, v = .record fields → fields.entryAt? position = none) :
      Misses table (.index parent position) (.nameNotProduced (text (.index parent position)))

theorem get?_eq_none_of_fieldOf {path name : String} {v : Value} {fault : GraphError}
    (herror : fieldOf path name v = .error fault) :
    ∀ fields, v = .record fields → fields.get? name = none := by
  rintro fields rfl
  cases hget : fields.get? name with
  | none => rfl
  | some w => simp [fieldOf, hget] at herror

theorem entryAt?_eq_none_of_elementOf {path : String} {position : Nat} {v : Value}
    {fault : GraphError} (herror : elementOf path position v = .error fault) :
    ∀ fields, v = .record fields → fields.entryAt? position = none := by
  rintro fields rfl
  cases hentry : fields.entryAt? position with
  | none => rfl
  | some entry => simp [elementOf, hentry] at herror

mutual

/-- Where all nodes of an expression have values, only a selection inside it can fail. -/
theorem exists_misses_of_resolve : ∀ (e : Expr) {fault : GraphError},
    e.resolve table = .error fault → (∀ ref ∈ e.references, (table.get? ref.name).isSome) →
      ∃ part : Expr, part.Within e ∧ part.Misses table fault
  | .literal _, _, herror, _ => by simp [resolve] at herror
  | .node ref, _, herror, hthere => by
    obtain ⟨v, hv⟩ := Option.isSome_iff_exists.mp (hthere ref (by simp [references]))
    simp [resolve, ValueTable.lookup, hv] at herror
  | .field parent name, _, herror, hthere => by
    rw [resolve] at herror
    cases hparent : parent.resolve table with
    | error inner =>
      simp only [hparent] at herror
      obtain ⟨part, hpart, hmisses⟩ := exists_misses_of_resolve parent hparent hthere
      exact ⟨part, hpart.field name, Except.error.inj herror ▸ hmisses⟩
    | ok v =>
      simp only [hparent] at herror
      rw [eq_nameNotProduced_of_fieldOf herror]
      exact ⟨_, .whole _, .field hparent (get?_eq_none_of_fieldOf herror)⟩
  | .index parent position, _, herror, hthere => by
    rw [resolve] at herror
    cases hparent : parent.resolve table with
    | error inner =>
      simp only [hparent] at herror
      obtain ⟨part, hpart, hmisses⟩ := exists_misses_of_resolve parent hparent hthere
      exact ⟨part, hpart.index position, Except.error.inj herror ▸ hmisses⟩
    | ok v =>
      simp only [hparent] at herror
      rw [eq_nameNotProduced_of_elementOf herror]
      exact ⟨_, .whole _, .index hparent (entryAt?_eq_none_of_elementOf herror)⟩
  | .record ⟨fields⟩, _, herror, hthere => by
    rw [resolve] at herror
    cases hfields : resolveFields table fields with
    | error inner =>
      simp only [hfields] at herror
      obtain ⟨e, he, part, hpart, hmisses⟩ := exists_misses_of_resolveFields fields hfields hthere
      exact ⟨part, .record he hpart, Except.error.inj herror ▸ hmisses⟩
    | ok values => simp [hfields] at herror

theorem exists_misses_of_resolveFields : ∀ (fields : List (String × Expr)) {fault : GraphError},
    resolveFields table fields = .error fault →
      (∀ ref ∈ fieldReferences fields, (table.get? ref.name).isSome) →
        ∃ e ∈ fields.map Prod.snd, ∃ part : Expr, part.Within e ∧ part.Misses table fault
  | [], _, herror, _ => by simp [resolveFields] at herror
  | (_, e) :: rest, _, herror, hthere => by
    simp only [fieldReferences, List.mem_append] at hthere
    rw [resolveFields] at herror
    cases hfirst : e.resolve table with
    | error inner =>
      simp only [hfirst] at herror
      obtain ⟨part, hpart, hmisses⟩ :=
        exists_misses_of_resolve e hfirst fun ref href => hthere ref (.inl href)
      exact ⟨e, List.mem_cons_self, part, hpart, Except.error.inj herror ▸ hmisses⟩
    | ok v =>
      simp only [hfirst] at herror
      cases hrest : resolveFields table rest with
      | error inner =>
        simp only [hrest, Except.map] at herror
        obtain ⟨other, hother, part, hpart, hmisses⟩ :=
          exists_misses_of_resolveFields rest hrest fun ref href => hthere ref (.inr href)
        exact ⟨other, List.mem_cons_of_mem _ hother, part, hpart,
          Except.error.inj herror ▸ hmisses⟩
      | ok others => simp [hrest, Except.map] at herror

end

theorem mem_referencedNames {e : Expr} {name : String} :
    name ∈ e.referencedNames ↔ ∃ ref ∈ e.references, ref.name = name := by
  rw [referencedNames, mem_firstOccurrences, List.mem_map]

theorem forall_mem_referencedNames {e : Expr} {holds : String → Prop} :
    (∀ name ∈ e.referencedNames, holds name) ↔ ∀ ref ∈ e.references, holds ref.name := by
  simp only [mem_referencedNames, forall_exists_index, and_imp, forall_apply_eq_imp_iff₂]

mutual

/-- An expression is deferred exactly if it refers to a node. -/
theorem isDeferred_iff : ∀ e : Expr, e.isDeferred = true ↔ e.references ≠ []
  | .literal _ => by simp [isDeferred, references]
  | .node _ => by simp [isDeferred, references]
  | .field parent _ => isDeferred_iff parent
  | .index parent _ => isDeferred_iff parent
  | .record ⟨fields⟩ => anyDeferred_iff fields

theorem anyDeferred_iff :
    ∀ fields : List (String × Expr), anyDeferred fields = true ↔ fieldReferences fields ≠ []
  | [] => by simp [anyDeferred, fieldReferences]
  | (_, e) :: rest => by
    rw [anyDeferred, Bool.or_eq_true, isDeferred_iff e, anyDeferred_iff rest, fieldReferences,
      ← not_and_or, ← List.append_eq_nil_iff]

end

theorem referencedNames_ne_nil_iff {e : Expr} : e.referencedNames ≠ [] ↔ e.references ≠ [] := by
  rw [Ne, List.eq_nil_iff_forall_not_mem, Ne, List.eq_nil_iff_forall_not_mem, not_iff_not]
  exact @forall_mem_referencedNames e fun _ => False

/-- The names that an expression refers to decide what it resolves to: tables that agree on
them give one result, a result was found with all of them there, and with all of them there
only a selection inside the expression can fail. An expression is deferred exactly if it refers
to some name, and one that is not resolves alike everywhere. -/
theorem resolve_reads_referencedNames (e : Expr) :
    (∀ table table' : ValueTable,
      (∀ name ∈ e.referencedNames, table.get? name = table'.get? name) →
        e.resolve table = e.resolve table') ∧
    (∀ (table : ValueTable) (v : Value), e.resolve table = .ok v →
      ∀ name ∈ e.referencedNames, table.contains name = true) ∧
    (∀ (table : ValueTable) (fault : GraphError), e.resolve table = .error fault →
      (∀ name ∈ e.referencedNames, table.contains name = true) →
        ∃ part : Expr, part.Within e ∧ part.Misses table fault) ∧
    (e.isDeferred = true ↔ e.referencedNames ≠ []) ∧
    (e.isDeferred = false → ∀ table table' : ValueTable, e.resolve table = e.resolve table') := by
  have hagree : ∀ table table' : ValueTable,
      (∀ name ∈ e.referencedNames, table.get? name = table'.get? name) →
        e.resolve table = e.resolve table' := fun table table' hnames =>
    resolve_congr e (forall_mem_referencedNames.mp hnames)
  have hdeferred : e.isDeferred = true ↔ e.referencedNames ≠ [] := by
    rw [isDeferred_iff, referencedNames_ne_nil_iff]
  refine ⟨hagree, ?_, ?_, hdeferred, ?_⟩
  · intro table v hresolve
    exact forall_mem_referencedNames.mpr (isSome_get?_of_resolve e hresolve)
  · intro table fault herror hthere
    exact exists_misses_of_resolve e herror (forall_mem_referencedNames.mp hthere)
  · intro hconstant table table'
    have hnone : e.referencedNames = [] := by
      rw [← Bool.not_eq_true, hdeferred, not_not] at hconstant
      exact hconstant
    exact hagree table table' (by simp [hnone])

namespace Selecting

/-- The node of a pair of texts. -/
def pair : NodeRef :=
  ⟨"pair", some (.record ⟨"Pair", [("first", .string), ("last", .string)]⟩)⟩

/-- The node of a text. -/
def word : NodeRef := ⟨"word", some .string⟩

/-- A record of the text and of a field that the pair does not have. -/
def e : Expr := .record ⟨[("word", .node word), ("middle", .field (.node pair) "middle")]⟩

/-- Values of both nodes. -/
def values : ValueTable :=
  ⟨[("pair", .record ⟨[("first", .string "Arya"), ("last", .string "Stark")]⟩),
    ("word", .string "hello")]⟩

/-- The same values beside those of other nodes, in another order. -/
def moreValues : ValueTable :=
  ⟨[("word", .string "hello"), ("middle", .string "north"),
    ("pair", .record ⟨[("first", .string "Arya"), ("last", .string "Stark")]⟩)]⟩

end Selecting

/-- A field that the value of a node does not have is missed in both tables, whatever else they
hold. -/
theorem resolve_reads_referencedNames_middle :
    Selecting.e.isDeferred = true ∧ Selecting.e.referencedNames = ["word", "pair"] ∧
      Selecting.e.resolve Selecting.values = .error (.nameNotProduced "pair.middle") ∧
      Selecting.e.resolve Selecting.values = Selecting.e.resolve Selecting.moreValues ∧
      ∃ part : Expr, part.Within Selecting.e ∧
        part.Misses Selecting.values (.nameNotProduced "pair.middle") := by
  have hnames : Selecting.e.referencedNames = ["word", "pair"] := by decide
  have herror : Selecting.e.resolve Selecting.values = .error (.nameNotProduced "pair.middle") := rfl
  obtain ⟨hagree, -, hmisses, hdeferred, -⟩ := resolve_reads_referencedNames Selecting.e
  refine ⟨hdeferred.mpr (by simp [hnames]), hnames, herror, ?_, ?_⟩
  · exact hagree _ _ (by rw [hnames]; decide)
  · exact hmisses _ _ herror (by rw [hnames]; decide)

end Dataflow.Expr
