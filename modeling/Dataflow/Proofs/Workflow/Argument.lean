/-
# What compiled arguments mean

A compiled argument has a value in a value table: a literal is itself, the output of a
task is the entry of the task or a field of it, and a record is taken field by field. An
expression over nodes that are there and typed resolves to exactly the value of the
argument that it is compiled to. An argument reads the tasks that the expression refers
to, in order, each at the level of the innermost pipeline that declares it.
-/

import Dataflow.Proofs.Expr.Soundness
import Dataflow.Workflow.Compile
import Mathlib.Data.List.Forall2

namespace Dataflow

namespace Argument

mutual

/-- The value of an argument in a value table, if all that it reads is there. -/
def value? (table : ValueTable) : Argument → Option Value
  | .literal v => some v
  | .output task none => table.get? task
  | .output task (some field) =>
    match table.get? task with
    | some (.record fields) => fields.get? field
    | _ => none
  | .record ⟨fields⟩ => (fieldValues? table fields).map fun values => .record ⟨values⟩

/-- The values of arguments under names. -/
def fieldValues? (table : ValueTable) : List (String × Argument) → Option (List (String × Value))
  | [] => some []
  | (name, part) :: rest =>
    match value? table part with
    | none => none
    | some v => (fieldValues? table rest).map ((name, v) :: ·)

end

/-- Arguments under names have values exactly if each of them has. -/
theorem fieldValues?_eq_some {table : ValueTable} {fields : List (String × Argument)}
    {values : List (String × Value)} :
    fieldValues? table fields = some values ↔
      Named.Alike (fun part v => value? table part = some v) fields values := by
  induction fields generalizing values with
  | nil =>
    constructor
    · intro hvalues
      rw [← Option.some.inj hvalues]
      exact .nil
    · intro halike
      cases halike
      rfl
  | cons field rest ih =>
    obtain ⟨name, part⟩ := field
    constructor
    · intro hvalues
      rw [fieldValues?] at hvalues
      cases hpart : value? table part with
      | none => simp [hpart] at hvalues
      | some v =>
        cases hrest : fieldValues? table rest with
        | none => simp [hpart, hrest] at hvalues
        | some others =>
          simp only [hpart, hrest, Option.map_some, Option.some.injEq] at hvalues
          rw [← hvalues]
          exact .cons ⟨rfl, hpart⟩ (ih.mp hrest)
    · intro halike
      cases halike with
      | @cons _ value _ others hfirst hothers =>
        obtain ⟨name', v⟩ := value
        obtain ⟨rfl, hv⟩ := hfirst
        have hrest := ih.mpr hothers
        simp only at hv
        rw [fieldValues?, hv, hrest]
        rfl

theorem value?_record {table : ValueTable} {parts : Named Argument}
    {values : List (String × Value)}
    (halike : Named.Alike (fun part v => value? table part = some v) parts.entries values) :
    (Argument.record parts).value? table = some (.record ⟨values⟩) := by
  obtain ⟨entries⟩ := parts
  rw [value?, fieldValues?_eq_some.mpr halike]
  rfl

end Argument

namespace Compile

variable {table : ValueTable} {scopes : Scopes}

/-- What is selected of the first of two corresponding collections corresponds to what is
selected of the second. -/
theorem Selector.exists_pick {α β : Type} {related : α → β → Prop} {selector : Selector}
    {c : Named α} {d : Named β} (halike : Named.Alike related c.entries d.entries) {value : α}
    (hpick : selector.pick c = some value) :
    ∃ other, selector.pick d = some other ∧ related value other := by
  cases selector with
  | field name => exact halike.exists_find hpick
  | element position =>
    simp only [pick, Option.map_eq_some_iff] at hpick
    obtain ⟨entry, hentry, rfl⟩ := hpick
    obtain ⟨other, hother, hrelated⟩ := halike.exists_getElem? hentry
    refine ⟨other, ?_, hrelated⟩
    simp only [pick, Option.map_eq_some_iff]
    exact ⟨_, hother, rfl⟩

/-- The selected part of an argument that is a record has the selected part of its value. -/
theorem exists_pick_of_pickArgument {parent : Expr} {selector : Selector}
    {whole part : Argument} {v : Value} (hpart : pickArgument parent selector whole = .ok part)
    (hwhole : whole.value? table = some v) :
    ∃ fields w, v = .record fields ∧ selector.pick fields = some w ∧
      part.value? table = some w := by
  unfold pickArgument at hpart
  split at hpart
  · rename_i parts
    cases hpick : selector.pick parts with
    | none => simp [hpick] at hpart
    | some found =>
      simp only [hpick, Except.ok.injEq] at hpart
      subst hpart
      obtain ⟨entries⟩ := parts
      rw [Argument.value?, Option.map_eq_some_iff] at hwhole
      obtain ⟨values, hvalues, rfl⟩ := hwhole
      obtain ⟨w, hw, hvalue⟩ := Selector.exists_pick (d := ⟨values⟩)
        (Argument.fieldValues?_eq_some.mp hvalues) hpick
      exact ⟨⟨values⟩, w, rfl, hw, hvalue⟩
  · rename_i fields
    cases hpick : selector.pick fields with
    | none => simp [hpick] at hpart
    | some w =>
      simp only [hpick, Except.ok.injEq] at hpart
      subst hpart
      exact ⟨fields, w, (Option.some.inj hwhole).symm, hpick, rfl⟩
  · cases hpart

/-- A task that is read is declared in some scope. -/
theorem exists_level_of_taskOutput {task : String} {field : Option String} {compiled : Argument}
    {reads : List Reference} (houtput : taskOutput scopes task field = .ok (compiled, reads)) :
    ∃ level, levelOf? task scopes = some level ∧ compiled = .output task field ∧
      reads = [⟨level, task⟩] := by
  unfold taskOutput at houtput
  cases hlevel : levelOf? task scopes with
  | none => simp [hlevel] at houtput
  | some level =>
    simp only [hlevel, Except.ok.injEq, Prod.mk.injEq] at houtput
    exact ⟨level, rfl, houtput.1.symm, houtput.2.symm⟩

/-- The selected field of a schema, by name and type. -/
def Selector.Finds (selector : Selector) (schema : RecordSchema) (field : String)
    (type : ValueType) : Prop :=
  match selector with
  | .field name => name = field ∧ schema.fieldType? name = some type
  | .element position => schema.fieldAt? position = some (field, type)

/-- A selected output of a node is a field of its record type. -/
theorem exists_schema_of_nodeOutput {ref : NodeRef} {selector : Selector} {compiled : Argument}
    {reads : List Reference} (houtput : nodeOutput scopes ref selector = .ok (compiled, reads)) :
    ∃ schema field type level, ref.type = some (.record schema) ∧
      selector.Finds schema field type ∧ levelOf? ref.name scopes = some level ∧
      compiled = .output ref.name (some field) ∧
      reads = [⟨level, ref.name⟩] := by
  unfold nodeOutput at houtput
  cases htype : (Expr.node ref).typeOf with
  | error fault => simp [htype] at houtput
  | ok type =>
    cases hfield : outputField (.node ref) type selector with
    | error fault => simp [htype, hfield] at houtput
    | ok field =>
      simp only [htype, hfield] at houtput
      obtain ⟨level, hlevel, rfl, rfl⟩ := exists_level_of_taskOutput houtput
      have hinfer := Expr.typeOf_eq_ok.mp htype
      rw [Expr.infer] at hinfer
      split at hinfer
      · rename_i found hfound
        obtain rfl : found = type := Except.ok.inj hinfer
        unfold outputField at hfield
        split at hfield
        · rename_i schema
          cases selector with
          | field name =>
            cases hsought : schema.fieldType? name with
            | none => simp [hsought] at hfield
            | some type =>
              simp only [hsought, Option.map_some, Except.ok.injEq] at hfield
              exact ⟨schema, field, type, level, hfound, ⟨hfield, hsought⟩, hlevel, rfl, rfl⟩
          | element position =>
            cases hsought : schema.fieldAt? position with
            | none => simp [hsought] at hfield
            | some entry =>
              simp only [hsought, Option.map_some, Except.ok.injEq] at hfield
              have hfinds : (Selector.element position).Finds schema field entry.2 := by
                rw [← hfield]
                exact hsought
              exact ⟨schema, field, entry.2, level, hfound, hfinds, hlevel, rfl, rfl⟩
        · cases hfield
      · cases hinfer

/-- A selected output of a node that is there and typed has the selected part of its
value. -/
theorem exists_pick_of_nodeOutput {ref : NodeRef} {selector : Selector} {compiled : Argument}
    {reads : List Reference} (houtput : nodeOutput scopes ref selector = .ok (compiled, reads))
    (htyped : ref.TypedIn table) (hthere : (table.get? ref.name).isSome) :
    ∃ fields w, table.get? ref.name = some (.record fields) ∧ selector.pick fields = some w ∧
      compiled.value? table = some w := by
  obtain ⟨schema, field, type, level, htype, hfinds, -, rfl, -⟩ :=
    exists_schema_of_nodeOutput houtput
  obtain ⟨v, hv⟩ := Option.isSome_iff_exists.mp hthere
  obtain ⟨hformed, hshape⟩ := htyped v hv
  obtain ⟨entries, rfl, hshapes⟩ := Value.exists_record_of_shape (hshape _ htype)
  refine ⟨⟨entries⟩, ?_⟩
  rw [Argument.value?, hv]
  cases selector with
  | field name =>
    obtain ⟨rfl, hfind⟩ := hfinds
    obtain ⟨w, hw⟩ := Value.exists_find_of_fieldShapes hshapes hfind
    exact ⟨w, rfl, hw, hw⟩
  | element position =>
    obtain ⟨w, hw⟩ := Value.exists_getElem?_of_fieldShapes hshapes hfinds
    have hdistinct := (Value.wellFormed_record.mp hformed).1
    refine ⟨w, rfl, ?_, Named.find_eq_some_of_mem hdistinct (List.mem_of_getElem? hw)⟩
    rw [Selector.pick, Named.entryAt?, hw]
    rfl

/-- What a selection of a parent expression is compiled to: an output of a node, or the
selected part of what the parent is compiled to. -/
def selected (scopes : Scopes) (parent : Expr) (selector : Selector) : Compiled :=
  match parent with
  | .node ref => nodeOutput scopes ref selector
  | other => pickFrom other selector (argument scopes other)

/-- A field is compiled by selection. -/
theorem argument_field (parent : Expr) (name : String) :
    argument scopes (.field parent name) = selected scopes parent (.field name) := by
  cases parent <;> simp [argument, selected]

theorem argument_index (parent : Expr) (position : Nat) :
    argument scopes (.index parent position) = selected scopes parent (.element position) := by
  cases parent <;> simp [argument, selected]

/-- A selection that is compiled is an output of a node or the selected part of an
argument. -/
theorem cases_of_selected {parent : Expr} {selector : Selector} {compiled : Argument}
    {reads : List Reference} (hselected : selected scopes parent selector = .ok (compiled, reads)) :
    (∃ ref, parent = .node ref ∧ nodeOutput scopes ref selector = .ok (compiled, reads)) ∨
      ∃ whole, argument scopes parent = .ok (whole, reads) ∧
        pickArgument parent selector whole = .ok compiled := by
  unfold selected at hselected
  split at hselected
  · exact .inl ⟨_, rfl, hselected⟩
  · right
    unfold pickFrom at hselected
    split at hselected
    · cases hselected
    · rename_i whole references hwhole
      cases hpick : pickArgument parent selector whole with
      | error fault => simp [hpick] at hselected
      | ok part =>
        simp only [hpick, Except.ok.injEq, Prod.mk.injEq] at hselected
        obtain ⟨rfl, rfl⟩ := hselected
        exact ⟨whole, hwhole, hpick⟩

/-- A compiled selection has the selected part of the value of the parent expression, if
what the parent is compiled to has its value. -/
theorem exists_pick_of_selected {parent : Expr} {selector : Selector} {compiled : Argument}
    {reads : List Reference} (hselected : selected scopes parent selector = .ok (compiled, reads))
    (htyped : ∀ ref ∈ parent.references, ref.TypedIn table)
    (hthere : ∀ ref ∈ parent.references, (table.get? ref.name).isSome)
    (hparent : ∀ whole reads, argument scopes parent = .ok (whole, reads) →
      ∃ v, parent.resolve table = .ok v ∧ whole.value? table = some v) :
    ∃ fields w, parent.resolve table = .ok (.record fields) ∧ selector.pick fields = some w ∧
      compiled.value? table = some w := by
  rcases cases_of_selected hselected with ⟨ref, rfl, houtput⟩ | ⟨whole, hwhole, hpart⟩
  · obtain ⟨fields, w, hfields, hpick, hvalue⟩ := exists_pick_of_nodeOutput houtput
      (htyped ref List.mem_cons_self) (hthere ref List.mem_cons_self)
    refine ⟨fields, w, ?_, hpick, hvalue⟩
    rw [Expr.resolve, ValueTable.lookup, hfields]
  · obtain ⟨v, hresolve, hvalue⟩ := hparent whole reads hwhole
    obtain ⟨fields, w, rfl, hpick, hw⟩ := exists_pick_of_pickArgument hpart hvalue
    exact ⟨fields, w, hresolve, hpick, hw⟩

theorem argument_literal_eq_ok {v : Value} {compiled : Argument} {reads : List Reference} :
    argument scopes (.literal v) = .ok (compiled, reads) ↔ compiled = .literal v ∧ reads = [] := by
  rw [argument, Except.ok.injEq, Prod.mk.injEq, eq_comm, @eq_comm _ [] reads]

theorem arguments_nil_eq_ok {parts : List (String × Argument)} {reads : List Reference} :
    arguments scopes [] = .ok (parts, reads) ↔ parts = [] ∧ reads = [] := by
  rw [arguments, Except.ok.injEq, Prod.mk.injEq, eq_comm, @eq_comm _ [] reads]

/-- Fields that are compiled are compiled one after another. -/
theorem arguments_cons_eq_ok {name : String} {e : Expr} {rest : List (String × Expr)}
    {parts : List (String × Argument)} {reads : List Reference} :
    arguments scopes ((name, e) :: rest) = .ok (parts, reads) ↔
      ∃ part first others further, argument scopes e = .ok (part, first) ∧
        arguments scopes rest = .ok (others, further) ∧ parts = (name, part) :: others ∧
        reads = first ++ further := by
  rw [arguments]
  cases argument scopes e with
  | error fault => simp
  | ok compiled =>
    cases arguments scopes rest with
    | error fault => simp
    | ok others =>
      obtain ⟨part, first⟩ := compiled
      obtain ⟨parts', further⟩ := others
      simp [eq_comm]

theorem argument_record_eq_ok {fields : List (String × Expr)} {compiled : Argument}
    {reads : List Reference} :
    argument scopes (.record ⟨fields⟩) = .ok (compiled, reads) ↔
      ∃ parts, arguments scopes fields = .ok (parts, reads) ∧
        compiled = .record (.ofList parts) := by
  rw [argument]
  cases arguments scopes fields with
  | error fault => simp
  | ok found =>
    obtain ⟨parts, references⟩ := found
    constructor
    · intro hcompiled
      simp only [Except.ok.injEq, Prod.mk.injEq] at hcompiled
      exact ⟨parts, by rw [hcompiled.2], hcompiled.1.symm⟩
    · rintro ⟨others, hothers, rfl⟩
      cases hothers
      rfl

mutual

/-- An expression over nodes that are there and typed resolves to the value of the
argument that it is compiled to. -/
theorem resolve_of_argument : ∀ (e : Expr) {compiled : Argument} {reads : List Reference},
    argument scopes e = .ok (compiled, reads) →
    (∀ ref ∈ e.references, ref.TypedIn table) →
    (∀ ref ∈ e.references, (table.get? ref.name).isSome) →
      ∃ v, e.resolve table = .ok v ∧ compiled.value? table = some v
  | .literal v, compiled, reads, hcompiled, _, _ => by
    rw [argument, Except.ok.injEq, Prod.mk.injEq] at hcompiled
    rw [← hcompiled.1]
    exact ⟨v, rfl, rfl⟩
  | .node ref, compiled, reads, hcompiled, _, hthere => by
    rw [argument] at hcompiled
    obtain ⟨level, -, rfl, -⟩ := exists_level_of_taskOutput hcompiled
    obtain ⟨v, hv⟩ := Option.isSome_iff_exists.mp (hthere ref List.mem_cons_self)
    refine ⟨v, ?_, hv⟩
    rw [Expr.resolve, ValueTable.lookup, hv]
  | .field parent name, compiled, reads, hcompiled, htyped, hthere => by
    rw [argument_field] at hcompiled
    obtain ⟨fields, w, hparent, hpick, hvalue⟩ :=
      exists_pick_of_selected hcompiled htyped hthere fun whole reads hwhole =>
        resolve_of_argument parent hwhole htyped hthere
    exact ⟨w, Expr.resolve_field_eq_ok.mpr ⟨fields, hparent, hpick⟩, hvalue⟩
  | .index parent position, compiled, reads, hcompiled, htyped, hthere => by
    rw [argument_index] at hcompiled
    obtain ⟨fields, w, hparent, hpick, hvalue⟩ :=
      exists_pick_of_selected hcompiled htyped hthere fun whole reads hwhole =>
        resolve_of_argument parent hwhole htyped hthere
    simp only [Selector.pick, Option.map_eq_some_iff] at hpick
    obtain ⟨⟨name, v⟩, hentry, rfl⟩ := hpick
    exact ⟨v, Expr.resolve_index_eq_ok.mpr ⟨fields, name, hparent, hentry⟩, hvalue⟩
  | .record ⟨fields⟩, compiled, reads, hcompiled, htyped, hthere => by
    obtain ⟨parts, hparts, rfl⟩ := argument_record_eq_ok.mp hcompiled
    obtain ⟨values, hvalues, halike⟩ := resolveFields_of_arguments fields hparts htyped hthere
    refine ⟨.record (.ofList values), Expr.resolve_record_eq_ok.mpr ⟨values, hvalues, rfl⟩, ?_⟩
    exact Argument.value?_record halike.ofList

theorem resolveFields_of_arguments : ∀ (fields : List (String × Expr))
    {parts : List (String × Argument)} {reads : List Reference},
    arguments scopes fields = .ok (parts, reads) →
    (∀ ref ∈ Expr.fieldReferences fields, ref.TypedIn table) →
    (∀ ref ∈ Expr.fieldReferences fields, (table.get? ref.name).isSome) →
      ∃ values, Expr.resolveFields table fields = .ok values ∧
        Named.Alike (fun part v => Argument.value? table part = some v) parts values
  | [], parts, reads, hcompiled, _, _ => by
    rw [arguments, Except.ok.injEq, Prod.mk.injEq] at hcompiled
    rw [← hcompiled.1]
    exact ⟨[], rfl, .nil⟩
  | (name, e) :: rest, parts, reads, hcompiled, htyped, hthere => by
    obtain ⟨part, first, others, further, hpart, hothers, rfl, rfl⟩ :=
      arguments_cons_eq_ok.mp hcompiled
    simp only [Expr.fieldReferences, List.mem_append] at htyped hthere
    obtain ⟨v, hv, hvalue⟩ := resolve_of_argument e hpart
      (fun ref href => htyped ref (.inl href)) (fun ref href => hthere ref (.inl href))
    obtain ⟨values, hvalues, halike⟩ := resolveFields_of_arguments rest hothers
      (fun ref href => htyped ref (.inr href)) (fun ref href => hthere ref (.inr href))
    refine ⟨(name, v) :: values, ?_, .cons ⟨rfl, hvalue⟩ halike⟩
    exact Expr.resolveFields_cons_eq_ok.mpr ⟨v, values, hv, hvalues, rfl⟩

end

/-- A task is read for a reference: it has the name of the node, and it is declared by the
innermost pipeline that declares this name. -/
def ReadFor (scopes : Scopes) (ref : NodeRef) (read : Reference) : Prop :=
  read.task = ref.name ∧ levelOf? ref.name scopes = some read.level

mutual

/-- What an argument reads are the references of its expression, in order. -/
theorem reads_of_argument : ∀ (e : Expr) {compiled : Argument} {reads : List Reference},
    argument scopes e = .ok (compiled, reads) →
      List.Forall₂ (ReadFor scopes) e.references reads
  | .literal v, compiled, reads, hcompiled => by
    rw [argument, Except.ok.injEq, Prod.mk.injEq] at hcompiled
    rw [← hcompiled.2]
    exact .nil
  | .node ref, compiled, reads, hcompiled => by
    rw [argument] at hcompiled
    obtain ⟨level, hlevel, -, rfl⟩ := exists_level_of_taskOutput hcompiled
    exact .cons ⟨rfl, hlevel⟩ .nil
  | .field parent name, compiled, reads, hcompiled => by
    rw [argument_field] at hcompiled
    rcases cases_of_selected hcompiled with ⟨ref, rfl, houtput⟩ | ⟨whole, hwhole, -⟩
    · obtain ⟨-, -, -, level, -, -, hlevel, -, rfl⟩ := exists_schema_of_nodeOutput houtput
      exact .cons ⟨rfl, hlevel⟩ .nil
    · exact reads_of_argument parent hwhole
  | .index parent position, compiled, reads, hcompiled => by
    rw [argument_index] at hcompiled
    rcases cases_of_selected hcompiled with ⟨ref, rfl, houtput⟩ | ⟨whole, hwhole, -⟩
    · obtain ⟨-, -, -, level, -, -, hlevel, -, rfl⟩ := exists_schema_of_nodeOutput houtput
      exact .cons ⟨rfl, hlevel⟩ .nil
    · exact reads_of_argument parent hwhole
  | .record ⟨fields⟩, compiled, reads, hcompiled => by
    obtain ⟨parts, hparts, -⟩ := argument_record_eq_ok.mp hcompiled
    exact reads_of_arguments fields hparts

theorem reads_of_arguments : ∀ (fields : List (String × Expr))
    {parts : List (String × Argument)} {reads : List Reference},
    arguments scopes fields = .ok (parts, reads) →
      List.Forall₂ (ReadFor scopes) (Expr.fieldReferences fields) reads
  | [], parts, reads, hcompiled => by
    rw [arguments, Except.ok.injEq, Prod.mk.injEq] at hcompiled
    rw [← hcompiled.2]
    exact .nil
  | (name, e) :: rest, parts, reads, hcompiled => by
    obtain ⟨part, first, others, further, hpart, hothers, -, rfl⟩ :=
      arguments_cons_eq_ok.mp hcompiled
    exact List.rel_append (reads_of_argument e hpart) (reads_of_arguments rest hothers)

end

/-- A task is read for every reference. -/
theorem exists_readFor {refs : List NodeRef} {reads : List Reference}
    (hreads : List.Forall₂ (ReadFor scopes) refs reads) {ref : NodeRef} (href : ref ∈ refs) :
    ∃ read ∈ reads, ReadFor scopes ref read := by
  induction hreads with
  | nil => cases href
  | cons hfirst _ ih =>
    rcases List.mem_cons.mp href with rfl | hrest
    · exact ⟨_, List.mem_cons_self, hfirst⟩
    · obtain ⟨read, hread, hfor⟩ := ih hrest
      exact ⟨read, List.mem_cons_of_mem _ hread, hfor⟩

/-- Where a node does not resolve, it has no value. -/
theorem exists_missing_of_resolve_node {ref : NodeRef} {fault : GraphError}
    (herror : (Expr.node ref).resolve table = .error fault) :
    ∃ read ∈ (Expr.node ref).references,
      table.get? read.name = none ∧ fault = .nameNotProduced read.name := by
  rw [Expr.resolve, ValueTable.lookup] at herror
  split at herror
  · cases herror
  · rename_i hget
    exact ⟨ref, List.mem_cons_self, hget, (Except.error.inj herror).symm⟩

/-- Where the parent of a selection that compiles does not resolve, a node that it refers to
has no value, if this holds of every parent that compiles. -/
theorem exists_missing_of_selected {parent : Expr} {selector : Selector} {compiled : Argument}
    {reads : List Reference} {fault : GraphError}
    (hselected : selected scopes parent selector = .ok (compiled, reads))
    (herror : parent.resolve table = .error fault)
    (hparent : ∀ whole reads, argument scopes parent = .ok (whole, reads) →
      ∃ ref ∈ parent.references, table.get? ref.name = none ∧ fault = .nameNotProduced ref.name) :
    ∃ ref ∈ parent.references, table.get? ref.name = none ∧ fault = .nameNotProduced ref.name := by
  rcases cases_of_selected hselected with ⟨ref, rfl, -⟩ | ⟨whole, hwhole, -⟩
  · exact exists_missing_of_resolve_node herror
  · exact hparent whole reads hwhole

mutual

/-- Where an expression that compiles does not resolve, one of the nodes that it refers to
has no value, and this is what is reported; a field or an element is never missing. -/
theorem exists_missing_of_argument : ∀ (e : Expr) {compiled : Argument}
    {reads : List Reference} {fault : GraphError},
    argument scopes e = .ok (compiled, reads) → (∀ ref ∈ e.references, ref.TypedIn table) →
    e.resolve table = .error fault →
      ∃ ref ∈ e.references, table.get? ref.name = none ∧ fault = .nameNotProduced ref.name
  | .literal v, compiled, reads, fault, _, _, herror => by cases herror
  | .node ref, compiled, reads, fault, _, _, herror => exists_missing_of_resolve_node herror
  | .field parent name, compiled, reads, fault, hcompiled, htyped, herror => by
    cases hparent : parent.resolve table with
    | error found =>
      rw [Expr.resolve, hparent] at herror
      obtain rfl : found = fault := Except.error.inj herror
      rw [argument_field] at hcompiled
      have hmissing := exists_missing_of_selected hcompiled hparent fun whole reads hwhole =>
        exists_missing_of_argument parent hwhole htyped hparent
      exact hmissing
    | ok v =>
      -- The parent resolved, so everything that is read is there.
      obtain ⟨w, hw, -⟩ := resolve_of_argument (.field parent name) hcompiled htyped
        (Expr.isSome_get?_of_resolve parent hparent)
      rw [hw] at herror
      cases herror
  | .index parent position, compiled, reads, fault, hcompiled, htyped, herror => by
    cases hparent : parent.resolve table with
    | error found =>
      rw [Expr.resolve, hparent] at herror
      obtain rfl : found = fault := Except.error.inj herror
      rw [argument_index] at hcompiled
      have hmissing := exists_missing_of_selected hcompiled hparent fun whole reads hwhole =>
        exists_missing_of_argument parent hwhole htyped hparent
      exact hmissing
    | ok v =>
      obtain ⟨w, hw, -⟩ := resolve_of_argument (.index parent position) hcompiled htyped
        (Expr.isSome_get?_of_resolve parent hparent)
      rw [hw] at herror
      cases herror
  | .record ⟨fields⟩, compiled, reads, fault, hcompiled, htyped, herror => by
    obtain ⟨parts, hparts, -⟩ := argument_record_eq_ok.mp hcompiled
    rw [Expr.resolve] at herror
    cases hfields : Expr.resolveFields table fields with
    | error found =>
      rw [hfields] at herror
      obtain rfl : found = fault := Except.error.inj herror
      exact exists_missing_of_arguments fields hparts htyped hfields
    | ok values => simp [hfields] at herror

theorem exists_missing_of_arguments : ∀ (fields : List (String × Expr))
    {parts : List (String × Argument)} {reads : List Reference} {fault : GraphError},
    arguments scopes fields = .ok (parts, reads) →
    (∀ ref ∈ Expr.fieldReferences fields, ref.TypedIn table) →
    Expr.resolveFields table fields = .error fault →
      ∃ ref ∈ Expr.fieldReferences fields,
        table.get? ref.name = none ∧ fault = .nameNotProduced ref.name
  | [], parts, reads, fault, _, _, herror => by cases herror
  | (name, e) :: rest, parts, reads, fault, hcompiled, htyped, herror => by
    obtain ⟨part, first, others, further, hpart, hothers, -, -⟩ :=
      arguments_cons_eq_ok.mp hcompiled
    simp only [Expr.fieldReferences, List.mem_append] at htyped ⊢
    rw [Expr.resolveFields] at herror
    cases hfirst : e.resolve table with
    | error found =>
      rw [hfirst] at herror
      obtain rfl : found = fault := Except.error.inj herror
      obtain ⟨ref, href, hmissing⟩ := exists_missing_of_argument e hpart
        (fun ref href => htyped ref (.inl href)) hfirst
      exact ⟨ref, .inl href, hmissing⟩
    | ok v =>
      cases hrest : Expr.resolveFields table rest with
      | error found =>
        simp only [hfirst, hrest, Except.map, Except.error.injEq] at herror
        subst herror
        obtain ⟨ref, href, hmissing⟩ := exists_missing_of_arguments rest hothers
          (fun ref href => htyped ref (.inr href)) hrest
        exact ⟨ref, .inr href, hmissing⟩
      | ok values => simp [hfirst, hrest, Except.map] at herror

end

/-- A compiled argument means what its expression means, where the nodes that are there are
well typed. If all nodes are there, the expression resolves, to the value of the argument. It
never resolves otherwise, and never to another value. -/
theorem value_of_argument {e : Expr} {compiled : Argument} {reads : List Reference}
    (hcompiled : argument scopes e = .ok (compiled, reads))
    (htyped : ∀ ref ∈ e.references, ref.TypedIn table) :
    ((∀ ref ∈ e.references, (table.get? ref.name).isSome) →
      ∃ v, e.resolve table = .ok v ∧ compiled.value? table = some v) ∧
    ∀ v, e.resolve table = .ok v ↔
      (∀ ref ∈ e.references, (table.get? ref.name).isSome) ∧ compiled.value? table = some v := by
  have hmeans := resolve_of_argument e hcompiled htyped
  refine ⟨hmeans, fun v => ⟨fun hresolve => ?_, ?_⟩⟩
  · have hthere := Expr.isSome_get?_of_resolve e hresolve
    obtain ⟨w, hw, hvalue⟩ := hmeans hthere
    obtain rfl : w = v := Except.ok.inj (hw.symm.trans hresolve)
    exact ⟨hthere, hvalue⟩
  · rintro ⟨hthere, hvalue⟩
    obtain ⟨w, hw, hvalue'⟩ := hmeans hthere
    obtain rfl : w = v := Option.some.inj (hvalue'.symm.trans hvalue)
    exact hw

end Compile

namespace Picked

/-- A composite record of an element of the node and of a field of it. -/
def both : Expr := .record ⟨[("element", .index (.node pair) 0), ("part", part)]⟩

/-- The element is found by its name, and the part without the records around it. -/
theorem argument_both : Compile.argument [["pair"]] both =
    .ok (.record ⟨[("element", .output "pair" (some "left")),
      ("part", .output "pair" (some "right"))]⟩, [⟨0, "pair"⟩, ⟨0, "pair"⟩]) := rfl

theorem typedIn_both : ∀ ref ∈ both.references, ref.TypedIn table := by
  intro ref href
  have hpair : ref = pair := by simpa [both, part, Expr.references, Expr.fieldReferences] using href
  rw [hpair]
  exact typedIn_table pair List.mem_cons_self

end Picked

/-- The compiled record has the value that the expression resolves to. -/
theorem Compile.value_of_argument_both :
    ∃ compiled reads, argument [["pair"]] Picked.both = .ok (compiled, reads) ∧
      (∀ ref ∈ Picked.both.references, ref.TypedIn Picked.table) ∧
      (∀ ref ∈ Picked.both.references, (Picked.table.get? ref.name).isSome) ∧
      Picked.both.resolve Picked.table =
        .ok (.record ⟨[("element", .integer 1), ("part", .string "hello")]⟩) ∧
      compiled.value? Picked.table =
        some (.record ⟨[("element", .integer 1), ("part", .string "hello")]⟩) := by
  have hthere : ∀ ref ∈ Picked.both.references, (Picked.table.get? ref.name).isSome := by decide
  have hresolve : Picked.both.resolve Picked.table =
      .ok (.record ⟨[("element", .integer 1), ("part", .string "hello")]⟩) := rfl
  obtain ⟨-, hmeans⟩ := value_of_argument Picked.argument_both Picked.typedIn_both
  exact ⟨_, _, Picked.argument_both, Picked.typedIn_both, hthere, hresolve,
    ((hmeans _).mp hresolve).2⟩

end Dataflow
