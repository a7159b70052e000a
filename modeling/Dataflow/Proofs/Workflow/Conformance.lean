/-
# What compiled arguments stand for

An argument reads a task for a node that its expression refers to, and a field of the task
only if the type of the node has it. If the tasks in view deliver what the types of their
nodes have, the argument of an expression stands for a value of the type of the
expression: whatever values of this type have, the argument delivers.
-/

import Dataflow.Proofs.Workflow.Dependencies
import Dataflow.Proofs.Workflow.Places

namespace Dataflow

/-- What is taken of a node is a field of its type. -/
def NodeRef.Takes (ref : NodeRef) (field : Option String) : Prop :=
  ∀ name, field = some name → ∃ type, ref.type = some type ∧ type.Has [name]

namespace Compile

variable {scopes : Scopes} {view : TaskScopes}

theorem Selector.Finds.mem {selector : Selector} {schema : RecordSchema} {field : String}
    {type : ValueType} (h : selector.Finds schema field type) : (field, type) ∈ schema.fields := by
  cases selector with
  | field name =>
    obtain ⟨rfl, hfind⟩ := h
    exact Named.mem_of_find_eq_some hfind
  | element position => exact List.mem_of_getElem? h

theorem Selector.Finds.unique {selector : Selector} {schema : RecordSchema}
    {field field' : String} {type type' : ValueType} (h : selector.Finds schema field type)
    (h' : selector.Finds schema field' type') : field = field' ∧ type = type' := by
  cases selector with
  | field name => exact ⟨h.1.symm.trans h'.1, Option.some.inj (h.2.symm.trans h'.2)⟩
  | element position => exact Prod.mk.inj (Option.some.inj (h.symm.trans h'))

theorem map_fst_of_arguments {fields : List (String × Expr)} {parts : List (String × Argument)}
    {reads : List Reference} (hcompiled : arguments scopes fields = .ok (parts, reads)) :
    parts.map Prod.fst = fields.map Prod.fst := by
  induction fields generalizing parts reads with
  | nil =>
    obtain ⟨rfl, -⟩ := arguments_nil_eq_ok.mp hcompiled
    rfl
  | cons field rest ih =>
    obtain ⟨part, first, others, further, -, hothers, rfl, -⟩ := arguments_cons_eq_ok.mp hcompiled
    rw [List.map_cons, List.map_cons, ih hothers]

/-- What a part of an argument reads, the argument reads. -/
theorem outputs_subset_of_pickArgument {parent : Expr} {selector : Selector}
    {whole part : Argument} (hpart : pickArgument parent selector whole = .ok part) :
    part.outputs ⊆ whole.outputs := by
  unfold pickArgument at hpart
  split at hpart
  · rename_i fields
    obtain ⟨entries⟩ := fields
    cases hpick : selector.pick (⟨entries⟩ : Named Argument) with
    | none => simp [hpick] at hpart
    | some found =>
      simp only [hpick, Except.ok.injEq] at hpart
      subst hpart
      have hmem : ∃ name, (name, found) ∈ entries := by
        cases selector with
        | field name => exact ⟨name, Named.mem_of_find_eq_some hpick⟩
        | element position =>
          obtain ⟨entry, hentry, rfl⟩ := Option.map_eq_some_iff.mp hpick
          exact ⟨entry.1, List.mem_of_getElem? hentry⟩
      obtain ⟨name, hentry⟩ := hmem
      rw [Argument.outputs, Argument.fieldOutputs_eq_flatMap]
      exact fun output houtput => List.mem_flatMap.mpr ⟨_, hentry, houtput⟩
  · rename_i fields
    cases hpick : selector.pick fields with
    | none => simp [hpick] at hpart
    | some v =>
      simp only [hpick, Except.ok.injEq] at hpart
      rw [← hpart]
      exact List.nil_subset _
  · cases hpart

/-- An output of a task that is read for one of these references: the task is declared and
has the name of the node, and a field is one of its type. -/
def OutputFor (scopes : Scopes) (refs : List NodeRef) (output : String × Option String) : Prop :=
  ∃ ref ∈ refs, ref.name = output.1 ∧ output.1 ∈ scopes.flatten ∧ ref.Takes output.2

theorem OutputFor.mono {refs refs' : List NodeRef} {output : String × Option String}
    (h : OutputFor scopes refs output) (hsubset : refs ⊆ refs') : OutputFor scopes refs' output := by
  obtain ⟨ref, href, hname⟩ := h
  exact ⟨ref, hsubset href, hname⟩

theorem outputFor_of_selected {parent : Expr} {selector : Selector} {compiled : Argument}
    {reads : List Reference} (hselected : selected scopes parent selector = .ok (compiled, reads))
    (hparent : ∀ whole reads, argument scopes parent = .ok (whole, reads) →
      ∀ output ∈ whole.outputs, OutputFor scopes parent.references output) :
    ∀ output ∈ compiled.outputs, OutputFor scopes parent.references output := by
  intro output houtput
  rcases cases_of_selected hselected with ⟨ref, rfl, hnode⟩ | ⟨whole, hwhole, hpart⟩
  · obtain ⟨schema, field, type, level, htype, hfinds, hlevel, rfl, -⟩ :=
      exists_schema_of_nodeOutput hnode
    obtain rfl := List.mem_singleton.mp houtput
    refine ⟨ref, List.mem_cons_self, rfl, mem_flatten_of_levelOf? hlevel, ?_⟩
    intro name hname
    obtain rfl := Option.some.inj hname
    exact ⟨_, htype, type, hfinds.mem, by simp [ValueType.Has]⟩
  · exact hparent whole reads hwhole output (outputs_subset_of_pickArgument hpart houtput)

mutual

/-- Every output in an argument is read for a reference of its expression. -/
theorem outputFor_of_argument : ∀ (e : Expr) {compiled : Argument} {reads : List Reference},
    argument scopes e = .ok (compiled, reads) →
      ∀ output ∈ compiled.outputs, OutputFor scopes e.references output
  | .literal v, compiled, reads, hcompiled => by
    obtain ⟨rfl, -⟩ := argument_literal_eq_ok.mp hcompiled
    exact fun output houtput => absurd houtput List.not_mem_nil
  | .node ref, compiled, reads, hcompiled => by
    rw [argument] at hcompiled
    obtain ⟨level, hlevel, rfl, -⟩ := exists_level_of_taskOutput hcompiled
    intro output houtput
    obtain rfl := List.mem_singleton.mp houtput
    exact ⟨ref, List.mem_cons_self, rfl, mem_flatten_of_levelOf? hlevel, nofun⟩
  | .field parent name, compiled, reads, hcompiled => by
    rw [argument_field] at hcompiled
    rw [Expr.references]
    exact outputFor_of_selected hcompiled fun whole reads hwhole =>
      outputFor_of_argument parent hwhole
  | .index parent position, compiled, reads, hcompiled => by
    rw [argument_index] at hcompiled
    rw [Expr.references]
    exact outputFor_of_selected hcompiled fun whole reads hwhole =>
      outputFor_of_argument parent hwhole
  | .record ⟨fields⟩, compiled, reads, hcompiled => by
    obtain ⟨parts, hparts, rfl⟩ := argument_record_eq_ok.mp hcompiled
    intro output houtput
    rw [Argument.outputs, Argument.fieldOutputs_eq_flatMap] at houtput
    obtain ⟨field, hfield, hread⟩ := List.mem_flatMap.mp houtput
    exact outputFor_of_arguments fields hparts field (Named.subset_ofList parts hfield) output hread

theorem outputFor_of_arguments : ∀ (fields : List (String × Expr))
    {parts : List (String × Argument)} {reads : List Reference},
    arguments scopes fields = .ok (parts, reads) → ∀ part ∈ parts, ∀ output ∈ part.2.outputs,
      OutputFor scopes (Expr.fieldReferences fields) output
  | [], parts, reads, hcompiled => by
    obtain ⟨rfl, -⟩ := arguments_nil_eq_ok.mp hcompiled
    exact fun part hpart => absurd hpart List.not_mem_nil
  | (name, e) :: rest, parts, reads, hcompiled => by
    obtain ⟨part, first, others, further, hpart, hothers, rfl, -⟩ :=
      arguments_cons_eq_ok.mp hcompiled
    intro other hother output houtput
    rcases List.mem_cons.mp hother with rfl | hrest
    · exact (outputFor_of_argument e hpart output houtput).mono (List.subset_append_left _ _)
    · exact (outputFor_of_arguments rest hothers other hrest output houtput).mono
        (List.subset_append_right _ _)

end

/-- What is compiled stands for a value of this type: a scalar, a literal of exactly this
type, an output of a task that delivers it, or a record with scalars under the same
names. -/
inductive Conforms (view : TaskScopes) : Argument → ValueType → Prop where
  /-- Anything may stand for a scalar. -/
  | scalar {compiled : Argument} {type : ValueType} (hscalar : type.isScalar = true) :
      Conforms view compiled type
  | literal {v : Value} : Conforms view (.literal v) v.type
  | output {task : String} {field : Option String} {type : ValueType}
      (hdelivers : ∀ path, type.Has path → Argument.Delivers view (.output task field) path) :
      Conforms view (.output task field) type
  | record {parts : Named Argument} {schema : RecordSchema}
      (hscalar : ∀ field ∈ schema.fields, field.2.isScalar = true)
      (hnames : ∀ field ∈ schema.fields, field.1 ∈ parts.names) :
      Conforms view (.record parts) (.record schema)

theorem Conforms.delivers {compiled : Argument} {type : ValueType}
    (h : Conforms view compiled type) {path : List String} (hhas : type.Has path) :
    compiled.Delivers view path := by
  cases h with
  | scalar hscalar =>
    rw [ValueType.eq_nil_of_has hscalar hhas]
    exact .whole
  | literal => exact .literal (Value.has_of_has_type hhas)
  | output hdelivers => exact hdelivers path hhas
  | record hscalar hnames =>
    cases path with
    | nil => exact .whole
    | cons name rest =>
      obtain ⟨type, hmem, hrest⟩ := hhas
      rw [ValueType.eq_nil_of_has (hscalar _ hmem) hrest]
      obtain ⟨⟨other, part⟩, hpart, rfl⟩ := List.mem_map.mp (hnames _ hmem)
      exact .record hpart .whole

theorem Conforms.pick {parent : Expr} {selector : Selector} {whole part : Argument}
    {schema : RecordSchema} {field : String} {type : ValueType}
    (h : Conforms view whole (.record schema)) (hfinds : selector.Finds schema field type)
    (hpart : pickArgument parent selector whole = .ok part) : Conforms view part type := by
  generalize hwhole : ValueType.record schema = found at h
  cases h with
  | scalar hscalar =>
    rw [← hwhole] at hscalar
    simp [ValueType.isScalar, ValueType.kind] at hscalar
  | @literal v =>
    cases v with
    | boolean | integer | float | string => cases hpart
    | record fields =>
      obtain ⟨entries⟩ := fields
      obtain rfl : schema = _ := ValueType.record.inj hwhole
      cases hpick : selector.pick (⟨entries⟩ : Named Value) with
      | none => simp [pickArgument, hpick] at hpart
      | some w =>
        simp only [pickArgument, hpick, Except.ok.injEq] at hpart
        subst hpart
        have htype : w.type = type := by
          cases selector with
          | field name =>
            have hfound : Named.find name (Value.fieldTypes entries) = some type := hfinds.2
            have hvalue : Named.find name entries = some w := hpick
            rw [Value.fieldTypes_eq_map, Named.find_map, hvalue] at hfound
            exact Option.some.inj hfound
          | element position =>
            have hfound : (Value.fieldTypes entries)[position]? = some (field, type) := hfinds
            obtain ⟨entry, hentry, rfl⟩ := Option.map_eq_some_iff.mp hpick
            have hvalue : entries[position]? = some entry := hentry
            rw [Value.fieldTypes_eq_map, List.getElem?_map, hvalue] at hfound
            exact (Prod.mk.inj (Option.some.inj hfound)).2
        rw [← htype]
        exact .literal
  | output _ => cases hpart
  | record hscalar _ =>
    obtain rfl := ValueType.record.inj hwhole
    exact .scalar (hscalar _ hfinds.mem)

/-- In this view, the name of the node means a task that delivers what values of the type
of the node have. -/
def Served (view : TaskScopes) (ref : NodeRef) : Prop :=
  ∀ task around, view.Declares ref.name task around → ∀ type, ref.type = some type →
    ∀ path, type.Has path → task.Delivers around path

/-- The whole output of a node or a selected one delivers what values of its type have. -/
theorem Served.delivers {ref : NodeRef} (h : Served view ref)
    (hmem : ref.name ∈ view.names.flatten) {type : ValueType} (htype : ref.type = some type)
    {field : Option String} {path : List String} (hhas : type.Has (field.toList ++ path)) :
    (Argument.output ref.name field).Delivers view path := by
  obtain ⟨task, around, hdeclares⟩ := TaskScopes.exists_declares hmem
  exact .output hdeclares (h task around hdeclares type htype _ hhas)

theorem conforms_of_selected {parent : Expr} {selector : Selector} {compiled : Argument}
    {reads : List Reference} {schema : RecordSchema} {field : String} {type : ValueType}
    (hselected : selected view.names parent selector = .ok (compiled, reads))
    (hserved : ∀ ref ∈ parent.references, Served view ref)
    (hinfer : parent.infer = .ok (.record schema)) (hfinds : selector.Finds schema field type)
    (hparent : ∀ whole reads, argument view.names parent = .ok (whole, reads) →
      Conforms view whole (.record schema)) : Conforms view compiled type := by
  rcases cases_of_selected hselected with ⟨ref, rfl, hnode⟩ | ⟨whole, hwhole, hpart⟩
  · obtain ⟨schema', field', type', level, htype, hfinds', hlevel, rfl, -⟩ :=
      exists_schema_of_nodeOutput hnode
    rw [Expr.infer, htype] at hinfer
    obtain rfl : schema' = schema := ValueType.record.inj (Except.ok.inj hinfer)
    obtain ⟨rfl, rfl⟩ : field' = field ∧ type' = type := hfinds'.unique hfinds
    refine .output fun path hhas => ?_
    exact (hserved ref List.mem_cons_self).delivers (mem_flatten_of_levelOf? hlevel) htype
      ⟨type', hfinds'.mem, hhas⟩
  · exact (hparent whole reads hwhole).pick hfinds hpart

/-- An expression is compiled to something that stands for a value of its type, if the
nodes that it refers to are served. -/
theorem conforms_of_argument : ∀ (e : Expr) {compiled : Argument} {reads : List Reference}
    {type : ValueType}, argument view.names e = .ok (compiled, reads) → e.infer = .ok type →
    (∀ ref ∈ e.references, Served view ref) → Conforms view compiled type
  | .literal v, compiled, reads, type, hcompiled, hinfer, _ => by
    obtain ⟨rfl, -⟩ := argument_literal_eq_ok.mp hcompiled
    obtain rfl : v.type = type := Except.ok.inj hinfer
    exact .literal
  | .node ref, compiled, reads, type, hcompiled, hinfer, hserved => by
    rw [argument] at hcompiled
    obtain ⟨level, hlevel, rfl, -⟩ := exists_level_of_taskOutput hcompiled
    rw [Expr.infer] at hinfer
    split at hinfer
    · rename_i found htype
      obtain rfl : found = type := Except.ok.inj hinfer
      refine .output fun path hhas => ?_
      exact (hserved ref List.mem_cons_self).delivers (mem_flatten_of_levelOf? hlevel) htype hhas
    · cases hinfer
  | .field parent name, compiled, reads, type, hcompiled, hinfer, hserved => by
    rw [argument_field] at hcompiled
    obtain ⟨schema, hschema, hfield⟩ := Expr.infer_field_eq_ok.mp hinfer
    have hfinds : (Selector.field name).Finds schema name type := ⟨rfl, hfield⟩
    exact conforms_of_selected hcompiled hserved hschema hfinds fun whole reads hwhole =>
      conforms_of_argument parent hwhole hschema hserved
  | .index parent position, compiled, reads, type, hcompiled, hinfer, hserved => by
    rw [argument_index] at hcompiled
    obtain ⟨schema, name, hschema, hfield⟩ := Expr.infer_index_eq_ok.mp hinfer
    have hfinds : (Selector.element position).Finds schema name type := hfield
    exact conforms_of_selected hcompiled hserved hschema hfinds fun whole reads hwhole =>
      conforms_of_argument parent hwhole hschema hserved
  | .record ⟨fields⟩, compiled, reads, type, hcompiled, hinfer, _ => by
    obtain ⟨parts, hparts, rfl⟩ := argument_record_eq_ok.mp hcompiled
    obtain ⟨types, htypes, rfl⟩ := Expr.infer_record_eq_ok.mp hinfer
    obtain ⟨hnames, hscalar⟩ := Expr.scalars_of_inferFields htypes
    refine .record hscalar ?_
    intro field hfield
    rw [Named.mem_names_ofList, map_fst_of_arguments hparts, ← hnames]
    exact List.mem_map_of_mem hfield

end Compile

end Dataflow
