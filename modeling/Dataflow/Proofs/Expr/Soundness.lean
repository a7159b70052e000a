/-
# Soundness of expression typing

An expression is well formed if every record in it, of expressions or of values, has
distinct names, as all records built by insertion have. Where the table holds
well-formed values of the types of the nodes that an expression reads, the expression
resolves to a well-formed value, and one of the type inferred for it, up to the names
of schemas.
-/

import Dataflow.Expr.Typing
import Dataflow.Proofs.Expr.Reading
import Dataflow.Proofs.ValueType

namespace Dataflow

namespace Expr

mutual

/-- Whether every record in an expression has distinct names. -/
def isWellFormed : Expr → Bool
  | .literal v => v.isWellFormed
  | .node _ => true
  | .field parent _ => isWellFormed parent
  | .index parent _ => isWellFormed parent
  | .record ⟨fields⟩ => decide (fields.map Prod.fst).Nodup && areWellFormed fields

/-- Whether every record in expressions under names has distinct names. -/
def areWellFormed : List (String × Expr) → Bool
  | [] => true
  | (_, e) :: rest => isWellFormed e && areWellFormed rest

end

/-- Every record in the expression, of expressions or of values, has distinct
names. -/
def WellFormed (e : Expr) : Prop := e.isWellFormed = true

instance (e : Expr) : Decidable e.WellFormed :=
  inferInstanceAs (Decidable (_ = true))

/-- The type of a field is that of the field of its parent's schema. -/
theorem infer_field_eq_ok {parent : Expr} {name : String} {type : ValueType} :
    (Expr.field parent name).infer = .ok type ↔
      ∃ schema, parent.infer = .ok (.record schema) ∧ schema.fieldType? name = some type := by
  rw [infer]
  cases parent.infer with
  | error violation => simp
  | ok found =>
    cases found with
    | record schema => cases hfield : schema.fieldType? name <;> simp [schemaOf, hfield]
    | string | integer | float | boolean => simp [schemaOf]

theorem infer_index_eq_ok {parent : Expr} {position : Nat} {type : ValueType} :
    (Expr.index parent position).infer = .ok type ↔
      ∃ schema name, parent.infer = .ok (.record schema) ∧
        schema.fieldAt? position = some (name, type) := by
  rw [infer]
  cases parent.infer with
  | error violation => simp
  | ok found =>
    cases found with
    | record schema =>
      cases hfield : schema.fieldAt? position with
      | none => simp [schemaOf, hfield]
      | some field =>
        obtain ⟨name, held⟩ := field
        simp [schemaOf, hfield]
    | string | integer | float | boolean => simp [schemaOf]

theorem infer_record_eq_ok {fields : List (String × Expr)} {type : ValueType} :
    (Expr.record ⟨fields⟩).infer = .ok type ↔
      ∃ types, inferFields fields = .ok types ∧ type = .record (.inferred types) := by
  rw [infer]
  cases inferFields fields with
  | error violation => simp
  | ok types => simp [eq_comm]

/-- The fields of a composite record are typed one after another. -/
theorem exists_of_inferFields_cons {name : String} {e : Expr} {rest : List (String × Expr)}
    {types : List (String × ValueType)} (hinfer : inferFields ((name, e) :: rest) = .ok types) :
    ∃ type others, e.infer = .ok type ∧ inferFields rest = .ok others ∧
      types = (name, type) :: others := by
  rw [inferFields] at hinfer
  cases htype : e.infer with
  | error violation => simp [htype] at hinfer
  | ok type =>
    simp only [htype] at hinfer
    split at hinfer
    · cases hothers : inferFields rest with
      | error violation => simp [hothers, Except.map] at hinfer
      | ok others =>
        simp only [hothers, Except.map, Except.ok.injEq] at hinfer
        exact ⟨type, others, rfl, rfl, hinfer.symm⟩
    · cases hinfer

/-- The fields of a composite record have types under their names, all of them scalars. -/
theorem scalars_of_inferFields {fields : List (String × Expr)} {types : List (String × ValueType)}
    (hinfer : inferFields fields = .ok types) :
    types.map Prod.fst = fields.map Prod.fst ∧ ∀ field ∈ types, field.2.isScalar = true := by
  induction fields generalizing types with
  | nil =>
    rw [inferFields, Except.ok.injEq] at hinfer
    simp [← hinfer]
  | cons field rest ih =>
    obtain ⟨name, e⟩ := field
    obtain ⟨type, others, htype, hothers, rfl⟩ := exists_of_inferFields_cons hinfer
    obtain ⟨hnames, hscalars⟩ := ih hothers
    have hscalar : type.isScalar = true := by
      by_contra hrecord
      rw [inferFields, htype] at hinfer
      simp [hrecord] at hinfer
    refine ⟨by simp [hnames], ?_⟩
    intro other hother
    rcases List.mem_cons.mp hother with rfl | hlater
    · exact hscalar
    · exact hscalars other hlater

theorem typeOf_eq_ok {e : Expr} {type : ValueType} : e.typeOf = .ok type ↔ e.infer = .ok type := by
  unfold typeOf
  cases e.infer <;> simp [Except.mapError]

end Expr

/-- The table holds nothing under the name of the node but a well-formed value of its
type, up to the names of schemas. -/
def NodeRef.TypedIn (ref : NodeRef) (table : ValueTable) : Prop :=
  ∀ v, table.get? ref.name = some v →
    v.WellFormed ∧ ∀ type, ref.type = some type → v.type.shape = type.shape

namespace Value

/-- The fields of a record value and of a record type of its shape correspond by
name. -/
theorem shape_type_of_find {entries : List (String × Value)} {fields : List (String × ValueType)}
    {name : String} {v : Value} {type : ValueType}
    (hshapes : ValueType.fieldShapes (fieldTypes entries) = ValueType.fieldShapes fields)
    (hvalue : Named.find name entries = some v) (htype : Named.find name fields = some type) :
    v.type.shape = type.shape := by
  have hfound := congrArg (Named.find name) hshapes
  rw [ValueType.fieldShapes_eq_map, ValueType.fieldShapes_eq_map, fieldTypes_eq_map,
    Named.find_map, Named.find_map, Named.find_map, hvalue, htype] at hfound
  exact Option.some.inj hfound

/-- The fields of a record value and of a record type of its shape correspond by
position. -/
theorem shape_type_of_getElem? {entries : List (String × Value)}
    {fields : List (String × ValueType)} {position : Nat} {name field : String} {v : Value}
    {type : ValueType}
    (hshapes : ValueType.fieldShapes (fieldTypes entries) = ValueType.fieldShapes fields)
    (hvalue : entries[position]? = some (name, v))
    (htype : fields[position]? = some (field, type)) :
    name = field ∧ v.type.shape = type.shape := by
  have hfound := congrArg (fun list => list[position]?) hshapes
  simpa [ValueType.fieldShapes_eq_map, fieldTypes_eq_map, hvalue, htype] using hfound

/-- A record value has every field of a record type of its shape. -/
theorem exists_find_of_fieldShapes {entries : List (String × Value)}
    {fields : List (String × ValueType)} {name : String} {type : ValueType}
    (hshapes : ValueType.fieldShapes (fieldTypes entries) = ValueType.fieldShapes fields)
    (htype : Named.find name fields = some type) : ∃ v, Named.find name entries = some v := by
  have hfound := congrArg (Named.find name) hshapes
  rw [ValueType.fieldShapes_eq_map, ValueType.fieldShapes_eq_map, fieldTypes_eq_map,
    Named.find_map, Named.find_map, Named.find_map, htype] at hfound
  cases hvalue : Named.find name entries with
  | none => simp [hvalue] at hfound
  | some v => exact ⟨v, rfl⟩

/-- A record value has every element of a record type of its shape, under its name. -/
theorem exists_getElem?_of_fieldShapes {entries : List (String × Value)}
    {fields : List (String × ValueType)} {position : Nat} {field : String} {type : ValueType}
    (hshapes : ValueType.fieldShapes (fieldTypes entries) = ValueType.fieldShapes fields)
    (htype : fields[position]? = some (field, type)) :
    ∃ v, entries[position]? = some (field, v) := by
  have hfound := congrArg (fun list => list[position]?) hshapes
  cases hvalue : entries[position]? with
  | none => simp [ValueType.fieldShapes_eq_map, fieldTypes_eq_map, hvalue, htype] at hfound
  | some entry =>
    obtain ⟨name, v⟩ := entry
    rw [(shape_type_of_getElem? hshapes hvalue htype).1]
    exact ⟨v, rfl⟩

/-- A value of the shape of a record type is a record with fields of their shapes. -/
theorem exists_record_of_shape {v : Value} {schema : RecordSchema}
    (hshape : v.type.shape = (ValueType.record schema).shape) :
    ∃ entries, v = .record ⟨entries⟩ ∧
      ValueType.fieldShapes (fieldTypes entries) = ValueType.fieldShapes schema.fields := by
  cases v with
  | record fields =>
    rw [ValueType.shape_record] at hshape
    exact ⟨fields.entries, rfl, by simpa [Value.type, RecordSchema.inferred] using hshape⟩
  | boolean | integer | float | string => cases ValueType.kind_eq_of_shape_eq hshape

end Value

namespace Expr

variable {table : ValueTable}

mutual

/-- A well-formed expression over well-typed nodes resolves to a well-formed value. -/
theorem wellFormed_of_resolve : ∀ (e : Expr) {v : Value}, e.WellFormed →
    (∀ ref ∈ e.references, ref.TypedIn table) → e.resolve table = .ok v → v.WellFormed
  | .literal w, v, hformed, _, hresolve => by
    obtain rfl : w = v := by simpa [resolve] using hresolve
    exact hformed
  | .node ref, v, _, htyped, hresolve => by
    rw [resolve, ValueTable.lookup] at hresolve
    split at hresolve
    · rename_i w hget
      obtain rfl : w = v := Except.ok.inj hresolve
      exact (htyped ref (by simp [references]) w hget).1
    · cases hresolve
  | .field parent name, v, hformed, htyped, hresolve => by
    obtain ⟨⟨entries⟩, hparent, hget⟩ := resolve_field_eq_ok.mp hresolve
    have hrecord := Value.wellFormed_record.mp (wellFormed_of_resolve parent hformed htyped hparent)
    exact Value.wellFormed_of_mem hrecord.2 (Named.mem_of_find_eq_some hget)
  | .index parent position, v, hformed, htyped, hresolve => by
    obtain ⟨⟨entries⟩, name, hparent, hget⟩ := resolve_index_eq_ok.mp hresolve
    have hrecord := Value.wellFormed_record.mp (wellFormed_of_resolve parent hformed htyped hparent)
    exact Value.wellFormed_of_mem hrecord.2 (List.mem_of_getElem? hget)
  | .record ⟨fields⟩, v, hformed, htyped, hresolve => by
    obtain ⟨values, hvalues, rfl⟩ := resolve_record_eq_ok.mp hresolve
    simp only [WellFormed, isWellFormed, Bool.and_eq_true, decide_eq_true_eq] at hformed
    have hdistinct : (values.map Prod.fst).Nodup := map_fst_of_resolveFields hvalues ▸ hformed.1
    rw [Named.ofList_eq_of_nodup hdistinct, Value.wellFormed_record]
    exact ⟨hdistinct, areWellFormed_of_resolveFields fields hformed.2 htyped hvalues⟩

theorem areWellFormed_of_resolveFields : ∀ (fields : List (String × Expr))
    {values : List (String × Value)}, areWellFormed fields = true →
    (∀ ref ∈ fieldReferences fields, ref.TypedIn table) →
    resolveFields table fields = .ok values → Value.areWellFormed values = true
  | [], values, _, _, hresolve => by
    obtain rfl : [] = values := by simpa [resolveFields] using hresolve
    rfl
  | (name, e) :: rest, _, hformed, htyped, hresolve => by
    obtain ⟨v, others, hv, hothers, rfl⟩ := resolveFields_cons_eq_ok.mp hresolve
    simp only [areWellFormed, Bool.and_eq_true] at hformed
    simp only [fieldReferences, List.mem_append] at htyped
    have hfirst : v.isWellFormed = true :=
      wellFormed_of_resolve e hformed.1 (fun ref href => htyped ref (.inl href)) hv
    have hrest := areWellFormed_of_resolveFields rest hformed.2
      (fun ref href => htyped ref (.inr href)) hothers
    simp [Value.areWellFormed, hfirst, hrest]

end

mutual

/-- A well-formed expression over well-typed nodes resolves to a value of its type, up
to the names of schemas. -/
theorem shape_type_of_resolve : ∀ (e : Expr) {v : Value} {type : ValueType}, e.WellFormed →
    (∀ ref ∈ e.references, ref.TypedIn table) → e.resolve table = .ok v → e.infer = .ok type →
      v.type.shape = type.shape
  | .literal w, v, type, _, _, hresolve, hinfer => by
    obtain rfl : w = v := by simpa [resolve] using hresolve
    obtain rfl : w.type = type := by simpa [infer] using hinfer
    rfl
  | .node ref, v, type, _, htyped, hresolve, hinfer => by
    rw [resolve, ValueTable.lookup] at hresolve
    rw [infer] at hinfer
    split at hresolve
    · rename_i w hget
      obtain rfl : w = v := Except.ok.inj hresolve
      split at hinfer
      · rename_i found hfound
        obtain rfl : found = type := Except.ok.inj hinfer
        exact (htyped ref (by simp [references]) w hget).2 found hfound
      · cases hinfer
    · cases hresolve
  | .field parent name, v, type, hformed, htyped, hresolve, hinfer => by
    obtain ⟨⟨entries⟩, hparent, hget⟩ := resolve_field_eq_ok.mp hresolve
    obtain ⟨schema, hschema, hfield⟩ := infer_field_eq_ok.mp hinfer
    have hshape := shape_type_of_resolve parent hformed htyped hparent hschema
    rw [ValueType.shape_record] at hshape
    exact Value.shape_type_of_find (by simpa [Value.type, RecordSchema.inferred] using hshape)
      hget hfield
  | .index parent position, v, type, hformed, htyped, hresolve, hinfer => by
    obtain ⟨⟨entries⟩, name, hparent, hget⟩ := resolve_index_eq_ok.mp hresolve
    obtain ⟨schema, field, hschema, hfield⟩ := infer_index_eq_ok.mp hinfer
    have hshape := shape_type_of_resolve parent hformed htyped hparent hschema
    rw [ValueType.shape_record] at hshape
    exact (Value.shape_type_of_getElem? (by simpa [Value.type, RecordSchema.inferred] using hshape)
      hget hfield).2
  | .record ⟨fields⟩, v, type, hformed, htyped, hresolve, hinfer => by
    obtain ⟨values, hvalues, rfl⟩ := resolve_record_eq_ok.mp hresolve
    obtain ⟨types, htypes, rfl⟩ := infer_record_eq_ok.mp hinfer
    simp only [WellFormed, isWellFormed, Bool.and_eq_true, decide_eq_true_eq] at hformed
    have hdistinct : (values.map Prod.fst).Nodup := map_fst_of_resolveFields hvalues ▸ hformed.1
    have hshapes := fieldShapes_of_resolveFields fields hformed.2 htyped hvalues htypes
    rw [Named.ofList_eq_of_nodup hdistinct]
    simp [Value.type, RecordSchema.inferred, hshapes]

theorem fieldShapes_of_resolveFields : ∀ (fields : List (String × Expr))
    {values : List (String × Value)} {types : List (String × ValueType)},
    areWellFormed fields = true → (∀ ref ∈ fieldReferences fields, ref.TypedIn table) →
    resolveFields table fields = .ok values → inferFields fields = .ok types →
      ValueType.fieldShapes (Value.fieldTypes values) = ValueType.fieldShapes types
  | [], values, types, _, _, hresolve, hinfer => by
    obtain rfl : [] = values := by simpa [resolveFields] using hresolve
    obtain rfl : [] = types := by simpa [inferFields] using hinfer
    rfl
  | (name, e) :: rest, _, _, hformed, htyped, hresolve, hinfer => by
    obtain ⟨v, others, hv, hothers, rfl⟩ := resolveFields_cons_eq_ok.mp hresolve
    obtain ⟨type, further, htype, hfurther, rfl⟩ := exists_of_inferFields_cons hinfer
    simp only [areWellFormed, Bool.and_eq_true] at hformed
    simp only [fieldReferences, List.mem_append] at htyped
    have hfirst := shape_type_of_resolve e hformed.1 (fun ref href => htyped ref (.inl href))
      hv htype
    have hrest := fieldShapes_of_resolveFields rest hformed.2
      (fun ref href => htyped ref (.inr href)) hothers hfurther
    simp [Value.fieldTypes, ValueType.fieldShapes, hfirst, hrest]

end

mutual

/-- A well-formed expression that has a type resolves, where its nodes are there and
well typed. -/
theorem exists_resolve : ∀ (e : Expr) {type : ValueType}, e.WellFormed →
    (∀ ref ∈ e.references, ref.TypedIn table) →
    (∀ ref ∈ e.references, (table.get? ref.name).isSome) → e.infer = .ok type →
      ∃ v, e.resolve table = .ok v
  | .literal w, _, _, _, _, _ => ⟨w, rfl⟩
  | .node ref, _, _, _, hthere, _ => by
    obtain ⟨v, hv⟩ := Option.isSome_iff_exists.mp (hthere ref List.mem_cons_self)
    refine ⟨v, ?_⟩
    rw [resolve, ValueTable.lookup, hv]
  | .field parent name, type, hformed, htyped, hthere, hinfer => by
    obtain ⟨schema, hschema, hfield⟩ := infer_field_eq_ok.mp hinfer
    obtain ⟨v, hv⟩ := exists_resolve parent hformed htyped hthere hschema
    -- The parent has the shape of the schema, and with it all of its fields.
    obtain ⟨entries, rfl, hshapes⟩ :=
      Value.exists_record_of_shape (shape_type_of_resolve parent hformed htyped hv hschema)
    obtain ⟨w, hw⟩ := Value.exists_find_of_fieldShapes hshapes hfield
    exact ⟨w, resolve_field_eq_ok.mpr ⟨⟨entries⟩, hv, hw⟩⟩
  | .index parent position, type, hformed, htyped, hthere, hinfer => by
    obtain ⟨schema, field, hschema, hfield⟩ := infer_index_eq_ok.mp hinfer
    obtain ⟨v, hv⟩ := exists_resolve parent hformed htyped hthere hschema
    obtain ⟨entries, rfl, hshapes⟩ :=
      Value.exists_record_of_shape (shape_type_of_resolve parent hformed htyped hv hschema)
    obtain ⟨w, hw⟩ := Value.exists_getElem?_of_fieldShapes hshapes hfield
    exact ⟨w, resolve_index_eq_ok.mpr ⟨⟨entries⟩, field, hv, hw⟩⟩
  | .record ⟨fields⟩, type, hformed, htyped, hthere, hinfer => by
    obtain ⟨types, htypes, -⟩ := infer_record_eq_ok.mp hinfer
    simp only [WellFormed, isWellFormed, Bool.and_eq_true] at hformed
    obtain ⟨values, hvalues⟩ := exists_resolveFields fields hformed.2 htyped hthere htypes
    exact ⟨_, resolve_record_eq_ok.mpr ⟨values, hvalues, rfl⟩⟩

theorem exists_resolveFields : ∀ (fields : List (String × Expr))
    {types : List (String × ValueType)}, areWellFormed fields = true →
    (∀ ref ∈ fieldReferences fields, ref.TypedIn table) →
    (∀ ref ∈ fieldReferences fields, (table.get? ref.name).isSome) →
    inferFields fields = .ok types → ∃ values, resolveFields table fields = .ok values
  | [], _, _, _, _, _ => ⟨[], rfl⟩
  | (name, e) :: rest, _, hformed, htyped, hthere, hinfer => by
    obtain ⟨type, others, htype, hothers, -⟩ := exists_of_inferFields_cons hinfer
    simp only [areWellFormed, Bool.and_eq_true] at hformed
    simp only [fieldReferences, List.mem_append] at htyped hthere
    obtain ⟨v, hv⟩ := exists_resolve e hformed.1 (fun ref href => htyped ref (.inl href))
      (fun ref href => hthere ref (.inl href)) htype
    obtain ⟨values, hvalues⟩ := exists_resolveFields rest hformed.2
      (fun ref href => htyped ref (.inr href)) (fun ref href => hthere ref (.inr href)) hothers
    exact ⟨(name, v) :: values, resolveFields_cons_eq_ok.mpr ⟨v, values, hv, hvalues, rfl⟩⟩

end

mutual

/-- A well-formed expression that reads no node resolves to a value of exactly its type. -/
theorem type_of_resolve : ∀ (e : Expr) {v : Value} {type : ValueType}, e.WellFormed →
    e.references = [] → e.resolve table = .ok v → e.infer = .ok type → v.type = type
  | .literal w, v, type, _, _, hresolve, hinfer => by
    obtain rfl : w = v := by simpa [resolve] using hresolve
    exact Except.ok.inj hinfer
  | .node ref, _, _, _, hnone, _, _ => absurd hnone (List.cons_ne_nil ref [])
  | .field parent name, v, type, hformed, hnone, hresolve, hinfer => by
    obtain ⟨⟨entries⟩, hparent, hget⟩ := resolve_field_eq_ok.mp hresolve
    obtain ⟨schema, hschema, hfield⟩ := infer_field_eq_ok.mp hinfer
    have hfound : Named.find name entries = some v := hget
    cases type_of_resolve parent hformed hnone hparent hschema
    rw [RecordSchema.fieldType?, RecordSchema.inferred, Value.fieldTypes_eq_map, Named.find_map,
      hfound] at hfield
    exact Option.some.inj hfield
  | .index parent position, v, type, hformed, hnone, hresolve, hinfer => by
    obtain ⟨⟨entries⟩, name, hparent, hget⟩ := resolve_index_eq_ok.mp hresolve
    obtain ⟨schema, field, hschema, hfield⟩ := infer_index_eq_ok.mp hinfer
    have hfound : entries[position]? = some (name, v) := hget
    cases type_of_resolve parent hformed hnone hparent hschema
    rw [RecordSchema.fieldAt?, RecordSchema.inferred, Value.fieldTypes_eq_map, List.getElem?_map,
      hfound] at hfield
    exact (Prod.mk.inj (Option.some.inj hfield)).2
  | .record ⟨fields⟩, v, type, hformed, hnone, hresolve, hinfer => by
    obtain ⟨values, hvalues, rfl⟩ := resolve_record_eq_ok.mp hresolve
    obtain ⟨types, htypes, rfl⟩ := infer_record_eq_ok.mp hinfer
    simp only [WellFormed, isWellFormed, Bool.and_eq_true, decide_eq_true_eq] at hformed
    have hdistinct : (values.map Prod.fst).Nodup := map_fst_of_resolveFields hvalues ▸ hformed.1
    rw [Named.ofList_eq_of_nodup hdistinct, Value.type,
      fieldTypes_of_resolveFields fields hformed.2 hnone hvalues htypes]

theorem fieldTypes_of_resolveFields : ∀ (fields : List (String × Expr))
    {values : List (String × Value)} {types : List (String × ValueType)},
    areWellFormed fields = true → fieldReferences fields = [] →
    resolveFields table fields = .ok values → inferFields fields = .ok types →
      Value.fieldTypes values = types
  | [], values, types, _, _, hresolve, hinfer => by
    obtain rfl : [] = values := by simpa [resolveFields] using hresolve
    exact Except.ok.inj hinfer
  | (name, e) :: rest, _, _, hformed, hnone, hresolve, hinfer => by
    obtain ⟨v, others, hv, hothers, rfl⟩ := resolveFields_cons_eq_ok.mp hresolve
    obtain ⟨type, further, htype, hfurther, rfl⟩ := exists_of_inferFields_cons hinfer
    simp only [areWellFormed, Bool.and_eq_true] at hformed
    obtain ⟨hfirst, hrest⟩ := List.append_eq_nil_iff.mp hnone
    rw [Value.fieldTypes, type_of_resolve e hformed.1 hfirst hv htype,
      fieldTypes_of_resolveFields rest hformed.2 hrest hothers hfurther]

end

/-- A well-typed expression resolves, where its nodes are there and well typed, and to a
value of its type: up to the names of schemas, or exactly if it reads no node. -/
theorem exists_resolve_of_infer {e : Expr} {type : ValueType} (hformed : e.WellFormed)
    (htyped : ∀ ref ∈ e.references, ref.TypedIn table)
    (hthere : ∀ ref ∈ e.references, (table.get? ref.name).isSome)
    (hinfer : e.infer = .ok type) :
    ∃ v, e.resolve table = .ok v ∧ v.type.shape = type.shape ∧
      (e.references = [] → v.type = type) := by
  obtain ⟨v, hv⟩ := exists_resolve e hformed htyped hthere hinfer
  exact ⟨v, hv, shape_type_of_resolve e hformed htyped hv hinfer,
    fun hnone => type_of_resolve e hformed hnone hv hinfer⟩

end Expr

namespace Picked

/-- A node that returns a record. -/
def pair : NodeRef := ⟨"pair", some (.record ⟨"Pair", [("left", .integer), ("right", .string)]⟩)⟩

/-- An element of a composite record that holds a field of the node. -/
def part : Expr :=
  .index (.record ⟨[("flag", .literal (.boolean true)), ("picked", .field (.node pair) "right")]⟩) 1

/-- A table in which the node has a value. -/
def table : ValueTable :=
  ⟨[("pair", .record ⟨[("left", .integer 1), ("right", .string "hello")]⟩)]⟩

theorem typedIn_table : ∀ ref ∈ part.references, ref.TypedIn table := by
  intro ref href v hget
  obtain rfl : ref = pair := List.mem_singleton.mp href
  obtain rfl := Option.some.inj hget
  refine ⟨by decide, fun type htype => ?_⟩
  rw [← Option.some.inj htype]
  decide

end Picked

/-- A field of a node is found inside a composite record, at its type. -/
theorem Expr.exists_resolve_of_infer_part :
    Picked.part.WellFormed ∧ (∀ ref ∈ Picked.part.references, ref.TypedIn Picked.table) ∧
      (∀ ref ∈ Picked.part.references, (Picked.table.get? ref.name).isSome) ∧
      Picked.part.infer = .ok .string ∧
      ∃ v, Picked.part.resolve Picked.table = .ok v ∧ v.type.shape = ValueType.string.shape ∧
        (Picked.part.references = [] → v.type = .string) := by
  have hformed : Picked.part.WellFormed := by decide
  have hthere : ∀ ref ∈ Picked.part.references, (Picked.table.get? ref.name).isSome := by decide
  have hinfer : Picked.part.infer = .ok .string := rfl
  exact ⟨hformed, Picked.typedIn_table, hthere, hinfer,
    exists_resolve_of_infer hformed Picked.typedIn_table hthere hinfer⟩

end Dataflow
