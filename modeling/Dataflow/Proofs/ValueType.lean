/-
# Shapes of types

The name of a record schema is a label: nothing that a type accepts depends on it.
The shape of a type leaves these names out, so two types of one shape are equal up
to the names of their schemas. Acceptance depends on shapes only and is reflexive.

A type is well formed if the field names of every schema in it are distinct. The
types of well-formed values are, and so are the types of validated schemas.
-/

import Dataflow.Definition
import Dataflow.Proofs.Named

namespace Dataflow

namespace ValueType

mutual

/-- A type without the names of its schemas. -/
def shape : ValueType → ValueType
  | .record ⟨_, fields⟩ => .record ⟨"", fieldShapes fields⟩
  | .string => .string
  | .integer => .integer
  | .float => .float
  | .boolean => .boolean

/-- Fields with the shapes of their types. -/
def fieldShapes : List (String × ValueType) → List (String × ValueType)
  | [] => []
  | (name, type) :: rest => (name, shape type) :: fieldShapes rest

end

mutual

/-- Whether the field names of every schema in a type are distinct. -/
def isWellFormed : ValueType → Bool
  | .record ⟨_, fields⟩ => decide (fields.map Prod.fst).Nodup && areWellFormed fields
  | _ => true

/-- Whether the types of all fields are well formed. -/
def areWellFormed : List (String × ValueType) → Bool
  | [] => true
  | (_, type) :: rest => isWellFormed type && areWellFormed rest

end

/-- The field names of every schema in the type, at any depth, are distinct. -/
def WellFormed (type : ValueType) : Prop := type.isWellFormed = true

instance (type : ValueType) : Decidable type.WellFormed :=
  inferInstanceAs (Decidable (_ = true))

/-- A type that a definition may declare: a scalar, or a record type whose schema
passes the validation of record schemas. -/
def Declarable (type : ValueType) : Prop :=
  ∀ schema, type = .record schema → RecordSchema.make schema.name schema.fields = .ok schema

@[simp]
theorem shape_record (schema : RecordSchema) :
    (record schema).shape = .record ⟨"", fieldShapes schema.fields⟩ := by
  cases schema
  rfl

theorem fieldShapes_eq_map (fields : List (String × ValueType)) :
    fieldShapes fields = fields.map fun field => (field.1, field.2.shape) := by
  induction fields with
  | nil => rfl
  | cons field rest ih => simp [fieldShapes, ih]

@[simp]
theorem map_fst_fieldShapes (fields : List (String × ValueType)) :
    (fieldShapes fields).map Prod.fst = fields.map Prod.fst := by
  simp [fieldShapes_eq_map]

@[simp]
theorem kind_shape (type : ValueType) : type.shape.kind = type.kind := by
  cases type with
  | record schema => rw [shape_record]; rfl
  | string | integer | float | boolean => rfl

/-- Types of one shape are of one kind. -/
theorem kind_eq_of_shape_eq {a b : ValueType} (hshape : a.shape = b.shape) :
    a.kind = b.kind := by
  rw [← kind_shape a, hshape, kind_shape]

mutual

/-- Whether a type is well formed depends on its shape only. -/
theorem isWellFormed_shape : ∀ type : ValueType, type.shape.isWellFormed = type.isWellFormed
  | .record ⟨_, fields⟩ => by
    simp [shape, isWellFormed, areWellFormed_fieldShapes fields]
  | .string | .integer | .float | .boolean => rfl

theorem areWellFormed_fieldShapes :
    ∀ fields : List (String × ValueType), areWellFormed (fieldShapes fields) = areWellFormed fields
  | [] => rfl
  | (_, type) :: rest => by
    simp [fieldShapes, areWellFormed, isWellFormed_shape type, areWellFormed_fieldShapes rest]

end

/-- Types of one shape are well formed together. -/
theorem WellFormed.of_shape_eq {a b : ValueType} (h : a.WellFormed) (hshape : a.shape = b.shape) :
    b.WellFormed := by
  unfold WellFormed at h ⊢
  rw [← isWellFormed_shape, ← hshape, isWellFormed_shape, h]

mutual

/-- Acceptance depends on the shapes of both types only. -/
theorem accepts_shape : ∀ declared found : ValueType,
    declared.shape.accepts found.shape = declared.accepts found
  | .record ⟨_, declared⟩, .record ⟨_, found⟩ => by
    simp only [shape, accepts, map_fst_fieldShapes]
    exact acceptsFields_fieldShapes _ declared found
  | .record ⟨_, _⟩, .string | .record ⟨_, _⟩, .integer
  | .record ⟨_, _⟩, .float | .record ⟨_, _⟩, .boolean
  | .string, .record ⟨_, _⟩ | .integer, .record ⟨_, _⟩
  | .float, .record ⟨_, _⟩ | .boolean, .record ⟨_, _⟩
  | .string, .string | .string, .integer | .string, .float | .string, .boolean
  | .integer, .string | .integer, .integer | .integer, .float | .integer, .boolean
  | .float, .string | .float, .integer | .float, .float | .float, .boolean
  | .boolean, .string | .boolean, .integer | .boolean, .float | .boolean, .boolean => rfl

theorem acceptsFields_fieldShapes (positional : Bool) :
    ∀ declared found : List (String × ValueType),
      acceptsFields positional (fieldShapes declared) (fieldShapes found) =
        acceptsFields positional declared found
  | [], [] | [], _ :: _ | _ :: _, [] => rfl
  | (_, type) :: declared, (_, given) :: found => by
    simp [fieldShapes, acceptsFields, accepts_shape type given,
      acceptsFields_fieldShapes positional declared found]

end

/-- What accepts a type accepts every type of its shape. -/
theorem accepts_congr {declared a b : ValueType} (hshape : a.shape = b.shape) :
    declared.accepts a = declared.accepts b := by
  rw [← accepts_shape declared a, hshape, accepts_shape]

mutual

/-- Every type accepts itself. -/
theorem accepts_self : ∀ type : ValueType, type.accepts type = true
  | .record ⟨_, fields⟩ => by
    simpa [accepts] using acceptsFields_self _ fields
  | .string | .integer | .float | .boolean => rfl

theorem acceptsFields_self (positional : Bool) :
    ∀ fields : List (String × ValueType), acceptsFields positional fields fields = true
  | [] => rfl
  | (_, type) :: rest => by
    simp [acceptsFields, accepts_self type, acceptsFields_self positional rest]

end

theorem wellFormed_of_isScalar {type : ValueType} (hscalar : type.isScalar = true) :
    type.WellFormed := by
  cases type with
  | record schema => simp [isScalar, kind] at hscalar
  | string | integer | float | boolean => rfl

/-- Fields that pass the validation of record schemas are scalars with distinct
names, none of them seen before. -/
theorem of_checkFields_eq_ok {record : String} {seen : List String}
    {fields : List (String × ValueType)} {done : Unit}
    (hcheck : RecordSchema.checkFields record seen fields = .ok done) :
    (fields.map Prod.fst).Nodup ∧ (∀ field ∈ fields.map Prod.fst, field ∉ seen) ∧
      areWellFormed fields = true := by
  induction fields generalizing seen with
  | nil => simp [areWellFormed]
  | cons entry rest ih =>
    obtain ⟨field, type⟩ := entry
    have hscalar : type.isScalar = true := by
      cases hrecord : type.isScalar with
      | true => rfl
      | false => simp [RecordSchema.checkFields, hrecord] at hcheck
    have hnew : field ∉ seen := by
      intro hseen
      simp [RecordSchema.checkFields, hscalar, hseen] at hcheck
    have hrest : RecordSchema.checkFields record (field :: seen) rest = .ok done := by
      simpa [RecordSchema.checkFields, hscalar, hnew] using hcheck
    obtain ⟨hdistinct, hunseen, hformed⟩ := ih hrest
    have habsent : field ∉ rest.map Prod.fst := fun hmem => hunseen field hmem (by simp)
    refine ⟨by simpa using ⟨by simpa using habsent, hdistinct⟩, ?_, ?_⟩
    · intro other hmem
      rcases List.mem_cons.mp hmem with rfl | hrest
      · exact hnew
      · exact fun hother => hunseen other hrest (List.mem_cons_of_mem _ hother)
    · have htype : type.isWellFormed = true := wellFormed_of_isScalar hscalar
      simp [areWellFormed, hformed, htype]

theorem declarable_of_isScalar {type : ValueType} (hscalar : type.isScalar = true) :
    type.Declarable := by
  rintro schema rfl
  simp [isScalar, kind] at hscalar

/-- A schema that passes validation is that of a well-formed type. -/
theorem wellFormed_of_make {name : String} {fields : List (String × ValueType)}
    {schema : RecordSchema} (hmake : RecordSchema.make name fields = .ok schema) :
    (record schema).WellFormed := by
  unfold RecordSchema.make at hmake
  cases hcheck : RecordSchema.checkFields name [] fields with
  | error fault => simp [hcheck, Except.map] at hmake
  | ok done =>
    obtain ⟨hdistinct, -, hformed⟩ := of_checkFields_eq_ok hcheck
    simp only [hcheck, Except.map, Except.ok.injEq] at hmake
    subst hmake
    simp [WellFormed, isWellFormed, hdistinct, hformed]

/-- The schema of a well-formed record type has distinct field names. -/
theorem WellFormed.nodup_fieldNames {schema : RecordSchema} (h : (record schema).WellFormed) :
    schema.fieldNames.Nodup := by
  obtain ⟨name, fields⟩ := schema
  simp only [WellFormed, isWellFormed, Bool.and_eq_true, decide_eq_true_eq] at h
  exact h.1

theorem Declarable.wellFormed {type : ValueType} (h : type.Declarable) : type.WellFormed := by
  cases type with
  | record schema => exact wellFormed_of_make (h schema rfl)
  | string | integer | float | boolean => rfl

end ValueType

namespace Value

/-- Induction on values: what holds of whatever is no record, and of a record if it holds of the
values in it, holds of all values. -/
theorem induct {motive : Value → Prop} (scalar : ∀ v : Value, v.asRecord? = none → motive v)
    (record : ∀ a : Record, (∀ entry ∈ a.entries, motive entry.2) → motive (.record a)) :
    ∀ v, motive v
  | .boolean _ => scalar _ rfl
  | .integer _ => scalar _ rfl
  | .float _ => scalar _ rfl
  | .string _ => scalar _ rfl
  | .record ⟨entries⟩ => record ⟨entries⟩ fun entry _ => induct scalar record entry.2
termination_by v => sizeOf v
decreasing_by
  have hsize := List.sizeOf_lt_of_mem ‹entry ∈ entries›
  obtain ⟨name, v⟩ := entry
  simp only [Prod.mk.sizeOf_spec] at hsize
  simp only [Value.record.sizeOf_spec, Named.mk.sizeOf_spec]
  omega

theorem fieldTypes_eq_map (entries : List (String × Value)) :
    fieldTypes entries = entries.map fun entry => (entry.1, entry.2.type) := by
  induction entries with
  | nil => rfl
  | cons entry rest ih => simp [fieldTypes, ih]

@[simp]
theorem map_fst_fieldTypes (entries : List (String × Value)) :
    (fieldTypes entries).map Prod.fst = entries.map Prod.fst := by
  simp [fieldTypes_eq_map]

@[simp]
theorem kind_type (v : Value) : v.type.kind = v.kind := by
  cases v <;> rfl

mutual

/-- A value is well formed exactly if its type is. -/
theorem isWellFormed_type : ∀ v : Value, v.type.isWellFormed = v.isWellFormed
  | .record ⟨entries⟩ => by
    simp [type, RecordSchema.inferred, ValueType.isWellFormed, isWellFormed,
      areWellFormed_fieldTypes entries]
  | .boolean _ | .integer _ | .float _ | .string _ => rfl

theorem areWellFormed_fieldTypes : ∀ entries : List (String × Value),
    ValueType.areWellFormed (fieldTypes entries) = areWellFormed entries
  | [] => rfl
  | (_, v) :: rest => by
    simp [fieldTypes, ValueType.areWellFormed, areWellFormed, isWellFormed_type v,
      areWellFormed_fieldTypes rest]

end

theorem wellFormed_of_mem {entries : List (String × Value)} {name : String} {v : Value}
    (hformed : areWellFormed entries = true) (hmem : (name, v) ∈ entries) : v.WellFormed := by
  induction entries with
  | nil => simp at hmem
  | cons entry rest ih =>
    obtain ⟨other, held⟩ := entry
    simp only [areWellFormed, Bool.and_eq_true] at hformed
    rcases List.mem_cons.mp hmem with hhead | htail
    · cases hhead
      exact hformed.1
    · exact ih hformed.2 htail

theorem wellFormed_record {entries : List (String × Value)} :
    (record ⟨entries⟩).WellFormed ↔
      (entries.map Prod.fst).Nodup ∧ areWellFormed entries = true := by
  simp [WellFormed, isWellFormed]

/-- A value of the shape of a well-formed type is well formed. -/
theorem WellFormed.of_type_shape_eq {v : Value} {type : ValueType} (h : type.WellFormed)
    (hshape : v.type.shape = type.shape) : v.WellFormed := by
  have htype : v.type.WellFormed := h.of_shape_eq hshape.symm
  rwa [WellFormed, ← isWellFormed_type]

theorem WellFormed.type {v : Value} (h : v.WellFormed) : v.type.WellFormed := by
  rwa [ValueType.WellFormed, isWellFormed_type]

end Value

end Dataflow
