/-
# Paths of field names

What a value or the values of a type have at a path of field names. A record type has the
fields of its schema, and a value has what its type has. A type that is accepted where
another is declared has the declared fields too, unless it is positional: a positional
record has numerals for names, whatever is declared.
-/

import Dataflow.Proofs.ValueType

namespace Dataflow

namespace ValueType

/-- Values of the type have something at this path of field names. -/
def Has : ValueType → List String → Prop
  | _, [] => True
  | .record schema, name :: rest => ∃ type, (name, type) ∈ schema.fields ∧ type.Has rest
  | _, _ :: _ => False

mutual

/-- Whether the fields of every record in a type have names of their own. -/
def isNamed : ValueType → Bool
  | .record ⟨_, fields⟩ =>
    (fields.isEmpty || !Named.areNumerals 0 (fields.map Prod.fst)) && areNamed fields
  | _ => true

/-- Whether the fields of every record in the types of fields have names of their
own. -/
def areNamed : List (String × ValueType) → Bool
  | [] => true
  | (_, type) :: rest => isNamed type && areNamed rest

end

theorem eq_nil_of_has {type : ValueType} {path : List String} (hscalar : type.isScalar = true)
    (hhas : type.Has path) : path = [] := by
  cases path with
  | nil => rfl
  | cons name rest =>
    cases type with
    | record schema => simp [isScalar, kind] at hscalar
    | string | integer | float | boolean => exact absurd hhas (by simp [Has])

theorem isNamed_of_mem {fields : List (String × ValueType)} {field : String × ValueType}
    (hnamed : areNamed fields = true) (hmem : field ∈ fields) : field.2.isNamed = true := by
  induction fields with
  | nil => cases hmem
  | cons first rest ih =>
    simp only [areNamed, Bool.and_eq_true] at hnamed
    rcases List.mem_cons.mp hmem with rfl | hrest
    · exact hnamed.1
    · exact ih hnamed.2 hrest

theorem exists_mem_of_acceptsFields {declared found : List (String × ValueType)}
    (haccepts : acceptsFields false declared found = true) {name : String} {type : ValueType}
    (hmem : (name, type) ∈ declared) :
    ∃ given, (name, given) ∈ found ∧ type.accepts given = true := by
  induction declared generalizing found with
  | nil => cases hmem
  | cons first declared ih =>
    cases found with
    | nil => simp [acceptsFields] at haccepts
    | cons other found =>
      simp only [acceptsFields, Bool.false_or, Bool.and_eq_true, beq_iff_eq] at haccepts
      obtain ⟨⟨hname, htype⟩, hrest⟩ := haccepts
      rcases List.mem_cons.mp hmem with rfl | hlater
      · obtain ⟨other, given⟩ := other
        obtain rfl : name = other := hname
        exact ⟨given, List.mem_cons_self, htype⟩
      · obtain ⟨given, hgiven, hfits⟩ := ih hrest hlater
        exact ⟨given, List.mem_cons_of_mem _ hgiven, hfits⟩

/-- What is accepted under a declared type has its fields, unless it is positional. -/
theorem Has.of_accepts {declared found : ValueType} {path : List String}
    (hhas : declared.Has path) (haccepts : declared.accepts found = true)
    (hnamed : found.isNamed = true) : found.Has path := by
  induction path generalizing declared found with
  | nil => trivial
  | cons name rest ih =>
    cases declared with
    | string | integer | float | boolean => exact hhas.elim
    | record schema =>
      obtain ⟨type, hmem, hrest⟩ := hhas
      obtain ⟨label, declared⟩ := schema
      cases found with
      | string | integer | float | boolean => simp [accepts] at haccepts
      | record schema =>
        obtain ⟨label', found⟩ := schema
        simp only [isNamed, Bool.and_eq_true, Bool.or_eq_true, Bool.not_eq_true'] at hnamed
        rw [accepts] at haccepts
        rcases hnamed.1 with hempty | hnumerals
        · obtain rfl := List.isEmpty_iff.mp hempty
          cases declared with
          | nil => cases hmem
          | cons first others => simp [acceptsFields] at haccepts
        · rw [hnumerals] at haccepts
          obtain ⟨given, hgiven, hfits⟩ := exists_mem_of_acceptsFields haccepts hmem
          exact ⟨given, hgiven, ih hrest hfits (isNamed_of_mem hnamed.2 hgiven)⟩

end ValueType

/-- The value has something at this path of field names. -/
def Value.Has : Value → List String → Prop
  | _, [] => True
  | .record fields, name :: rest => ∃ v, (name, v) ∈ fields.entries ∧ v.Has rest
  | _, _ :: _ => False

theorem Value.has_of_has_type {v : Value} {path : List String} (hhas : v.type.Has path) :
    v.Has path := by
  induction path generalizing v with
  | nil => trivial
  | cons name rest ih =>
    cases v with
    | boolean | integer | float | string => exact hhas.elim
    | record fields =>
      obtain ⟨type, hmem, hrest⟩ := hhas
      obtain ⟨entries⟩ := fields
      simp only [RecordSchema.inferred, fieldTypes_eq_map] at hmem
      obtain ⟨⟨other, w⟩, hentry, hequal⟩ := List.mem_map.mp hmem
      obtain ⟨rfl, rfl⟩ := Prod.mk.inj hequal
      exact ⟨w, hentry, ih hrest⟩

end Dataflow
