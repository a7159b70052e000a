/-
# When reconstruction keeps every item

A record is rebuilt by inserting under the declared names, so where a schema has a name twice,
the later item takes the place of the earlier one. Nothing is lost exactly if the names of the
schema are distinct. They are for schemas that were validated and for those inferred from
values, but a type that is read from a document is not validated, and may have a repeated field.
-/

import Dataflow.Proofs.Document.Values
import Dataflow.Proofs.Reconstruct

namespace Dataflow

namespace ValueType

/-- A way to come by a type. -/
inductive Source where
  | validation
  | inference
  | document
deriving DecidableEq

/-- A type that a caller comes by in this way: of a validated schema, of a value in whose records no
name occurs twice, or as a document describes it. -/
inductive ComesBy : ValueType → Source → Prop where
  | validation {name : String} {fields : List (String × ValueType)} {schema : RecordSchema}
      (hmake : RecordSchema.make name fields = .ok schema) : ComesBy (.record schema) .validation
  | inference {v : Value} (hformed : v.WellFormed) : ComesBy v.type .inference
  | document {given : Document} {type : ValueType}
      (hread : Document.read? read given = some type) : ComesBy type .document

/-- A type that was validated or inferred has distinct field names. -/
theorem ComesBy.wellFormed {type : ValueType} {source : Source} (h : type.ComesBy source)
    (hsource : source ≠ .document) : type.WellFormed := by
  cases h with
  | validation hmake => exact wellFormed_of_make hmake
  | inference hformed => exact hformed.type
  | document hread => exact absurd rfl hsource

end ValueType

/-- The result of a reconstruction under a schema has every item of the given record, each
reconstructed under the type of the field at its position. -/
structure RebuildsAll (owner : String) (schema : RecordSchema) (given result : Record) : Prop where
  size : result.size = given.size
  /-- Each is that at its position, under the declared name. -/
  items : ∀ position name item, given.entryAt? position = some (name, item) →
    ∃ field type v, schema.fieldAt? position = some (field, type) ∧
      reconstruct owner type item = .ok v ∧ result.entryAt? position = some (field, v)

/-- A record is reconstructed without loss exactly if no field is declared twice. -/
theorem exists_rebuildsAll_iff {owner : String} {declared : ValueType} {given : Record} {v : Value}
    (hok : reconstruct owner declared (.record given) = .ok v) :
    ∃ schema result, declared = .record schema ∧ v = .record result ∧
      (RebuildsAll owner schema given result ↔ schema.fieldNames.Nodup) := by
  cases declared with
  | string | integer | float | boolean => simp [reconstruct] at hok
  | record schema =>
    obtain ⟨entries, rebuilt, hgiven, hlength, rfl, hnames, hitems⟩ :=
      exists_of_reconstruct_record hok
    obtain rfl : given = ⟨entries⟩ := Value.record.inj hgiven
    have hcount : rebuilt.length = entries.length := by
      have hfields := congrArg List.length hnames
      rw [List.length_map, RecordSchema.fieldNames, List.length_map] at hfields
      rw [hfields, hlength, RecordSchema.size]
    refine ⟨schema, .ofList rebuilt, rfl, rfl, fun h => ?_, fun hdistinct => ?_⟩
    · rw [← hnames]
      exact Named.nodup_of_size_ofList (h.size.trans hcount.symm)
    · have hresult : Named.ofList rebuilt = ⟨rebuilt⟩ :=
        Named.ofList_eq_of_nodup (hnames ▸ hdistinct)
      rw [hresult]
      refine ⟨hcount, fun position name item hitem => ?_⟩
      have hbound : position < schema.fields.length :=
        Nat.lt_of_lt_of_eq (List.getElem?_eq_some_iff.mp hitem).1 hlength
      have hfield : schema.fieldAt? position = some schema.fields[position] :=
        List.getElem?_eq_getElem hbound
      obtain ⟨name', item', w, hentry, hw, hrebuilt⟩ := hitems position _ _ hfield
      obtain ⟨-, rfl⟩ := Prod.mk.inj (Option.some.inj (hentry.symm.trans hitem))
      exact ⟨_, _, w, hfield, hw, hrebuilt⟩

/-- However a caller came by the declared type, a reconstructed record has every item of the
given one exactly if the declared names are distinct, as they always are unless the type was
read from a document. -/
theorem reconstruct_lossless_iff (owner : String) {declared : ValueType}
    {source : ValueType.Source} (hsource : declared.ComesBy source) {given : Record} {v : Value}
    (hok : reconstruct owner declared (.record given) = .ok v) :
    ∃ schema result, declared = .record schema ∧ v = .record result ∧
      (RebuildsAll owner schema given result ↔ schema.fieldNames.Nodup) ∧
      (source ≠ .document → RebuildsAll owner schema given result) := by
  obtain ⟨schema, result, rfl, rfl, hiff⟩ := exists_rebuildsAll_iff hok
  refine ⟨schema, result, rfl, rfl, hiff, fun hvalid => hiff.mpr ?_⟩
  exact (hsource.wellFormed hvalid).nodup_fieldNames

namespace Twins

/-- A schema with one name for two fields. -/
def repeated : RecordSchema := ⟨"Pair", [("a", .string), ("a", .integer)]⟩

/-- A document that describes the record type of this schema. -/
def document : Document :=
  .ofJson (.object ⟨[("record", .object ⟨[("name", .string "Pair"),
    ("fields", .array
      [.object ⟨[("name", .string "a"), ("type", .string "string")]⟩,
        .object ⟨[("name", .string "a"), ("type", .string "integer")]⟩])]⟩)]⟩)

/-- A schema with two names. -/
def separate : RecordSchema := ⟨"Pair", [("a", .string), ("b", .integer)]⟩

/-- A record without names of its own. -/
def given : Record := ⟨[("0", .string "x"), ("1", .integer 2)]⟩

/-- What it is rebuilt as under two names. -/
def whole : Record := ⟨[("a", .string "x"), ("b", .integer 2)]⟩

/-- What is left of it under one name. -/
def left : Record := ⟨[("a", .integer 2)]⟩

theorem comesBy_document_repeated : (ValueType.record repeated).ComesBy .document := by
  have hread : Document.read? ValueType.read document = some (.record repeated) := rfl
  exact .document hread

end Twins

/-- Under a validated schema a positional record is rebuilt with all its items. Under the type
of a document that declares one name twice, the second item takes the place of the first. -/
theorem reconstruct_lossless_iff_twins :
    (ValueType.record Twins.separate).ComesBy .validation ∧
      reconstruct "pair" (.record Twins.separate) (.record Twins.given) =
        .ok (.record Twins.whole) ∧
      RebuildsAll "pair" Twins.separate Twins.given Twins.whole ∧
      (ValueType.record Twins.repeated).ComesBy .document ∧
      reconstruct "pair" (.record Twins.repeated) (.record Twins.given) =
        .ok (.record Twins.left) ∧
      ¬ RebuildsAll "pair" Twins.repeated Twins.given Twins.left := by
  have hmake : RecordSchema.make "Pair" [("a", .string), ("b", .integer)] =
    .ok Twins.separate := rfl
  have hwhole : reconstruct "pair" (.record Twins.separate) (.record Twins.given) =
    .ok (.record Twins.whole) := rfl
  have hleft : reconstruct "pair" (.record Twins.repeated) (.record Twins.given) =
    .ok (.record Twins.left) := rfl
  have hvalid := ValueType.ComesBy.validation hmake
  have hread := Twins.comesBy_document_repeated
  refine ⟨hvalid, hwhole, ?_, hread, hleft, ?_⟩
  · obtain ⟨schema, result, hschema, hresult, -, hall⟩ :=
      reconstruct_lossless_iff "pair" hvalid hwhole
    obtain rfl := ValueType.record.inj hschema
    obtain rfl := Value.record.inj hresult
    exact hall (by decide)
  · obtain ⟨schema, result, hschema, hresult, hiff, -⟩ :=
      reconstruct_lossless_iff "pair" hread hleft
    obtain rfl := ValueType.record.inj hschema
    obtain rfl := Value.record.inj hresult
    exact fun hall => absurd (hiff.mp hall) (by decide)

/-- Not under every type that a caller comes by does a reconstructed record have every item of
the given one. -/
theorem not_rebuildsAll_of_document :
    ¬ ∀ (owner : String) (declared : ValueType) (source : ValueType.Source) (given : Record)
        (v : Value), declared.ComesBy source → given.Distinct →
      reconstruct owner declared (.record given) = .ok v →
        ∃ schema result, declared = .record schema ∧ v = .record result ∧
          RebuildsAll owner schema given result := by
  intro hall
  obtain ⟨schema, result, -, hresult, hrebuilds⟩ := hall "pair" _ _ Twins.given
    (.record Twins.left) Twins.comesBy_document_repeated (by decide) rfl
  obtain rfl := Value.record.inj hresult
  exact absurd hrebuilds.size (by decide)

end Dataflow
