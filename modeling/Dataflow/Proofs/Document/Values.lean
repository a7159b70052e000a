/-
# Hardware, types and values read back

What the leaves of documents are written as is read back: requested hardware, whose fields are
left out when nothing is said; types, whose schemas nest; and values, which a reader knows by
what it finds. A value is read back if the names of its records are distinct and its floats
finite, since a float that is not finite is written as nothing.
-/

import Dataflow.Proofs.Document.Members
import Dataflow.ValueType.Document

namespace Dataflow

open Document Document.Reading

theorem AcceleratorModel.reads (model : AcceleratorModel) :
    Reads AcceleratorModel.read model.toData.toJson model :=
  (Reads.asAlternative (List.mem_map_of_mem (by cases model <;> decide))).bind fun _ =>
    .of_eq_some (by cases model <;> rfl)

namespace Hardware

/-- The number of accelerators, if there is one, is one that a document may ask for. -/
def Countable (hardware : Hardware) : Prop :=
  ∀ accelerator ∈ hardware.accelerator, ∀ count ∈ accelerator.count, count ≤ acceleratorLimit

instance (hardware : Hardware) : Decidable hardware.Countable :=
  inferInstanceAs (Decidable (∀ accelerator ∈ hardware.accelerator,
    ∀ count ∈ accelerator.count, count ≤ acceleratorLimit))

end Hardware

theorem Accelerator.reads {accelerator : Accelerator}
    (h : ∀ count ∈ accelerator.count, count ≤ acceleratorLimit) :
    Reads Accelerator.read accelerator.toData.toJson accelerator := by
  obtain ⟨count, model⟩ := accelerator
  have hdata : (Accelerator.mk count model).toData = .ofMembers
      (Data.optional "count" (fun n : Nat => .integer n) count ++
        Data.optional "type" AcceleratorModel.toData model) := by
    cases count <;> rfl
  rw [hdata]
  refine .ofMembers ((Data.namedIn_optional ..).append (Data.namedIn_optional ..)) (by decide)
    fun fields scope hoffered => ?_
  refine (hoffered.optional "count" (fun n : Nat => .integer n) count rfl (by simp)
    (fun n hn => .asNatural (h n hn)) fun _ => Data.toJson_integer_ne_null _).bind ?_
  refine (hoffered.optional "type" AcceleratorModel.toData model rfl (by simp)
    (fun model _ => model.reads) fun _ => Data.toJson_string_ne_null _).bind ?_
  exact .pure _ scope

theorem Hardware.reads {hardware : Hardware} (h : hardware.Countable) :
    Reads Hardware.read hardware.toData.toJson hardware := by
  refine .ofMembers (((Data.namedIn_optional ..).append (Data.namedIn_optional ..)).append
    (Data.namedIn_optional ..)) (by decide) fun fields scope hoffered => ?_
  refine (hoffered.optional "cpus" .string hardware.cpus rfl (by simp)
    (fun cpus _ => .asText cpus) Data.toJson_string_ne_null).bind ?_
  refine (hoffered.optional "memory" .string hardware.memory rfl (by simp)
    (fun memory _ => .asText memory) Data.toJson_string_ne_null).bind ?_
  refine (hoffered.optional "accelerator" Accelerator.toData hardware.accelerator rfl (by simp)
    (fun accelerator haccelerator => Accelerator.reads (h accelerator haccelerator))
    fun _ => Data.toJson_ofMembers_ne_null _).bind ?_
  exact .pure _ scope

/-- Hardware is read back, also where nothing is requested. -/
theorem Hardware.gives_member {names : List String} {members : List (String × Data)}
    {fields : Fields} {scope : Scope} {position : Nat} {hardware : Hardware}
    (hoffered : Offered names (Data.membersToJson members) fields scope) (name : String)
    (hname : names.idxOf? name = some position)
    (hfind : Named.find name members =
      if hardware.isEmpty = false then some hardware.toData else .none)
    (h : hardware.Countable) :
    (fields.field (some .none) Hardware.read position).Gives scope hardware := by
  refine hoffered.defaulting name hname hfind (fun hempty => ?_) (Hardware.reads h)
  obtain ⟨cpus, memory, accelerator⟩ := hardware
  simp only [isEmpty, Bool.not_eq_false, Bool.and_eq_true, Option.isNone_iff_eq_none] at hempty
  obtain ⟨⟨rfl, rfl⟩, rfl⟩ := hempty
  rfl

namespace ValueType

/-- A field as data. -/
def fieldToData (field : String × ValueType) : Data :=
  .ofMembers [("name", .string field.1), ("type", field.2.toData)]

theorem fieldsToData_eq_map (fields : List (String × ValueType)) :
    fieldsToData fields = fields.map fieldToData := by
  induction fields with
  | nil => rfl
  | cons field rest ih =>
    rw [fieldsToData, ih, List.map_cons]
    rfl

theorem reads_field {reader : Part → Reading ValueType} {field : String × ValueType}
    (h : Reads reader field.2.toData.toJson field.2) :
    Reads (readField reader) (fieldToData field).toJson field := by
  refine .ofMembers ((Data.namedIn_nil.cons ..).cons ..) (by decide) fun fields scope hoffered => ?_
  refine (hoffered.required "name" _ rfl rfl (.asText field.1)).bind ?_
  exact (hoffered.required "type" _ rfl rfl h).bind (.pure field scope)

/-- The types of fields nest less deep than the record type. -/
theorem nesting_lt_of_mem (name : String) {fields : List (String × ValueType)}
    {field : String × ValueType} (hfield : field ∈ fields) :
    field.2.toData.toJson.nesting < (record ⟨name, fields⟩).toData.toJson.nesting := by
  have htype : field.2.toData.toJson.nesting < (fieldToData field).toJson.nesting :=
    Data.nesting_lt_of_mem_members "type" (by simp)
  have hlist : (fieldToData field).toJson.nesting <
      (Data.array (fieldsToData fields)).toJson.nesting :=
    Data.nesting_lt_of_mem (fieldsToData_eq_map fields ▸ List.mem_map_of_mem hfield)
  have hcontent : (Data.array (fieldsToData fields)).toJson.nesting <
      (Data.ofMembers
        [("name", .string name), ("fields", .array (fieldsToData fields))]).toJson.nesting :=
    Data.nesting_lt_of_mem_members "fields" (by simp)
  exact Nat.lt_trans htype (Nat.lt_trans hlist (Nat.lt_trans hcontent
    (Data.nesting_lt_variant "record" _)))

theorem reads_within {type : ValueType} {fuel : Nat}
    (hfuel : type.toData.toJson.nesting < fuel) :
    Reads (readWithin fuel) type.toData.toJson type := by
  induction fuel generalizing type with
  | zero => exact absurd hfuel (Nat.not_lt_zero _)
  | succ fuel ih =>
    cases type with
    | string | integer | float | boolean =>
      exact .withAlternative (by decide) fun scope => .of_eq_some rfl
    | record schema =>
      obtain ⟨name, fields⟩ := schema
      refine .withAlternative_content (by decide) fun decided scope hroom => ?_
      refine (Gives.of_eq_some rfl).bind ?_
      refine Reads.ofMembers ((Data.namedIn_nil.cons ..).cons ..) (by decide)
        (fun given inner hoffered => ?_) decided scope hroom
      refine (hoffered.required "name" _ rfl rfl (.asText name)).bind ?_
      have hfields : Reads (Part.asList (readField (readWithin fuel)))
          (Data.array (fieldsToData fields)).toJson fields := by
        rw [fieldsToData_eq_map]
        exact .array fun field hfield => reads_field (ih (Nat.lt_of_lt_of_le
          (nesting_lt_of_mem name hfield) (Nat.lt_succ_iff.mp hfuel)))
      exact (hoffered.required "fields" _ rfl rfl hfields).bind (.pure _ inner)

/-- A type is read back. -/
theorem reads (type : ValueType) : Reads read type.toData.toJson type :=
  .of_fuel fun _ => reads_within

end ValueType

namespace Value

mutual

/-- The floats in a value. -/
def floats : Value → List Binary64
  | .float x => [x]
  | .record ⟨entries⟩ => floatsOfFields entries
  | _ => []

/-- The floats in values under names. -/
def floatsOfFields : List (String × Value) → List Binary64
  | [] => []
  | (_, v) :: rest => floats v ++ floatsOfFields rest

end

theorem floatsOfFields_eq_flatMap (entries : List (String × Value)) :
    floatsOfFields entries = entries.flatMap fun entry => floats entry.2 := by
  induction entries with
  | nil => rfl
  | cons entry rest ih => rw [floatsOfFields, ih, List.flatMap_cons]

theorem ofInteger_toInt (i : Int64) : ofInteger i.toInt = .integer i := by
  have hfits : FitsInt64 i.toInt := ⟨Int64.minValue_le_toInt i, Int64.toInt_le i⟩
  rw [ofInteger, if_pos hfits, Int64.ofInt_toInt]

mutual

/-- A decided value is the value that was written. -/
theorem ofDecided?_part : ∀ v : Value, v.WellFormed → (∀ x ∈ v.floats, x.isFinite = true) →
    ofDecided? (v.toData.toJson.part true) = some v
  | .boolean _, _, _ | .string _, _, _ => rfl
  | .integer i, _, _ => congrArg some (ofInteger_toInt i)
  | .float x, _, hfinite => by
    rw [toData, Data.toJson, if_pos (hfinite x (List.mem_singleton_self x))]
    rfl
  | .record ⟨entries⟩, hformed, hfinite => by
    rw [WellFormed, isWellFormed, Bool.and_eq_true, decide_eq_true_iff] at hformed
    rw [toData, Data.toJson, Json.part_object_true, ofDecided?,
      fieldsOfDecided?_keyed entries hformed.2 hfinite, Option.map_some,
      Named.ofList_eq_of_nodup hformed.1]

theorem fieldsOfDecided?_keyed : ∀ entries : List (String × Value), areWellFormed entries = true →
    (∀ x ∈ floatsOfFields entries, x.isFinite = true) →
    fieldsOfDecided? (Json.keyed true (Data.membersToJson (fieldsToData entries))) = some entries
  | [], _, _ => rfl
  | (name, v) :: rest, hformed, hfinite => by
    rw [areWellFormed, Bool.and_eq_true] at hformed
    rw [floatsOfFields] at hfinite
    have hkeyed : Json.keyed true (Data.membersToJson (fieldsToData ((name, v) :: rest))) =
        (.name name, v.toData.toJson.part true) ::
          Json.keyed true (Data.membersToJson (fieldsToData rest)) := rfl
    have hv := ofDecided?_part v hformed.1 fun x hx => hfinite x (List.mem_append_left _ hx)
    have hrest := fieldsOfDecided?_keyed rest hformed.2 fun x hx =>
      hfinite x (List.mem_append_right _ hx)
    simp only [hkeyed, fieldsOfDecided?, hv, hrest, Option.map_some]

end

/-- A value is read back, so each of its numbers is of the kind that it was of. -/
theorem reads {v : Value} (hformed : v.WellFormed)
    (hfinite : ∀ x ∈ v.floats, x.isFinite = true) : Reads read v.toData.toJson v :=
  fun decided _ hroom => (Json.settled_part decided hroom).bind
    (.of_eq_some (ofDecided?_part v hformed hfinite))

end Value

end Dataflow
