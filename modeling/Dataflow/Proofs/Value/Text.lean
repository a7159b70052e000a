/-
# The text of a value

The interchange form of a value has no repeated names, and its numbers are the integers and the
finite floats of the value. So a value is read back from the compact text of this form, if it does
not nest too deep and its floats are read back where they stand alone. The reader of numbers is
not exact, so there are floats that are not.
-/

import Dataflow.Proofs.Json.Number
import Dataflow.Proofs.Json.Reader
import Dataflow.Proofs.Value.Json

namespace Dataflow

namespace Json

theorem mergedItems_eq_map (items : List Json) : mergedItems items = items.map merged := by
  induction items with
  | nil => rfl
  | cons item rest ih => rw [mergedItems, ih, List.map_cons]

theorem mergedMembers_eq_map (members : List (String × Json)) :
    mergedMembers members = members.map fun member => (member.1, member.2.merged) := by
  induction members with
  | nil => rfl
  | cons member rest ih => rw [mergedMembers, ih, List.map_cons]

end Json

namespace Value

/-- A number of the interchange form is an integer or a float of the value. -/
theorem exists_of_mem_numbers {v : Value} {number : Json} (hnumber : number ∈ v.toJson.numbers) :
    (∃ i : Int64, number = .integer i.toInt) ∨ ∃ x ∈ v.floats, number = .float x := by
  induction v using induct with
  | scalar v hscalar =>
    cases v with
    | boolean | string => cases hnumber
    | integer i => exact .inl ⟨i, List.mem_singleton.mp hnumber⟩
    | float x =>
      rw [toJson, floatToJson] at hnumber
      split at hnumber
      · exact .inr ⟨x, List.mem_singleton_self x, List.mem_singleton.mp hnumber⟩
      · cases hnumber
    | record => cases hscalar
  | record a ih =>
    obtain ⟨entries⟩ := a
    obtain ⟨entry, hentry, hmem⟩ : ∃ entry ∈ entries, number ∈ entry.2.toJson.numbers := by
      rw [toJson, itemsToJson_eq_map, fieldsToJson_eq_map] at hnumber
      split at hnumber
      · rw [Json.numbers, Json.mem_numbersOfItems] at hnumber
        simpa using hnumber
      · rw [Json.numbers, Json.mem_numbersOfMembers] at hnumber
        simpa using hnumber
    rcases ih entry hentry hmem with hinteger | ⟨x, hx, hfloat⟩
    · exact .inl hinteger
    · refine .inr ⟨x, ?_, hfloat⟩
      rw [floats, floatsOfFields_eq_flatMap]
      exact List.mem_flatMap.mpr ⟨entry, hentry, hx⟩

/-- No member is repeated in the interchange form. -/
theorem merged_toJson (v : Value) (hformed : v.WellFormed) : v.toJson.merged = v.toJson := by
  induction v using induct with
  | scalar v hscalar =>
    cases v with
    | boolean | string | integer => rfl
    | float x =>
      rw [toJson, floatToJson]
      split <;> rfl
    | record => cases hscalar
  | record a ih =>
    obtain ⟨entries⟩ := a
    obtain ⟨hdistinct, hinner⟩ := wellFormed_record.mp hformed
    have hmerged : ∀ entry ∈ entries, entry.2.toJson.merged = entry.2.toJson :=
      fun entry hentry => ih entry hentry (wellFormed_of_mem hinner hentry)
    have hfields : (fieldsToJson entries).map (fun member => (member.1, member.2.merged)) =
        fieldsToJson entries := by
      rw [fieldsToJson_eq_map, List.map_map]
      exact List.map_congr_left fun entry hentry => by
        rw [Function.comp_apply, hmerged entry hentry]
    rw [toJson]
    split
    · rw [Json.merged, Json.mergedItems_eq_map, itemsToJson_eq_map, List.map_map]
      nth_rewrite 2 [← hfields]
      rw [List.map_map]
      rfl
    · have hnames : ((fieldsToJson entries).map Prod.fst).Nodup := by
        rw [fieldsToJson_eq_map, List.map_map]
        exact hdistinct
      rw [Json.merged, Json.mergedMembers_eq_map, hfields, Named.ofList_eq_of_nodup hnames]

/-- The numbers of the interchange form are read back, if the floats of the value are. -/
theorem readsAlone_of_mem_numbers {v : Value} (hfloats : ∀ x ∈ v.floats,
    Json.read? (Json.float x).compact = some (.float x)) :
    ∀ number ∈ v.toJson.numbers, number.ReadsAlone := by
  intro number hnumber
  rcases exists_of_mem_numbers hnumber with ⟨i, rfl⟩ | ⟨x, hx, rfl⟩
  · have hfits := fitsInt64_toInt i
    have hlimit : Int64.maxValue.toInt ≤ Json.significandLimit := by decide
    exact Json.readsAlone_integer hfits.1 (Int.le_trans hfits.2 hlimit)
  · exact Json.readsAlone_float (hfloats x hx)

end Value

end Dataflow
