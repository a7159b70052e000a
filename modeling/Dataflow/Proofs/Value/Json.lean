/-
# Values written as JSON and read back

In both forms of a value the kinds of its numbers and the order of its fields are kept. A record
that is written as an array comes back with its names, since these were the numerals from zero; one
that is written as an object comes back with whatever names it has. So a value is read back from
either form if its floats are finite. A float that is not finite is written as null, which is no
value, so then reading fails.
-/

import Dataflow.Proofs.Document.Values
import Dataflow.Proofs.ValueType
import Dataflow.Value.Json

namespace Dataflow.Value

theorem fieldsToJson_eq_map (entries : List (String × Value)) :
    fieldsToJson entries = entries.map fun entry => (entry.1, entry.2.toJson) := by
  induction entries with
  | nil => rfl
  | cons entry rest ih => rw [fieldsToJson, ih, List.map_cons]

theorem itemsToJson_eq_map (entries : List (String × Value)) :
    itemsToJson entries = (fieldsToJson entries).map Prod.snd := by
  induction entries with
  | nil => rfl
  | cons entry rest ih => rw [itemsToJson, ih, fieldsToJson, List.map_cons]

theorem fieldsToPlainJson_eq_map (entries : List (String × Value)) :
    fieldsToPlainJson entries = entries.map fun entry => (entry.1, entry.2.toPlainJson) := by
  induction entries with
  | nil => rfl
  | cons entry rest ih => rw [fieldsToPlainJson, ih, List.map_cons]

mutual

/-- The plain form is that of the value as data. -/
theorem toJson_toData : ∀ v : Value, v.toData.toJson = v.toPlainJson
  | .boolean _ | .integer _ | .float _ | .string _ => rfl
  | .record ⟨entries⟩ => by
    rw [toData, Data.toJson, membersToJson_fieldsToData, toPlainJson]

theorem membersToJson_fieldsToData : ∀ entries : List (String × Value),
    Data.membersToJson (fieldsToData entries) = fieldsToPlainJson entries
  | [] => rfl
  | (name, v) :: rest => by
    rw [fieldsToData, Data.membersToJson, toJson_toData v, membersToJson_fieldsToData rest,
      fieldsToPlainJson]

end

/-- The items of an array are read as the members of an object are, without the names. -/
theorem itemsOfJson_map_snd (members : List (String × Json)) :
    itemsOfJson (members.map Prod.snd) = (fieldsOfJson members).map (List.map Prod.snd) := by
  induction members with
  | nil => rfl
  | cons member rest ih =>
    rw [List.map_cons, itemsOfJson, ih, fieldsOfJson]
    cases ofJson member.2 with
    | error violation => rfl
    | ok v => cases fieldsOfJson rest <;> rfl

/-- What is read back from a form of something in which these floats stand. -/
def readBack {α : Type} (floats : List Binary64) (written : α) : Except Violation α :=
  if ∀ x ∈ floats, x.isFinite = true then .ok written else .error .nullValue

section

variable {v : Value} {entries : List (String × Value)} {encode : Value → Json}

theorem ofJson_floatToJson (x : Binary64) :
    ofJson (floatToJson x) = readBack [x] (.float x) := by
  rw [readBack, floatToJson]
  by_cases hfinite : x.isFinite = true <;> simp [hfinite, ofJson]

/-- Members are read back if what is under each name is. -/
theorem fieldsOfJson_map
    (hread : ∀ entry ∈ entries, ofJson (encode entry.2) = readBack entry.2.floats entry.2) :
    fieldsOfJson (entries.map fun entry => (entry.1, encode entry.2)) =
      readBack (floatsOfFields entries) entries := by
  induction entries with
  | nil => simp [fieldsOfJson, readBack, floatsOfFields]
  | cons entry rest ih =>
    rw [List.forall_mem_cons] at hread
    rw [List.map_cons, fieldsOfJson, hread.1, ih hread.2, floatsOfFields]
    simp only [readBack, List.forall_mem_append]
    by_cases hfirst : ∀ x ∈ entry.2.floats, x.isFinite = true
    · by_cases hrest : ∀ x ∈ floatsOfFields rest, x.isFinite = true
      · simp only [if_pos hfirst, if_pos hrest, if_pos (And.intro hfirst hrest)]
        rfl
      · simp only [if_pos hfirst, if_neg hrest, if_neg fun h => hrest (And.right h)]
        rfl
    · simp only [if_neg hfirst, if_neg fun h => hfirst (And.left h)]

/-- An object is read back as the record of its members. -/
theorem ofJson_object (hdistinct : (entries.map Prod.fst).Nodup)
    (hread : ∀ entry ∈ entries, ofJson (encode entry.2) = readBack entry.2.floats entry.2) :
    ofJson (.object ⟨entries.map fun entry => (entry.1, encode entry.2)⟩) =
      readBack (floatsOfFields entries) (.record ⟨entries⟩) := by
  rw [ofJson, fieldsOfJson_map hread, readBack, readBack]
  split
  · rw [Except.map, Named.ofList_eq_of_nodup hdistinct]
  · rfl

/-- An array is read back as the record whose names are the numerals from zero. -/
theorem ofJson_array (hnames : Named.areNumerals 0 (entries.map Prod.fst) = true)
    (hread : ∀ entry ∈ entries, ofJson (encode entry.2) = readBack entry.2.floats entry.2) :
    ofJson (.array ((entries.map fun entry => (entry.1, encode entry.2)).map Prod.snd)) =
      readBack (floatsOfFields entries) (.record ⟨entries⟩) := by
  rw [ofJson, itemsOfJson_map_snd, fieldsOfJson_map hread, readBack, readBack]
  split
  · rw [Except.map, Except.map, tuple, Named.positional_eq, Named.numbered_map_snd hnames]
  · rfl

/-- A scalar is read back from any form that writes it as it is. -/
theorem ofJson_scalar (hscalar : v.asRecord? = none) :
    ofJson v.toJson = readBack v.floats v ∧ ofJson v.toPlainJson = readBack v.floats v := by
  cases v with
  | boolean | string => simp [toJson, toPlainJson, ofJson, readBack, floats]
  | integer i => simp [toJson, toPlainJson, ofJson, readBack, floats, ofInteger_toInt]
  | float x => exact ⟨ofJson_floatToJson x, ofJson_floatToJson x⟩
  | record => cases hscalar

/-- A value is read back from the interchange form, if its floats are finite. -/
theorem ofJson_toJson (v : Value) (hformed : v.WellFormed) :
    ofJson v.toJson = readBack v.floats v := by
  induction v using induct with
  | scalar v hscalar => exact (ofJson_scalar hscalar).1
  | record a ih =>
    obtain ⟨entries⟩ := a
    obtain ⟨hdistinct, hinner⟩ := wellFormed_record.mp hformed
    have hread : ∀ entry ∈ entries, ofJson entry.2.toJson = readBack entry.2.floats entry.2 :=
      fun entry hentry => ih entry hentry (wellFormed_of_mem hinner hentry)
    rw [toJson, itemsToJson_eq_map, fieldsToJson_eq_map, floats]
    split
    · rename_i hnames
      exact ofJson_array hnames hread
    · exact ofJson_object hdistinct hread

/-- So it is from the plain form. -/
theorem ofJson_toPlainJson (v : Value) (hformed : v.WellFormed) :
    ofJson v.toPlainJson = readBack v.floats v := by
  induction v using induct with
  | scalar v hscalar => exact (ofJson_scalar hscalar).2
  | record a ih =>
    obtain ⟨entries⟩ := a
    obtain ⟨hdistinct, hinner⟩ := wellFormed_record.mp hformed
    rw [toPlainJson, fieldsToPlainJson_eq_map, floats]
    exact ofJson_object hdistinct fun entry hentry =>
      ih entry hentry (wellFormed_of_mem hinner hentry)

end

/-- A value whose floats are finite is read back from both forms of JSON, and from the plain one by
the reader of documents as well: with the same fields in the same order and the same kinds. One with
a float that is not finite is read back from neither: reading fails. -/
theorem json_reads_back (v : Value) (hformed : v.WellFormed) :
    ((∀ x ∈ v.floats, x.isFinite = true) →
      ofJson v.toJson = .ok v ∧ ofJson v.toPlainJson = .ok v ∧
        Document.read? read (.ofJson v.toPlainJson) = some v) ∧
    ((∃ x ∈ v.floats, x.isFinite = false) →
      ofJson v.toJson = .error .nullValue ∧ ofJson v.toPlainJson = .error .nullValue) := by
  rw [ofJson_toJson v hformed, ofJson_toPlainJson v hformed]
  constructor
  · intro hfinite
    refine ⟨if_pos hfinite, if_pos hfinite, ?_⟩
    rw [← toJson_toData]
    exact (reads hformed hfinite).read?_ofJson
  · rintro ⟨x, hx, hinfinite⟩
    have hnot : ¬ ∀ x ∈ v.floats, x.isFinite = true := fun hall =>
      Bool.false_ne_true (hinfinite.symm.trans (hall x hx))
    exact ⟨if_neg hnot, if_neg hnot⟩

/-- A record with positional and named records, numbers of all kinds and names that are numerals
out of order is read back, and one with not-a-number is not. -/
theorem json_reads_back_nested :
    let v : Value := .record ⟨[("pair", tuple [.float (.ofBits 0x3ff0000000000000), .integer 1]),
      ("swapped", .record ⟨[("1", .boolean true), ("0", emptyRecord)]⟩)]⟩
    let w : Value := .record ⟨[("reading", .float Binary64.nan)]⟩
    ofJson v.toJson = .ok v ∧ ofJson v.toPlainJson = .ok v ∧
      Document.read? read (.ofJson v.toPlainJson) = some v ∧ ofJson w.toJson = .error .nullValue := by
  intro v w
  obtain ⟨hform, hplain, hread⟩ := (json_reads_back v (by decide)).1 (by decide)
  exact ⟨hform, hplain, hread, ((json_reads_back w (by decide)).2 (by decide)).1⟩

end Dataflow.Value
