/-
# Values that fit declared types

What it is for a raw value to fit a declared type, told position by position and without the
function that checks it: a scalar fits where its kind or one that it converts to is declared,
and a record fits field by field, under the declared names or under none of its own. Under a
type whose field names are distinct, reconstruction succeeds exactly on the values that fit. It
gives a value of the declared names and kinds at every depth, which no further reconstruction
changes, and it fails only by blaming the owner.
-/

import Dataflow.Proofs.Reconstruct

namespace Dataflow

namespace ValueType

/-- A raw value fits a declared type: a scalar its own kind, a boolean an integer, an integer a
float, and a record a schema. -/
inductive Fits : ValueType → Value → Prop where
  | scalar {type : ValueType} {raw : Value} (hscalar : type.isScalar = true)
      (hkind : raw.kind = type.kind) : Fits type raw
  | boolean (b : Bool) : Fits .integer (.boolean b)
  | integer (i : Int64) : Fits .float (.integer i)
  /-- A record fits a schema of its size if it is positional or has the declared names in
  order, and each of its items fits the field at its position. -/
  | record {schema : RecordSchema} {given : Record} (hsize : given.size = schema.size)
      (hnames : given.isPositional = true ∨ given.names = schema.fieldNames)
      (hitems : ∀ position field type name item,
        schema.fieldAt? position = some (field, type) →
          given.entryAt? position = some (name, item) → Fits type item) :
      Fits (.record schema) (.record given)

section

variable {positional : Bool} {fields : List (String × ValueType)}
  {entries : List (String × Value)}

theorem names_of_fieldsFit (hfit : fieldsFit positional fields entries = true) :
    positional = true ∨ entries.map Prod.fst = fields.map Prod.fst := by
  induction fields generalizing entries with
  | nil =>
    cases entries with
    | nil => exact .inr rfl
    | cons entry rest => simp [fieldsFit] at hfit
  | cons field fields ih =>
    cases entries with
    | nil => simp [fieldsFit] at hfit
    | cons entry rest =>
      simp only [fieldsFit, Bool.and_eq_true, Bool.or_eq_true, beq_iff_eq] at hfit
      obtain ⟨⟨hname, -⟩, hrest⟩ := hfit
      rcases ih hrest with hpositional | hnames
      · exact .inl hpositional
      · exact hname.imp_right fun hname => by rw [List.map_cons, List.map_cons, hname, hnames]

/-- Items fit fields if there are as many of them, under the same names or in a positional
record, and each fits the field at its position. -/
theorem fieldsFit_of_items (hlength : entries.length = fields.length)
    (hnames : positional = true ∨ entries.map Prod.fst = fields.map Prod.fst)
    (hitems : ∀ (position : Nat) field type name item, fields[position]? = some (field, type) →
      entries[position]? = some (name, item) → type.fits item = true) :
    fieldsFit positional fields entries = true := by
  induction fields generalizing entries with
  | nil =>
    obtain rfl := List.length_eq_zero_iff.mp hlength
    rfl
  | cons field fields ih =>
    cases entries with
    | nil => cases hlength
    | cons entry rest =>
      have hhead : field.2.fits entry.2 = true := hitems 0 field.1 field.2 entry.1 entry.2 rfl rfl
      have htail : fieldsFit positional fields rest = true :=
        ih (Nat.succ.inj hlength) (hnames.imp_right fun hnames => (List.cons.inj hnames).2)
          fun position => hitems (position + 1)
      have hname : (positional || field.1 == entry.1) = true := by
        rcases hnames with hpositional | hnames
        · rw [hpositional, Bool.true_or]
        · rw [(List.cons.inj hnames).1, beq_self_eq_true, Bool.or_true]
      rw [fieldsFit, hname, hhead, htail]
      rfl

end

mutual

theorem Fits.of_fits : ∀ (declared : ValueType) (raw : Value), declared.fits raw = true →
    declared.Fits raw
  | .record ⟨_, fields⟩, .record ⟨entries⟩, hfit => by
    rw [fits] at hfit
    exact .record (length_eq_of_fieldsFit hfit) (names_of_fieldsFit hfit)
      (items_fit fields entries hfit)
  | .record ⟨_, _⟩, .boolean _, hfit | .record ⟨_, _⟩, .integer _, hfit
  | .record ⟨_, _⟩, .float _, hfit | .record ⟨_, _⟩, .string _, hfit => by
    simp [fits, kind, Value.kind, ValueKind.isSubkindOf] at hfit
  | .integer, .boolean b, _ => .boolean b
  | .float, .integer i, _ => .integer i
  | .string, .string _, _ | .integer, .integer _, _ | .float, .float _, _
  | .boolean, .boolean _, _ => .scalar rfl rfl
  | .string, .boolean _, hfit | .string, .integer _, hfit | .string, .float _, hfit
  | .string, .record _, hfit | .integer, .float _, hfit | .integer, .string _, hfit
  | .integer, .record _, hfit | .float, .boolean _, hfit | .float, .string _, hfit
  | .float, .record _, hfit | .boolean, .integer _, hfit | .boolean, .float _, hfit
  | .boolean, .string _, hfit | .boolean, .record _, hfit => by
    simp [fits, kind, Value.kind, ValueKind.isSubkindOf] at hfit

theorem items_fit {positional : Bool} :
    ∀ (fields : List (String × ValueType)) (entries : List (String × Value)),
      fieldsFit positional fields entries = true → ∀ (position : Nat) field type name item,
        fields[position]? = some (field, type) → entries[position]? = some (name, item) →
          Fits type item
  | [], _, _, position, _, _, _, _, hfield, _ => by simp at hfield
  | _ :: _, [], _, position, _, _, _, _, _, hentry => by simp at hentry
  | (_, first) :: fields, (_, raw) :: entries, hfit, position, field, type, name, item,
      hfield, hentry => by
    simp only [fieldsFit, Bool.and_eq_true] at hfit
    obtain ⟨⟨-, hfirst⟩, hrest⟩ := hfit
    cases position with
    | zero =>
      obtain ⟨-, rfl⟩ := Prod.mk.inj (Option.some.inj hfield)
      obtain ⟨-, rfl⟩ := Prod.mk.inj (Option.some.inj hentry)
      exact .of_fits _ _ hfirst
    | succ position => exact items_fit fields entries hrest position _ _ _ _ hfield hentry

end

/-- The check of fitting tells which values fit. -/
theorem fits_iff {declared : ValueType} {raw : Value} :
    declared.fits raw = true ↔ declared.Fits raw := by
  refine ⟨.of_fits declared raw, fun hfits => ?_⟩
  induction hfits with
  | @scalar type raw hscalar hkind =>
    cases type with
    | record schema => cases hscalar
    | string | integer | float | boolean => simp [fits, hkind, ValueKind.isSubkindOf]
  | boolean b => rfl
  | integer i => rfl
  | @record schema given hsize hnames hitems ih =>
    obtain ⟨name, fields⟩ := schema
    obtain ⟨entries⟩ := given
    rw [fits]
    exact fieldsFit_of_items hsize hnames ih

instance (declared : ValueType) (raw : Value) : Decidable (declared.Fits raw) :=
  decidable_of_iff _ fits_iff

end ValueType

/-- Under a type with distinct field names, reconstruction succeeds exactly on the raw values
that fit. What it gives has the declared names and kinds at every depth and is reconstructed as
it is, and where it fails it blames the owner. -/
theorem reconstruct_exact (owner : String) {declared : ValueType} (hformed : declared.WellFormed)
    (raw : Value) :
    ((∃ v, reconstruct owner declared raw = .ok v) ↔ declared.Fits raw) ∧
    (∀ v, reconstruct owner declared raw = .ok v →
      v.type.shape = declared.shape ∧ reconstruct owner declared v = .ok v) ∧
    ∀ fault, reconstruct owner declared raw = .error fault →
      ∃ type produced, fault = .output owner type produced := by
  refine ⟨⟨?_, fun hfits => exists_reconstruct_eq_ok (ValueType.fits_iff.mpr hfits)⟩, ?_,
    fun fault => exists_output_of_reconstruct declared raw⟩
  · rintro ⟨v, hok⟩
    rw [← ValueType.fits_iff, ← @isOk_reconstruct owner declared raw, hok]
    rfl
  · intro v hok
    have hshape := shape_type_of_reconstruct declared raw hformed hok
    exact ⟨hshape, reconstruct_eq_self declared v hformed hshape⟩

namespace Measured

/-- A record type with a record inside. -/
def declared : ValueType :=
  .record ⟨"Reading", [("valid", .integer), ("level", .float),
    ("place", .record ⟨"Place", [("row", .integer), ("label", .string)]⟩)]⟩

/-- A positional record, with a boolean for an integer and an integer for a float, around a
named one. -/
def raw : Value :=
  .record ⟨[("0", .boolean true), ("1", .integer 2),
    ("2", .record ⟨[("row", .integer 4), ("label", .string "north")]⟩)]⟩

/-- The integer two as a float. -/
def two : Binary64 := .ofInt 2

/-- The record of the declared type that the positional one stands for. -/
def rebuilt : Value :=
  .record ⟨[("valid", .integer 1), ("level", .float two),
    ("place", .record ⟨[("row", .integer 4), ("label", .string "north")]⟩)]⟩

/-- The record without its last item. -/
def short : Value := .record ⟨[("0", .boolean true), ("1", .integer 2)]⟩

end Measured

/-- A positional record fits, takes the declared names and kinds, and stays as it is from then
on; a shorter one does not fit and is refused. -/
theorem reconstruct_exact_measured :
    Measured.declared.WellFormed ∧ Measured.declared.Fits Measured.raw ∧
      reconstruct "gauge" Measured.declared Measured.raw = .ok Measured.rebuilt ∧
      Measured.rebuilt.type.shape = Measured.declared.shape ∧
      reconstruct "gauge" Measured.declared Measured.rebuilt = .ok Measured.rebuilt ∧
      ¬ Measured.declared.Fits Measured.short ∧
      ∃ fault type produced,
        reconstruct "gauge" Measured.declared Measured.short = .error fault ∧
          fault = .output "gauge" type produced := by
  have hformed : Measured.declared.WellFormed := by decide
  have hok : reconstruct "gauge" Measured.declared Measured.raw = .ok Measured.rebuilt := rfl
  have herror : reconstruct "gauge" Measured.declared Measured.short =
    .error (.output "gauge" Measured.declared (.recordOfSize 2)) := rfl
  obtain ⟨hexists, hgives, -⟩ := reconstruct_exact "gauge" hformed Measured.raw
  obtain ⟨hnone, -, hblames⟩ := reconstruct_exact "gauge" hformed Measured.short
  obtain ⟨hshape, hagain⟩ := hgives _ hok
  obtain ⟨type, produced, hfault⟩ := hblames _ herror
  refine ⟨hformed, hexists.mp ⟨_, hok⟩, hok, hshape, hagain, fun hfits => ?_,
    _, type, produced, herror, hfault⟩
  obtain ⟨v, hv⟩ := hnone.mpr hfits
  cases herror.symm.trans hv

end Dataflow
