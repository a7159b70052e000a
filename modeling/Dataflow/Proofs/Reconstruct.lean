/-
# What reconstruction accepts and yields

A raw value fits a declared type if it is of its kind, a boolean for an integer, an
integer for a float, or a record whose items fit the fields one by one. Fitting is
exactly what makes reconstruction succeed, whatever a type accepts fits it, and what
reconstruction yields under a well-formed type has the shape of that type. A value of that
shape is reconstructed as it is. A failure always blames the owner.
-/

import Dataflow.Proofs.ValueType
import Dataflow.Value.Reconstruct

namespace Dataflow

namespace ValueType

mutual

/-- Whether a raw value fits a declared type: it is of its kind or of one that
converts to it, or both are records and the items fit the fields. -/
def fits : ValueType → Value → Bool
  | .record ⟨_, fields⟩, .record ⟨entries⟩ =>
    fieldsFit (Named.areNumerals 0 (entries.map Prod.fst)) fields entries
  | declared, raw =>
    raw.kind.isSubkindOf declared.kind || (raw.kind == .integer && declared.kind == .float)

/-- Whether the items of a raw record fit declared fields: there are as many of
them, each fits by type, and by name unless the record is positional. -/
def fieldsFit (positional : Bool) : List (String × ValueType) → List (String × Value) → Bool
  | [], [] => true
  | (field, type) :: fields, (name, raw) :: entries =>
    (positional || field == name) && fits type raw && fieldsFit positional fields entries
  | _, _ => false

end

theorem length_eq_of_fieldsFit {positional : Bool} {fields : List (String × ValueType)}
    {entries : List (String × Value)} (hfit : fieldsFit positional fields entries = true) :
    entries.length = fields.length := by
  induction fields generalizing entries with
  | nil =>
    cases entries with
    | nil => rfl
    | cons entry rest => simp [fieldsFit] at hfit
  | cons field fields ih =>
    cases entries with
    | nil => simp [fieldsFit] at hfit
    | cons entry rest =>
      simp only [fieldsFit, Bool.and_eq_true] at hfit
      simp [ih hfit.2]

mutual

theorem fits_of_accepts : ∀ (declared : ValueType) (raw : Value),
    declared.accepts raw.type = true → declared.fits raw = true
  | .record ⟨_, fields⟩, .record ⟨entries⟩, haccepts => by
    simp only [Value.type, RecordSchema.inferred, accepts, Value.map_fst_fieldTypes] at haccepts
    simpa [fits] using fieldsFit_of_acceptsFields fields entries haccepts
  | .record ⟨_, _⟩, .boolean _, haccepts | .record ⟨_, _⟩, .integer _, haccepts
  | .record ⟨_, _⟩, .float _, haccepts | .record ⟨_, _⟩, .string _, haccepts => by
    simp [Value.type, accepts] at haccepts
  | .string, raw, haccepts | .integer, raw, haccepts
  | .float, raw, haccepts | .boolean, raw, haccepts => by
    cases raw <;> simp_all [Value.type, accepts, fits, kind, Value.kind]

theorem fieldsFit_of_acceptsFields {positional : Bool} :
    ∀ (fields : List (String × ValueType)) (entries : List (String × Value)),
      acceptsFields positional fields (Value.fieldTypes entries) = true →
        fieldsFit positional fields entries = true
  | [], [], _ => rfl
  | [], _ :: _, haccepts | _ :: _, [], haccepts => by
    simp [Value.fieldTypes, acceptsFields] at haccepts
  | (field, type) :: fields, (name, raw) :: entries, haccepts => by
    simp only [Value.fieldTypes, acceptsFields, Bool.and_eq_true] at haccepts
    obtain ⟨⟨hname, htype⟩, hrest⟩ := haccepts
    simp [fieldsFit, fits_of_accepts type raw htype,
      fieldsFit_of_acceptsFields fields entries hrest]
    simpa using hname

end

end ValueType

section

variable {owner : String}

mutual

/-- Reconstruction succeeds exactly on the values that fit. -/
theorem isOk_reconstruct : ∀ (declared : ValueType) (raw : Value),
    (reconstruct owner declared raw).isOk = declared.fits raw
  | .record ⟨name, fields⟩, .record ⟨entries⟩ => by
    by_cases hlength : entries.length = fields.length
    · have hfields := isOk_reconstructFields ⟨name, fields⟩
        (Named.areNumerals 0 (entries.map Prod.fst)) fields entries hlength
      simp only [reconstruct, hlength, ne_eq, not_true_eq_false, if_false, ValueType.fits]
      rw [← hfields]
      cases reconstructFields owner ⟨name, fields⟩ _ fields entries <;> rfl
    · have hunfit : ValueType.fieldsFit (Named.areNumerals 0 (entries.map Prod.fst)) fields
          entries = false := by
        rw [← Bool.not_eq_true]
        exact fun hfit => hlength (ValueType.length_eq_of_fieldsFit hfit)
      simp [reconstruct, hlength, ValueType.fits, hunfit, Except.isOk, Except.toBool]
  | .record ⟨_, _⟩, .boolean _ | .record ⟨_, _⟩, .integer _
  | .record ⟨_, _⟩, .float _ | .record ⟨_, _⟩, .string _ => rfl
  | .string, raw | .integer, raw | .float, raw | .boolean, raw => by
    cases raw <;> rfl

theorem isOk_reconstructFields (schema : RecordSchema) (positional : Bool) :
    ∀ (fields : List (String × ValueType)) (entries : List (String × Value)),
      entries.length = fields.length →
        (reconstructFields owner schema positional fields entries).isOk =
          ValueType.fieldsFit positional fields entries
  | [], [], _ => rfl
  | [], _ :: _, hlength | _ :: _, [], hlength => by simp at hlength
  | (field, type) :: fields, (name, raw) :: entries, hlength => by
    have htype := isOk_reconstruct type raw
    have hrest := isOk_reconstructFields schema positional fields entries (by simpa using hlength)
    by_cases hname : positional = false ∧ field ≠ name
    · simp [reconstructFields, ValueType.fieldsFit, hname.1, hname.2, Except.isOk, Except.toBool]
    · have hagree : (positional || field == name) = true := by
        cases positional <;> simp_all
      have hstep : (!positional && field != name) = false := by
        cases positional <;> simp_all
      simp only [reconstructFields, hstep, Bool.false_eq_true, if_false, ValueType.fieldsFit,
        hagree, Bool.true_and]
      rw [← htype, ← hrest]
      cases reconstruct owner type raw with
      | error fault => rfl
      | ok v => cases reconstructFields owner schema positional fields entries <;> rfl

end

/-- A value that fits is reconstructed. -/
theorem exists_reconstruct_eq_ok {declared : ValueType} {raw : Value}
    (hfit : declared.fits raw = true) : ∃ v, reconstruct owner declared raw = .ok v := by
  have hok : (reconstruct owner declared raw).isOk = declared.fits raw :=
    isOk_reconstruct declared raw
  cases hresult : reconstruct owner declared raw with
  | error fault => simp [hresult, hfit, Except.isOk, Except.toBool] at hok
  | ok v => exact ⟨v, rfl⟩

mutual

/-- A failed reconstruction blames the owner. -/
theorem exists_output_of_reconstruct : ∀ (declared : ValueType) (raw : Value) {fault : GraphError},
    reconstruct owner declared raw = .error fault →
      ∃ type produced, fault = .output owner type produced
  | .record ⟨name, fields⟩, .record ⟨entries⟩, fault, herror => by
    by_cases hlength : entries.length = fields.length
    · simp only [reconstruct, hlength, ne_eq, not_true_eq_false, if_false] at herror
      cases hfields : reconstructFields owner ⟨name, fields⟩
          (Named.areNumerals 0 (entries.map Prod.fst)) fields entries with
      | error inner =>
        obtain ⟨type, produced, rfl⟩ := exists_output_of_reconstructFields fields entries hfields
        exact ⟨type, produced, by simpa [hfields, Except.map] using herror.symm⟩
      | ok rebuilt => simp [hfields, Except.map] at herror
    · simp only [reconstruct, hlength, ne_eq, not_false_eq_true, if_true] at herror
      exact ⟨_, _, (Except.error.inj herror).symm⟩
  | .record ⟨_, _⟩, .boolean _, _, herror | .record ⟨_, _⟩, .integer _, _, herror
  | .record ⟨_, _⟩, .float _, _, herror | .record ⟨_, _⟩, .string _, _, herror =>
    ⟨_, _, (Except.error.inj herror).symm⟩
  | .string, raw, _, herror | .integer, raw, _, herror
  | .float, raw, _, herror | .boolean, raw, _, herror => by
    cases raw <;> first
      | exact ⟨_, _, (Except.error.inj herror).symm⟩
      | simp [reconstruct] at herror

theorem exists_output_of_reconstructFields {schema : RecordSchema} {positional : Bool} :
    ∀ (fields : List (String × ValueType)) (entries : List (String × Value)) {fault : GraphError},
      reconstructFields owner schema positional fields entries = .error fault →
        ∃ type produced, fault = .output owner type produced
  | [], [], _, herror | [], _ :: _, _, herror | _ :: _, [], _, herror => by
    simp [reconstructFields] at herror
  | (field, type) :: fields, (name, raw) :: entries, fault, herror => by
    rw [reconstructFields] at herror
    split at herror
    · exact ⟨_, _, (Except.error.inj herror).symm⟩
    · cases hitem : reconstruct owner type raw with
      | error inner =>
        simp only [hitem] at herror
        exact Except.error.inj herror ▸ exists_output_of_reconstruct type raw hitem
      | ok v =>
        simp only [hitem] at herror
        cases hrest : reconstructFields owner schema positional fields entries with
        | error inner =>
          simp only [hrest, Except.map] at herror
          exact Except.error.inj herror ▸ exists_output_of_reconstructFields fields entries hrest
        | ok rebuilt => simp [hrest, Except.map] at herror

end

/-- A field is reconstructed if the names agree and its item is, and the rest is after it. -/
theorem reconstructFields_cons_eq_ok {schema : RecordSchema} {positional : Bool}
    {field name : String} {type : ValueType} {raw : Value} {fields : List (String × ValueType)}
    {entries rebuilt : List (String × Value)} :
    reconstructFields owner schema positional ((field, type) :: fields) ((name, raw) :: entries) =
        .ok rebuilt ↔
      (positional = true ∨ field = name) ∧ ∃ v others, reconstruct owner type raw = .ok v ∧
        reconstructFields owner schema positional fields entries = .ok others ∧
        rebuilt = (field, v) :: others := by
  rw [reconstructFields]
  by_cases hname : positional = true ∨ field = name
  · have hstep : (!positional && field != name) = false := by
      rcases hname with rfl | rfl <;> simp
    simp only [hstep, Bool.false_eq_true, if_false, hname, true_and]
    cases hitem : reconstruct owner type raw with
    | error fault => simp
    | ok v =>
      cases hrest : reconstructFields owner schema positional fields entries with
      | error fault => simp [Except.map]
      | ok others => simp [Except.map, eq_comm]
  · have hstep : (!positional && field != name) = true := by simp_all
    simp [hstep, hname]

/-- Under a record type a record of its size is reconstructed, field by field. -/
theorem reconstruct_record_eq_ok {schema : RecordSchema} {raw v : Value} :
    reconstruct owner (.record schema) raw = .ok v ↔
      ∃ entries rebuilt, raw = .record ⟨entries⟩ ∧ entries.length = schema.size ∧
        reconstructFields owner schema (Named.areNumerals 0 (entries.map Prod.fst)) schema.fields
          entries = .ok rebuilt ∧ v = .record (.ofList rebuilt) := by
  obtain ⟨name, fields⟩ := schema
  cases raw with
  | boolean | integer | float | string => simp [reconstruct]
  | record given =>
    obtain ⟨entries⟩ := given
    simp only [Value.record.injEq, Named.mk.injEq, RecordSchema.size]
    constructor
    · intro hok
      by_cases hlength : entries.length = fields.length
      · simp only [reconstruct, hlength, ne_eq, not_true_eq_false, if_false] at hok
        cases hrebuilt : reconstructFields owner ⟨name, fields⟩
            (Named.areNumerals 0 (entries.map Prod.fst)) fields entries with
        | error fault => simp [hrebuilt, Except.map] at hok
        | ok rebuilt =>
          simp only [hrebuilt, Except.map, Except.ok.injEq] at hok
          exact ⟨entries, rebuilt, rfl, hlength, hrebuilt, hok.symm⟩
      · simp [reconstruct, hlength] at hok
    · rintro ⟨_, rebuilt, rfl, hlength, hrebuilt, rfl⟩
      simp [reconstruct, hlength, hrebuilt, Except.map]

mutual

/-- What is reconstructed under a well-formed type has the shape of that type. -/
theorem shape_type_of_reconstruct : ∀ (declared : ValueType) (raw : Value) {v : Value},
    declared.WellFormed → reconstruct owner declared raw = .ok v → v.type.shape = declared.shape
  | .record ⟨name, fields⟩, raw, v, hformed, hok => by
    simp only [ValueType.WellFormed, ValueType.isWellFormed, Bool.and_eq_true,
      decide_eq_true_eq] at hformed
    obtain ⟨entries, rebuilt, rfl, hlength, hrebuilt, rfl⟩ := reconstruct_record_eq_ok.mp hok
    have hshapes := fieldShapes_of_reconstructFields fields entries hformed.2 hlength hrebuilt
    have hnames : rebuilt.map Prod.fst = fields.map Prod.fst := by
      simpa using congrArg (List.map Prod.fst) hshapes
    rw [Named.ofList_eq_of_nodup (hnames ▸ hformed.1)]
    simp [Value.type, RecordSchema.inferred, hshapes]
  | .string, raw, _, _, hok | .integer, raw, _, _, hok
  | .float, raw, _, _, hok | .boolean, raw, _, _, hok => by
    cases raw <;> simp only [reconstruct, reduceCtorEq, Except.ok.injEq] at hok <;>
      (subst hok; rfl)

theorem fieldShapes_of_reconstructFields {schema : RecordSchema} {positional : Bool} :
    ∀ (fields : List (String × ValueType)) (entries : List (String × Value))
      {rebuilt : List (String × Value)}, ValueType.areWellFormed fields = true →
      entries.length = fields.length →
      reconstructFields owner schema positional fields entries = .ok rebuilt →
        ValueType.fieldShapes (Value.fieldTypes rebuilt) = ValueType.fieldShapes fields
  | [], [], rebuilt, _, _, hok => by
    simp only [reconstructFields, Except.ok.injEq] at hok
    subst hok
    rfl
  | [], _ :: _, _, _, hlength, _ | _ :: _, [], _, _, hlength, _ => by simp at hlength
  | (field, type) :: fields, (name, raw) :: entries, rebuilt, hformed, hlength, hok => by
    simp only [ValueType.areWellFormed, Bool.and_eq_true] at hformed
    obtain ⟨-, v, others, hitem, hrest, rfl⟩ := reconstructFields_cons_eq_ok.mp hok
    simp [Value.fieldTypes, ValueType.fieldShapes,
      shape_type_of_reconstruct type raw hformed.1 hitem,
      fieldShapes_of_reconstructFields fields entries hformed.2 (by simpa using hlength) hrest]

end

mutual

/-- A value that is of a well-formed type already is reconstructed as it is. -/
theorem reconstruct_eq_self : ∀ (declared : ValueType) (v : Value), declared.WellFormed →
    v.type.shape = declared.shape → reconstruct owner declared v = .ok v
  | .record ⟨name, fields⟩, .record ⟨entries⟩, hformed, hshape => by
    simp only [ValueType.WellFormed, ValueType.isWellFormed, Bool.and_eq_true,
      decide_eq_true_eq] at hformed
    have hshapes : ValueType.fieldShapes (Value.fieldTypes entries) =
        ValueType.fieldShapes fields := by
      simpa [Value.type, RecordSchema.inferred] using hshape
    have hnames : entries.map Prod.fst = fields.map Prod.fst := by
      simpa using congrArg (List.map Prod.fst) hshapes
    have hlength : entries.length = fields.length := by
      simpa using congrArg List.length hnames
    have hdistinct : (entries.map Prod.fst).Nodup := hnames ▸ hformed.1
    refine reconstruct_record_eq_ok.mpr ⟨entries, entries, rfl, hlength,
      reconstructFields_eq_self fields entries hformed.2 hshapes, ?_⟩
    rw [Named.ofList_eq_of_nodup hdistinct]
  | .record ⟨_, _⟩, .boolean _, _, hshape | .record ⟨_, _⟩, .integer _, _, hshape
  | .record ⟨_, _⟩, .float _, _, hshape | .record ⟨_, _⟩, .string _, _, hshape => by
    simp [Value.type, ValueType.shape] at hshape
  | .string, v, _, hshape | .integer, v, _, hshape
  | .float, v, _, hshape | .boolean, v, _, hshape => by
    cases v <;> first
      | rfl
      | simp [Value.type, ValueType.shape, RecordSchema.inferred] at hshape

theorem reconstructFields_eq_self {schema : RecordSchema} {positional : Bool} :
    ∀ (fields : List (String × ValueType)) (entries : List (String × Value)),
      ValueType.areWellFormed fields = true →
      ValueType.fieldShapes (Value.fieldTypes entries) = ValueType.fieldShapes fields →
        reconstructFields owner schema positional fields entries = .ok entries
  | [], [], _, _ => by simp [reconstructFields]
  | [], _ :: _, _, hshapes | _ :: _, [], _, hshapes => by
    simp [Value.fieldTypes, ValueType.fieldShapes] at hshapes
  | (field, type) :: fields, (name, v) :: entries, hformed, hshapes => by
    simp only [ValueType.areWellFormed, Bool.and_eq_true] at hformed
    simp only [Value.fieldTypes, ValueType.fieldShapes, List.cons.injEq, Prod.mk.injEq] at hshapes
    obtain ⟨⟨rfl, hshape⟩, hrest⟩ := hshapes
    exact reconstructFields_cons_eq_ok.mpr ⟨.inr rfl, v, entries,
      reconstruct_eq_self type v hformed.1 hshape,
      reconstructFields_eq_self fields entries hformed.2 hrest, rfl⟩

end

/-- What is reconstructed of fields has their names. -/
theorem map_fst_of_reconstructFields {schema : RecordSchema} {positional : Bool}
    {fields : List (String × ValueType)} {entries rebuilt : List (String × Value)}
    (hlength : entries.length = fields.length)
    (hok : reconstructFields owner schema positional fields entries = .ok rebuilt) :
    rebuilt.map Prod.fst = fields.map Prod.fst := by
  induction fields generalizing entries rebuilt with
  | nil =>
    obtain rfl := List.length_eq_zero_iff.mp hlength
    rw [reconstructFields, Except.ok.injEq] at hok
    · rw [← hok, List.map_nil, List.map_nil]
    · simp
  | cons field fields ih =>
    cases entries with
    | nil => cases hlength
    | cons entry entries =>
      obtain ⟨-, v, others, -, hrest, rfl⟩ := reconstructFields_cons_eq_ok.mp hok
      rw [List.map_cons, List.map_cons, ih (Nat.succ.inj hlength) hrest]

/-- A record is reconstructed under a record type only, and under its names. -/
theorem exists_of_reconstruct_eq_record {declared : ValueType} {raw : Value}
    {fields : Named Value} (hok : reconstruct owner declared raw = .ok (.record fields)) :
    ∃ schema rebuilt, declared = .record schema ∧ fields = .ofList rebuilt ∧
      rebuilt.map Prod.fst = schema.fieldNames := by
  cases declared with
  | string | integer | float | boolean => cases raw <;> simp [reconstruct] at hok
  | record schema =>
    obtain ⟨entries, rebuilt, rfl, hlength, hrebuilt, hfields⟩ := reconstruct_record_eq_ok.mp hok
    exact ⟨schema, rebuilt, rfl, Value.record.inj hfields,
      map_fst_of_reconstructFields hlength hrebuilt⟩

/-- Fields are reconstructed position by position, each under its own type. -/
theorem getElem?_of_reconstructFields {schema : RecordSchema} {positional : Bool}
    {fields : List (String × ValueType)} {entries rebuilt : List (String × Value)}
    (hlength : entries.length = fields.length)
    (hok : reconstructFields owner schema positional fields entries = .ok rebuilt)
    {position : Nat} {field : String} {type : ValueType}
    (hfield : fields[position]? = some (field, type)) :
    ∃ name raw v, entries[position]? = some (name, raw) ∧
      reconstruct owner type raw = .ok v ∧ rebuilt[position]? = some (field, v) := by
  induction fields generalizing entries rebuilt position with
  | nil => simp at hfield
  | cons first fields ih =>
    cases entries with
    | nil => cases hlength
    | cons entry entries =>
      obtain ⟨-, v, others, hitem, hrest, rfl⟩ := reconstructFields_cons_eq_ok.mp hok
      cases position with
      | zero =>
        obtain rfl := Option.some.inj hfield
        exact ⟨entry.1, entry.2, v, rfl, hitem, rfl⟩
      | succ position => exact ih (Nat.succ.inj hlength) hrest hfield

/-- Under a record type only a record is reconstructed, into one whose items have the declared
names and are the reconstructions of its own items, position by position. -/
theorem exists_of_reconstruct_record {schema : RecordSchema} {raw v : Value}
    (hok : reconstruct owner (.record schema) raw = .ok v) :
    ∃ entries rebuilt, raw = .record ⟨entries⟩ ∧ entries.length = schema.size ∧
      v = .record (.ofList rebuilt) ∧ rebuilt.map Prod.fst = schema.fieldNames ∧
      ∀ position field type, schema.fieldAt? position = some (field, type) →
        ∃ name item w, entries[position]? = some (name, item) ∧
          reconstruct owner type item = .ok w ∧ rebuilt[position]? = some (field, w) := by
  obtain ⟨entries, rebuilt, hraw, hlength, hrebuilt, hv⟩ := reconstruct_record_eq_ok.mp hok
  exact ⟨entries, rebuilt, hraw, hlength, hv, map_fst_of_reconstructFields hlength hrebuilt,
    fun position field type hfield => getElem?_of_reconstructFields hlength hrebuilt hfield⟩

end

end Dataflow
