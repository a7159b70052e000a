/-
# Acceptance as an order that reconstruction honours

A type accepts another where values of the other may be supplied. Acceptance is reflexive and
transitive, and types that accept each other have one shape: they are equal up to the names of
their schemas. Transitivity rests on names. A record type accepts a positional one under any
names and any other one under its own names only, so whatever accepts a positional type that
stands between two others sees a positional type at the end too.

Reconstruction agrees with this order. If a type accepts another, then what is reconstructed
under the other is reconstructed under the first, and the detour changes nothing.
-/

import Dataflow.Proofs.Reconstruct.Fitting

namespace Dataflow

namespace ValueKind

variable {a b c : ValueKind}

theorem isSubkindOf_iff : a.isSubkindOf b = true ↔ a = b ∨ a = .boolean ∧ b = .integer := by
  simp [isSubkindOf]

theorem isSubkindOf_trans (hab : a.isSubkindOf b = true) (hbc : b.isSubkindOf c = true) :
    a.isSubkindOf c = true := by
  rcases isSubkindOf_iff.mp hab with rfl | ⟨rfl, rfl⟩
  · exact hbc
  · rcases isSubkindOf_iff.mp hbc with rfl | ⟨hinteger, -⟩
    · exact hab
    · cases hinteger

theorem isSubkindOf_antisymm (hab : a.isSubkindOf b = true) (hba : b.isSubkindOf a = true) :
    a = b := by
  rcases isSubkindOf_iff.mp hab with hsame | ⟨rfl, rfl⟩
  · exact hsame
  · cases hba

end ValueKind

namespace ValueType

/-- A type accepts types of its kind or of a lesser one only. -/
theorem isSubkindOf_of_accepts {a b : ValueType} (haccepts : a.accepts b = true) :
    b.kind.isSubkindOf a.kind = true := by
  cases a with
  | record schema =>
    cases b with
    | record other => rfl
    | string | integer | float | boolean => cases schema; simp [accepts] at haccepts
  | string | integer | float | boolean =>
    cases b <;> first
      | rfl
      | simp [accepts, kind, ValueKind.isSubkindOf] at haccepts

/-- A scalar accepts exactly the types of its kind or of a lesser one. -/
theorem accepts_eq_isSubkindOf {a : ValueType} (hscalar : a.isScalar = true) (b : ValueType) :
    a.accepts b = b.kind.isSubkindOf a.kind := by
  cases a with
  | record schema => cases hscalar
  | string | integer | float | boolean =>
    cases b <;> simp [accepts, kind, ValueKind.isSubkindOf]

theorem accepts_record_record (a b : RecordSchema) :
    (record a).accepts (record b) = acceptsFields b.isPositional a.fields b.fields := by
  cases a
  cases b
  simp only [accepts]
  rfl

/-- A record type accepts record types only. -/
theorem exists_record_of_accepts_of_record {schema : RecordSchema} {b : ValueType}
    (haccepts : (record schema).accepts b = true) : ∃ other, b = record other := by
  cases b with
  | record other => exact ⟨other, rfl⟩
  | string | integer | float | boolean => cases schema; simp [accepts] at haccepts

/-- A scalar type is told by its kind. -/
theorem eq_of_kind_eq {a b : ValueType} (hscalar : a.isScalar = true) (hkind : a.kind = b.kind) :
    a = b := by
  cases a with
  | record schema => cases hscalar
  | string | integer | float | boolean => cases b <;> first | rfl | cases hkind

section

variable {positional : Bool} {declared found : List (String × ValueType)}

theorem acceptsFields_cons_iff {name other : String} {type given : ValueType} :
    acceptsFields positional ((name, type) :: declared) ((other, given) :: found) = true ↔
      (positional = true ∨ name = other) ∧ type.accepts given = true ∧
        acceptsFields positional declared found = true := by
  simp [acceptsFields, and_assoc]

theorem length_eq_of_acceptsFields (haccepts : acceptsFields positional declared found = true) :
    declared.length = found.length := by
  induction declared generalizing found with
  | nil =>
    cases found with
    | nil => rfl
    | cons entry rest => simp [acceptsFields] at haccepts
  | cons field declared ih =>
    cases found with
    | nil => simp [acceptsFields] at haccepts
    | cons other found =>
      rw [List.length_cons, List.length_cons, ih (acceptsFields_cons_iff.mp haccepts).2.2]

/-- Fields accept fields of their own names, or any where the supplied ones are positional. -/
theorem names_of_acceptsFields (haccepts : acceptsFields positional declared found = true) :
    positional = true ∨ declared.map Prod.fst = found.map Prod.fst := by
  induction declared generalizing found with
  | nil =>
    obtain rfl := List.length_eq_zero_iff.mp (length_eq_of_acceptsFields haccepts).symm
    exact .inr rfl
  | cons field declared ih =>
    cases found with
    | nil => simp [acceptsFields] at haccepts
    | cons other found =>
      obtain ⟨hname, -, hrest⟩ := acceptsFields_cons_iff.mp haccepts
      rcases hname with hpositional | hname
      · exact .inl hpositional
      · exact (ih hrest).imp_right fun hnames => by rw [List.map_cons, List.map_cons, hname, hnames]

end

theorem WellFormed.fields {schema : RecordSchema} (h : (record schema).WellFormed) :
    areWellFormed schema.fields = true := by
  obtain ⟨name, fields⟩ := schema
  simp only [WellFormed, isWellFormed, Bool.and_eq_true] at h
  exact h.2

/-- What a positional record type accepts is positional. -/
theorem isPositional_of_accepts {a b : RecordSchema}
    (haccepts : (record a).accepts (record b) = true) (hpositional : a.isPositional = true) :
    b.isPositional = true := by
  rw [accepts_record_record] at haccepts
  rcases names_of_acceptsFields haccepts with hfound | hnames
  · exact hfound
  · rwa [RecordSchema.isPositional, RecordSchema.fieldNames, ← hnames]

mutual

/-- Acceptance is transitive. -/
theorem accepts_trans : ∀ {a b c : ValueType}, a.accepts b = true → b.accepts c = true →
    a.accepts c = true
  | .record ⟨name, fields⟩, b, c, hab, hbc => by
    obtain ⟨middle, rfl⟩ := exists_record_of_accepts_of_record hab
    obtain ⟨last, rfl⟩ := exists_record_of_accepts_of_record hbc
    have hflags : middle.isPositional = true → last.isPositional = true :=
      isPositional_of_accepts hbc
    rw [accepts_record_record] at hab hbc ⊢
    exact acceptsFields_trans hflags hab hbc
  | .string, b, c, hab, hbc | .integer, b, c, hab, hbc
  | .float, b, c, hab, hbc | .boolean, b, c, hab, hbc => by
    rw [accepts_eq_isSubkindOf rfl] at hab ⊢
    exact ValueKind.isSubkindOf_trans (isSubkindOf_of_accepts hbc) hab

theorem acceptsFields_trans {inner outer : Bool} (hflags : inner = true → outer = true) :
    ∀ {a b c : List (String × ValueType)}, acceptsFields inner a b = true →
      acceptsFields outer b c = true → acceptsFields outer a c = true
  | [], b, c, hab, hbc => by
    obtain rfl := List.length_eq_zero_iff.mp (length_eq_of_acceptsFields hab).symm
    exact hbc
  | field :: fields, b, c, hab, hbc => by
    cases b with
    | nil => simp [acceptsFields] at hab
    | cons middle rest =>
      cases c with
      | nil => simp [acceptsFields] at hbc
      | cons last others =>
        obtain ⟨hname, htype, hfields⟩ := acceptsFields_cons_iff.mp hab
        obtain ⟨hname', htype', hfields'⟩ := acceptsFields_cons_iff.mp hbc
        refine acceptsFields_cons_iff.mpr ⟨?_, accepts_trans htype htype',
          acceptsFields_trans hflags hfields hfields'⟩
        rcases hname with hinner | hname
        · exact .inl (hflags hinner)
        · rwa [hname]

end

mutual

/-- Types that accept each other have one shape. -/
theorem shape_eq_of_accepts : ∀ {a b : ValueType}, a.accepts b = true → b.accepts a = true →
    a.shape = b.shape
  | .record ⟨name, fields⟩, b, hab, hba => by
    obtain ⟨other, rfl⟩ := exists_record_of_accepts_of_record hab
    rw [accepts_record_record] at hab hba
    have hnames : fields.map Prod.fst = other.fields.map Prod.fst := by
      rcases names_of_acceptsFields hab with hother | hnames
      · rcases names_of_acceptsFields hba with hown | hnames
        · exact Named.eq_of_areNumerals hown hother
            (by simpa using length_eq_of_acceptsFields hab)
        · exact hnames.symm
      · exact hnames
    rw [shape_record, shape_record, fieldShapes_eq_of_acceptsFields hnames hab hba]
  | .string, b, hab, hba | .integer, b, hab, hba
  | .float, b, hab, hba | .boolean, b, hab, hba => by
    have hkind := ValueKind.isSubkindOf_antisymm (isSubkindOf_of_accepts hab)
      (isSubkindOf_of_accepts hba)
    cases b <;> first | rfl | cases hkind

theorem fieldShapes_eq_of_acceptsFields {first second : Bool} :
    ∀ {a b : List (String × ValueType)}, a.map Prod.fst = b.map Prod.fst →
      acceptsFields first a b = true → acceptsFields second b a = true →
        fieldShapes a = fieldShapes b
  | [], b, hnames, _, _ => by
    obtain rfl := List.map_eq_nil_iff.mp hnames.symm
    rfl
  | (name, type) :: fields, b, hnames, hab, hba => by
    cases b with
    | nil => cases hnames
    | cons other rest =>
      obtain ⟨-, htype, hfields⟩ := acceptsFields_cons_iff.mp hab
      obtain ⟨-, htype', hfields'⟩ := acceptsFields_cons_iff.mp hba
      obtain ⟨rfl, hrest⟩ := List.cons.inj hnames
      rw [fieldShapes, fieldShapes, shape_eq_of_accepts htype htype',
        fieldShapes_eq_of_acceptsFields hrest hfields hfields']

end

end ValueType

section

variable {first second third : String}

/-- A raw record has the names of the fields that are reconstructed of it, or none of its own. -/
theorem names_of_reconstructFields {schema : RecordSchema} {positional : Bool}
    {fields : List (String × ValueType)} {entries rebuilt : List (String × Value)}
    (hlength : entries.length = fields.length)
    (hok : reconstructFields first schema positional fields entries = .ok rebuilt) :
    positional = true ∨ entries.map Prod.fst = fields.map Prod.fst := by
  have hfit : (reconstructFields first schema positional fields entries).isOk =
      ValueType.fieldsFit positional fields entries :=
    isOk_reconstructFields schema positional fields entries hlength
  rw [hok] at hfit
  exact ValueType.names_of_fieldsFit hfit.symm

/-- Under a scalar a detour over a type that it accepts changes nothing. -/
theorem reconstruct_of_accepts_of_isScalar {declared found : ValueType} {raw v : Value}
    (hscalar : declared.isScalar = true) (haccepts : declared.accepts found = true)
    (hok : reconstruct first found raw = .ok v) :
    ∃ w, reconstruct second declared v = .ok w ∧ reconstruct third declared raw = .ok w := by
  rw [ValueType.accepts_eq_isSubkindOf hscalar] at haccepts
  rcases ValueKind.isSubkindOf_iff.mp haccepts with hkind | ⟨hfound, hdeclared⟩
  · obtain rfl := ValueType.eq_of_kind_eq hscalar hkind.symm
    cases declared with
    | record schema => cases hscalar
    | string | integer | float | boolean => cases raw <;> cases hok <;> exact ⟨_, rfl, rfl⟩
  · obtain rfl := ValueType.eq_of_kind_eq (a := .integer) rfl hdeclared.symm
    obtain rfl := ValueType.eq_of_kind_eq (a := .boolean) rfl hfound.symm
    cases raw <;> cases hok
    exact ⟨_, rfl, rfl⟩

/-- Under a record type a detour over a type that it accepts changes nothing, if none changes
anything under the types of the fields. -/
theorem reconstruct_record_of_fields {declared found : RecordSchema} {raw v : Value}
    (hdistinct : found.fieldNames.Nodup)
    (haccepts : (ValueType.record declared).accepts (.record found) = true)
    (hok : reconstruct first (.record found) raw = .ok v)
    (hfields : ∀ {outer : Bool} {entries rebuilt : List (String × Value)},
      (found.isPositional = true → outer = true) →
      ValueType.acceptsFields found.isPositional declared.fields found.fields = true →
      entries.length = found.fields.length →
      reconstructFields first found outer found.fields entries = .ok rebuilt →
        ∃ others,
          reconstructFields second declared found.isPositional declared.fields rebuilt =
            .ok others ∧
          reconstructFields third declared outer declared.fields entries = .ok others) :
    ∃ w, reconstruct second (.record declared) v = .ok w ∧
      reconstruct third (.record declared) raw = .ok w := by
  obtain ⟨entries, rebuilt, rfl, hlength, hrebuilt, rfl⟩ := reconstruct_record_eq_ok.mp hok
  have hnames : rebuilt.map Prod.fst = found.fieldNames :=
    map_fst_of_reconstructFields hlength hrebuilt
  -- A raw record with names of its own has those of the middle type.
  have hflags : found.isPositional = true → Named.areNumerals 0 (entries.map Prod.fst) = true := by
    intro hpositional
    rcases names_of_reconstructFields hlength hrebuilt with hraw | hraw
    · exact hraw
    · rwa [hraw]
  rw [ValueType.accepts_record_record] at haccepts
  obtain ⟨others, hagain, hdirect⟩ := hfields hflags haccepts hlength hrebuilt
  have hsize : declared.size = found.size := ValueType.length_eq_of_acceptsFields haccepts
  have hcount : rebuilt.length = found.size := by
    simpa [RecordSchema.fieldNames, RecordSchema.size] using congrArg List.length hnames
  refine ⟨.record (.ofList others),
    reconstruct_record_eq_ok.mpr ⟨rebuilt, others, ?_, hcount.trans hsize.symm, ?_, rfl⟩,
    reconstruct_record_eq_ok.mpr ⟨entries, others, rfl, hlength.trans hsize.symm, hdirect, rfl⟩⟩
  · rw [Named.ofList_eq_of_nodup (hnames ▸ hdistinct)]
  · rw [hnames]
    exact hagain

mutual

/-- What is reconstructed under a well-formed type is reconstructed further under a type that
accepts it, and into what the raw value itself is reconstructed into there. -/
theorem reconstruct_of_accepts : ∀ {declared found : ValueType} {raw v : Value},
    found.WellFormed → declared.accepts found = true → reconstruct first found raw = .ok v →
      ∃ w, reconstruct second declared v = .ok w ∧ reconstruct third declared raw = .ok w
  | .record ⟨name, fields⟩, found, raw, v, hformed, haccepts, hok => by
    obtain ⟨found, rfl⟩ := ValueType.exists_record_of_accepts_of_record haccepts
    exact reconstruct_record_of_fields hformed.nodup_fieldNames haccepts hok fun hflags =>
      reconstructFields_of_acceptsFields ⟨name, fields⟩ found hflags hformed.fields
  | .string, _, _, _, _, haccepts, hok | .integer, _, _, _, _, haccepts, hok
  | .float, _, _, _, _, haccepts, hok | .boolean, _, _, _, _, haccepts, hok =>
    reconstruct_of_accepts_of_isScalar rfl haccepts hok

theorem reconstructFields_of_acceptsFields (declaredIn foundIn : RecordSchema)
    {inner outer : Bool} (hflags : inner = true → outer = true) :
    ∀ {declared found : List (String × ValueType)} {entries rebuilt : List (String × Value)},
      ValueType.areWellFormed found = true →
      ValueType.acceptsFields inner declared found = true → entries.length = found.length →
      reconstructFields first foundIn outer found entries = .ok rebuilt →
        ∃ others, reconstructFields second declaredIn inner declared rebuilt = .ok others ∧
          reconstructFields third declaredIn outer declared entries = .ok others
  | [], found, entries, rebuilt, _, haccepts, hlength, hok => by
    obtain rfl := List.length_eq_zero_iff.mp (ValueType.length_eq_of_acceptsFields haccepts).symm
    obtain rfl := List.length_eq_zero_iff.mp hlength
    obtain rfl : [] = rebuilt := by simpa [reconstructFields] using hok
    exact ⟨[], by simp [reconstructFields], by simp [reconstructFields]⟩
  | (field, type) :: fields, found, entries, rebuilt, hformed, haccepts, hlength, hok => by
    cases found with
    | nil => simp [ValueType.acceptsFields] at haccepts
    | cons other found =>
      cases entries with
      | nil => cases hlength
      | cons entry entries =>
        obtain ⟨hother, haccepted, hfields⟩ := ValueType.acceptsFields_cons_iff.mp haccepts
        obtain ⟨hentry, v, values, hitem, hitems, rfl⟩ := reconstructFields_cons_eq_ok.mp hok
        simp only [ValueType.areWellFormed, Bool.and_eq_true] at hformed
        obtain ⟨w, hagain, hdirect⟩ := reconstruct_of_accepts hformed.1 haccepted hitem
        obtain ⟨others, hagains, hdirects⟩ := reconstructFields_of_acceptsFields declaredIn foundIn
          hflags hformed.2 hfields (Nat.succ.inj hlength) hitems
        refine ⟨(field, w) :: others,
          reconstructFields_cons_eq_ok.mpr ⟨hother, w, others, hagain, hagains, rfl⟩,
          reconstructFields_cons_eq_ok.mpr ⟨?_, w, others, hdirect, hdirects, rfl⟩⟩
        rcases hother with hinner | hother
        · exact .inl (hflags hinner)
        · rwa [hother]

end

end

/-- Acceptance is a partial order on types, up to the names of schemas, and reconstruction
honours it: what is reconstructed under a type with distinct field names is reconstructed
further under any type that accepts it, with the result that the raw value has there at once.
The accepting type may even repeat a name. -/
theorem accepts_order_reconstruct :
    (∀ type : ValueType, type.accepts type = true) ∧
    (∀ a b c : ValueType, a.accepts b = true → b.accepts c = true → a.accepts c = true) ∧
    (∀ a b : ValueType, a.accepts b = true ∧ b.accepts a = true ↔ a.shape = b.shape) ∧
    ∀ (first second third : String) (declared found : ValueType) (raw v : Value),
      found.WellFormed → declared.accepts found = true → reconstruct first found raw = .ok v →
        ∃ w, reconstruct second declared v = .ok w ∧ reconstruct third declared raw = .ok w := by
  refine ⟨ValueType.accepts_self, fun a b c => ValueType.accepts_trans, fun a b => ⟨?_, ?_⟩,
    fun first second third declared found raw v => reconstruct_of_accepts⟩
  · exact fun haccepts => ValueType.shape_eq_of_accepts haccepts.1 haccepts.2
  · intro hshape
    constructor
    · rw [← ValueType.accepts_congr hshape, ValueType.accepts_self]
    · rw [ValueType.accepts_congr hshape, ValueType.accepts_self]

namespace Sighting

/-- A record type with names of its own. -/
def declared : ValueType :=
  .record ⟨"Sighting", [("seen", .integer), ("range", .float)]⟩

/-- A positional type that it accepts, with a boolean for the integer. -/
def positional : ValueType :=
  .record ⟨"pair", [("0", .boolean), ("1", .float)]⟩

/-- The same type under another name. -/
def renamed : ValueType :=
  .record ⟨"record", [("0", .boolean), ("1", .float)]⟩

/-- A positional record with an integer for the float. -/
def raw : Value := .record ⟨[("0", .boolean true), ("1", .integer 2)]⟩

/-- What it stands for under the positional type. -/
def widened : Value := .record ⟨[("0", .boolean true), ("1", .float (.ofInt 2))]⟩

/-- What it stands for under the type with names. -/
def rebuilt : Value := .record ⟨[("seen", .integer 1), ("range", .float (.ofInt 2))]⟩

end Sighting

/-- A positional record takes its names and its integer at once or after a detour over the
positional type. -/
theorem accepts_order_reconstruct_sighting :
    Sighting.declared.accepts Sighting.declared = true ∧
      Sighting.declared.accepts Sighting.renamed = true ∧
      Sighting.positional.shape = Sighting.renamed.shape ∧
      reconstruct "eye" Sighting.positional Sighting.raw = .ok Sighting.widened ∧
      reconstruct "ear" Sighting.declared Sighting.widened = .ok Sighting.rebuilt ∧
      reconstruct "nose" Sighting.declared Sighting.raw = .ok Sighting.rebuilt := by
  obtain ⟨hself, htrans, hshape, hcoherent⟩ := accepts_order_reconstruct
  have haccepts : Sighting.declared.accepts Sighting.positional = true := by decide
  have hmutual : Sighting.positional.accepts Sighting.renamed = true ∧
    Sighting.renamed.accepts Sighting.positional = true := by decide
  have hwidened : reconstruct "eye" Sighting.positional Sighting.raw = .ok Sighting.widened := rfl
  have hrebuilt : reconstruct "ear" Sighting.declared Sighting.widened = .ok Sighting.rebuilt := rfl
  obtain ⟨w, hagain, hdirect⟩ := hcoherent "eye" "ear" "nose" _ _ _ _ (by decide) haccepts hwidened
  obtain rfl := Except.ok.inj (hagain.symm.trans hrebuilt)
  exact ⟨hself _, htrans _ _ _ haccepts hmutual.1, (hshape _ _).mp hmutual, hwidened, hrebuilt,
    hdirect⟩

end Dataflow
