/-
# Registration and selection

A registry is built by registrations, each of one overload under one operator. What is selected
for an operator and the types of its operands depends on the registrations of that operator alone,
in whatever way they stand among those of other operators: it is the earliest that fits the
operands. So a selection that succeeds stays the same whatever is registered afterwards, and a
selection fails only if nothing that was registered under the operator fits.
-/

import Dataflow.Operator.Builtin
import Mathlib.Data.List.Forall2

namespace Dataflow

/-- A value of one kind may stand where another is declared: the kinds are the same, or it is a
boolean where an integer is declared. -/
def ValueKind.StandsFor (found declared : ValueKind) : Prop :=
  found = declared ∨ found = .boolean ∧ declared = .integer

/-- An overload that is put under an operator. -/
structure Registration where
  operator : Operator
  overload : Overload

/-- Operands of these types fit an overload: there is one for each parameter, and its kind may
stand for the one that is declared. -/
def Overload.Fits (overload : Overload) (types : List ValueType) : Prop :=
  List.Forall₂ (fun type declared => type.kind.StandsFor declared) types overload.parameters

/-- An overload is the earliest that was registered under an operator and fits operands of these
types. -/
def Overload.IsEarliest (overload : Overload) (registrations : List Registration)
    (operator : Operator) (types : List ValueType) : Prop :=
  overload.Fits types ∧
    ∃ earlier later, registrations = earlier ++ ⟨operator, overload⟩ :: later ∧
      ∀ other ∈ earlier, other.operator = operator → ¬ other.overload.Fits types

/-- The overloads that registrations put under an operator, in order. -/
def Operator.registered (operator : Operator) (registrations : List Registration) :
    List Overload :=
  (registrations.filter fun registration => registration.operator = operator).map
    Registration.overload

section

variable {overload : Overload} {operator : Operator} {types : List ValueType}
  {registrations : List Registration}

theorem kindsAccepted_iff {parameters : List ValueKind} :
    kindsAccepted parameters (types.map ValueType.kind) = true ↔
      List.Forall₂ (fun type declared => type.kind.StandsFor declared) types parameters := by
  induction parameters generalizing types with
  | nil => cases types <;> simp [kindsAccepted]
  | cons declared rest ih =>
    cases types with
    | nil => simp [kindsAccepted]
    | cons type types => simp [kindsAccepted, ValueKind.isSubkindOf, ValueKind.StandsFor, ih]

/-- The check of the kinds tells whether operands fit. -/
theorem Overload.acceptsKinds_iff :
    overload.acceptsKinds (types.map ValueType.kind) = true ↔ overload.Fits types :=
  kindsAccepted_iff

instance (overload : Overload) (types : List ValueType) : Decidable (overload.Fits types) :=
  decidable_of_iff _ Overload.acceptsKinds_iff

/-- The earliest overload that fits stays the earliest when more is registered. -/
theorem Overload.IsEarliest.append (h : overload.IsEarliest registrations operator types)
    (later : List Registration) :
    overload.IsEarliest (registrations ++ later) operator types := by
  obtain ⟨hfits, before, after, rfl, hbefore⟩ := h
  refine ⟨hfits, before, after ++ later, ?_, hbefore⟩
  rw [List.append_assoc, List.cons_append]

end

namespace Registry

/-- The registry after registrations, one after another. -/
def registerEach (registry : Registry) (registrations : List Registration) : Registry :=
  registrations.foldl (fun built registration =>
    built.register registration.operator registration.overload) registry

/-- The registry that registrations build. -/
def ofRegistrations (registrations : List Registration) : Registry :=
  empty.registerEach registrations

/-- Registrations that build a registry. -/
def registrations (registry : Registry) : List Registration :=
  Operator.all.flatMap fun operator => (registry.overloads operator).map fun overload =>
    ⟨operator, overload⟩

variable {registry : Registry} {operator : Operator} {types : List ValueType}
  {overload : Overload} {first later : List Registration}

theorem registerEach_append (registry : Registry) (first later : List Registration) :
    registry.registerEach (first ++ later) = (registry.registerEach first).registerEach later :=
  List.foldl_append

/-- One registration is appended to the overloads of its operator, and others keep theirs. -/
theorem overloads_register (registry : Registry) (registration : Registration)
    (operator : Operator) :
    (registry.register registration.operator registration.overload).overloads operator =
      registry.overloads operator ++ operator.registered [registration] := by
  by_cases hsame : registration.operator = operator
  · simp [register, Operator.registered, hsame]
  · simp [register, Operator.registered, hsame, Ne.symm hsame]

/-- An operator has the overloads that it had and those that were registered under it, in order. -/
theorem overloads_registerEach (registry : Registry) (registrations : List Registration)
    (operator : Operator) :
    (registry.registerEach registrations).overloads operator =
      registry.overloads operator ++ operator.registered registrations := by
  induction registrations generalizing registry with
  | nil => exact (List.append_nil _).symm
  | cons registration rest ih =>
    have hsplit : operator.registered (registration :: rest) =
        operator.registered [registration] ++ operator.registered rest := by
      rw [← List.singleton_append, Operator.registered, List.filter_append, List.map_append]
      rfl
    have hstep : registry.registerEach (registration :: rest) =
        (registry.register registration.operator registration.overload).registerEach rest := rfl
    rw [hstep, ih, overloads_register, List.append_assoc, hsplit]

theorem overloads_ofRegistrations (registrations : List Registration) (operator : Operator) :
    (ofRegistrations registrations).overloads operator = operator.registered registrations :=
  overloads_registerEach empty registrations operator

/-- Every registry is built by registrations, the one with the built-in overloads too. -/
theorem ofRegistrations_registrations (registry : Registry) :
    ofRegistrations registry.registrations = registry := by
  obtain ⟨overloads⟩ := registry
  have hoverloads : ∀ operator, operator.registered (registrations ⟨overloads⟩) =
      overloads operator := by
    intro operator
    cases operator <;>
      simp [Operator.registered, registrations, Operator.all, List.filter_map, Function.comp_def]
  exact congrArg Registry.mk
    (funext fun operator => (overloads_ofRegistrations _ operator).trans (hoverloads operator))

/-- In a registry that registrations build, the first of them that is under the operator and fits
is found. -/
theorem find?_ofRegistrations (registrations : List Registration) (operator : Operator)
    (types : List ValueType) :
    (ofRegistrations registrations).find? operator (types.map ValueType.kind) =
      (registrations.find? fun registration =>
        registration.operator = operator ∧ registration.overload.Fits types).map
          Registration.overload := by
  rw [find?, overloads_ofRegistrations, Operator.registered, List.find?_map, List.find?_filter]
  simp [Overload.acceptsKinds_iff]

theorem select_eq_ok_iff :
    registry.select operator types = .ok overload ↔
      registry.find? operator (types.map ValueType.kind) = some overload := by
  rw [select]
  cases registry.find? operator (types.map ValueType.kind) <;> simp

theorem select_eq_error_iff :
    registry.select operator types = .error (.noOverload operator.name (types.map ValueType.kind)
        ((registry.overloads operator).map Overload.parameters)) ↔
      registry.find? operator (types.map ValueType.kind) = none := by
  rw [select]
  cases registry.find? operator (types.map ValueType.kind) <;> simp

/-- The overload that is selected is the earliest that was registered and fits. -/
theorem select_eq_ok_iff_isEarliest {registrations : List Registration} :
    (ofRegistrations registrations).select operator types = .ok overload ↔
      overload.IsEarliest registrations operator types := by
  rw [select_eq_ok_iff, find?_ofRegistrations, Option.map_eq_some_iff]
  constructor
  · rintro ⟨registration, hfind, rfl⟩
    obtain ⟨hfound, earlier, after, hsplit, hearlier⟩ := List.find?_eq_some_iff_append.mp hfind
    obtain ⟨rfl, hfits⟩ := of_decide_eq_true hfound
    exact ⟨hfits, earlier, after, hsplit, by simpa [imp_iff_not_or] using hearlier⟩
  · rintro ⟨hfits, earlier, after, hsplit, hearlier⟩
    refine ⟨_, List.find?_eq_some_iff_append.mpr
      ⟨decide_eq_true ⟨rfl, hfits⟩, earlier, after, hsplit, ?_⟩, rfl⟩
    simpa [imp_iff_not_or] using hearlier

/-- A selection fails, and tells the kinds of the operands and of all overloads of the operator,
if and only if none of them fits. -/
theorem select_eq_error_iff_forall {registrations : List Registration} :
    (ofRegistrations registrations).select operator types =
        .error (.noOverload operator.name (types.map ValueType.kind)
          ((operator.registered registrations).map Overload.parameters)) ↔
      ∀ registration ∈ registrations, registration.operator = operator →
        ¬ registration.overload.Fits types := by
  rw [← overloads_ofRegistrations, select_eq_error_iff, find?_ofRegistrations,
    Option.map_eq_none_iff, List.find?_eq_none]
  simp

/-- What is selected depends on the registrations of the operator alone. -/
theorem select_congr {registrations others : List Registration}
    (hsame : operator.registered others = operator.registered registrations) :
    (ofRegistrations others).select operator types =
      (ofRegistrations registrations).select operator types := by
  simp only [select, find?, overloads_ofRegistrations, hsame]

/-- Selection finds the earliest registration that fits, and is stable. In a registry that any
registrations build, an overload is selected if and only if it is the earliest that was registered
under the operator and fits the types of the operands, and the selection fails if and only if none
does. What is selected stays so after any further registrations. And two orders of registration
that are the same for an operator make no difference to what is selected for it, failures
included. -/
theorem select_earliest_and_stable (registrations : List Registration) (operator : Operator)
    (types : List ValueType) :
    (∀ overload, (ofRegistrations registrations).select operator types = .ok overload ↔
      overload.IsEarliest registrations operator types) ∧
    ((ofRegistrations registrations).select operator types =
        .error (.noOverload operator.name (types.map ValueType.kind)
          ((operator.registered registrations).map Overload.parameters)) ↔
      ∀ other ∈ registrations, other.operator = operator → ¬ other.overload.Fits types) ∧
    (∀ overload later, (ofRegistrations registrations).select operator types = .ok overload →
      ((ofRegistrations registrations).registerEach later).select operator types =
        .ok overload) ∧
    ∀ others, operator.registered others = operator.registered registrations →
      (ofRegistrations others).select operator types =
        (ofRegistrations registrations).select operator types := by
  refine ⟨fun overload => select_eq_ok_iff_isEarliest, select_eq_error_iff_forall,
    fun overload later hselect => ?_, fun others => select_congr⟩
  have hearliest := select_eq_ok_iff_isEarliest.mp hselect
  rw [ofRegistrations, ← registerEach_append]
  exact select_eq_ok_iff_isEarliest.mpr (hearliest.append later)

end Registry

namespace Sums

/-- The built-in sum of two integers. -/
def ofIntegers : Overload := ⟨[.integer, .integer], .integer, Builtin.exactly .add (· + ·)⟩

/-- An overload for just a boolean and an integer. -/
def ofBoolean : Overload := ⟨[.boolean, .integer], .string, Builtin.asText⟩

end Sums

/-- A boolean stands for an integer, so the built-in sum of integers is selected for it. It stays
so when an overload for just these kinds is registered, which comes too late, and whatever has
been registered under another operator before. -/
theorem Registry.select_earliest_and_stable_shadowed :
    Builtin.registry.select .add [.boolean, .integer] = .ok Sums.ofIntegers ∧
      (Builtin.registry.registerEach [⟨.length, Sums.ofBoolean⟩, ⟨.add, Sums.ofBoolean⟩]).select
        .add [.boolean, .integer] = .ok Sums.ofIntegers ∧
      (ofRegistrations (⟨.length, Sums.ofBoolean⟩ :: Builtin.registry.registrations)).select
        .add [.boolean, .integer] = .ok Sums.ofIntegers := by
  obtain ⟨-, -, hstable, hcongr⟩ :=
    select_earliest_and_stable Builtin.registry.registrations .add [.boolean, .integer]
  rw [ofRegistrations_registrations] at hstable hcongr
  have hselect : Builtin.registry.select .add [.boolean, .integer] = .ok Sums.ofIntegers := rfl
  exact ⟨hselect, hstable _ _ hselect, (hcongr _ rfl).trans hselect⟩

end Dataflow
