/-
# Built-in overloads are safe

An overload that is selected for the kinds of its operands gives a value of its declared type or
fails for what the operands are worth: an exact integer is out of range, a divisor is zero, a
repeated text is too long, or a text or a float stands for no number that is wanted. It never fails
because an operand is missing or of another kind. What an overload gives is of its declared type
even on operands that nobody selected it for.

So what an operator node gives is reconstructed as it is, and no run is ended by the output of one.
-/

import Dataflow.Proofs.Operator.Integers

namespace Dataflow

/-- The failures of operators that are due to what their operands are worth, whatever may be said
of their number and kinds. -/
inductive Operator.FailsOn : Operator → List Value → Failure → Prop where
  | overflow {operation : IntegerOperation} {v w : Value} {a b : Int64} (hv : v.CountsAs a)
      (hw : w.CountsAs b) (hrange : ¬ FitsInt64 (operation.exact a.toInt b.toInt)) :
      FailsOn operation.operator [v, w] (.integerOverflow operation a b)
  | divisionByZero {operator : Operator} {v w : Value} {x : Binary64}
      (hdivides : operator = .divide ∨ operator = .floorDivide) (hw : w.asFloat? = some x)
      (hzero : x.isZero = true) : FailsOn operator [v, w] .divisionByZero
  | repeatTooLong {operands : List Value} {s : String} {v : Value} {n : Int64} (hv : v.CountsAs n)
      (hoperands : operands = [.string s, v] ∨ operands = [v, .string s])
      (hsize : 2 ^ 63 - 1 < (Builtin.repeated s n.toInt.toNat).utf8ByteSize) :
      FailsOn .multiply operands (.repeatTooLong s.utf8ByteSize n)
  | notAnInteger {s : String} {fault : Decimal.IntegerFault}
      (hread : Decimal.readInt64 (Text.trim s).toList = .error fault) :
      FailsOn .toInteger [.string s] (.notAnInteger s fault)
  | noIntegerPart {x : Binary64} (hrange : x.isFinite = false ∨ Builtin.outOfRange x = true) :
      FailsOn .toInteger [.float x] (.noIntegerPart x)
  | notAFloat {s : String} {fault : Decimal.FloatFault}
      (hread : Decimal.readFloat (Text.trim s).toList = .error fault) :
      FailsOn .toFloat [.string s] (.notAFloat s fault)

/-- A computation gives nothing but values of a type. -/
def Outcome.OfType (type : ValueType) (outcome : Outcome Value) : Prop :=
  ∀ v, outcome = .ok v → v.type = type

namespace Outcome.OfType

variable {α : Type} {type : ValueType}

theorem ok {v : Value} (hv : v.type = type) : OfType type (.ok v) := by
  rintro _ ⟨⟩
  exact hv

theorem error {failure : Failure} : OfType type (.error failure) := by
  rintro _ ⟨⟩

theorem bind {first : Outcome α} {rest : α → Outcome Value} (hrest : ∀ a, OfType type (rest a)) :
    OfType type (first >>= rest) := by
  cases first with
  | ok a => exact hrest a
  | error failure => exact error

end Outcome.OfType

/-- An overload of an operator is safe: it gives values of its scalar type, on whatever operands,
and on operands of the kinds that it accepts it fails for nothing but what they are worth. -/
structure Overload.Safe (operator : Operator) (overload : Overload) : Prop where
  /-- The declared type is a scalar. -/
  scalar : overload.returns.isScalar = true
  /-- What is given is of the declared type. -/
  typed : ∀ operands, Outcome.OfType overload.returns (overload.implementation operands)
  /-- What is accepted has a result or fails for what it is worth. -/
  answers : ∀ operands, overload.acceptsKinds (operands.map Value.kind) = true →
    (∃ v, overload.implementation operands = .ok v) ∨
      ∃ failure, overload.implementation operands = .error failure ∧
        operator.FailsOn operands failure

section

variable {operands : List Value} {first second : ValueKind}

/-- One accepted operand. -/
theorem exists_of_kindsAccepted_one
    (haccepted : kindsAccepted [first] (operands.map Value.kind) = true) :
    ∃ v, operands = [v] ∧ v.kind.isSubkindOf first = true := by
  match operands, haccepted with
  | [v], haccepted => exact ⟨v, rfl, by simpa [kindsAccepted] using haccepted⟩
  | _ :: _ :: _, haccepted => simp [kindsAccepted] at haccepted

/-- Two accepted operands. -/
theorem exists_of_kindsAccepted_two
    (haccepted : kindsAccepted [first, second] (operands.map Value.kind) = true) :
    ∃ v w, operands = [v, w] ∧ v.kind.isSubkindOf first = true ∧
      w.kind.isSubkindOf second = true := by
  match operands, haccepted with
  | [v, w], haccepted => exact ⟨v, w, rfl, by simpa [kindsAccepted] using haccepted⟩
  | [_], haccepted => simp [kindsAccepted] at haccepted
  | _ :: _ :: _ :: _, haccepted => simp [kindsAccepted] at haccepted

end

namespace Value

variable {v : Value}

/-- What may stand for an integer counts as one. -/
theorem exists_countsAs (hkind : v.kind.isSubkindOf .integer = true) : ∃ i, v.CountsAs i := by
  cases v with
  | integer i => exact ⟨i, .integer i⟩
  | boolean b => exact ⟨_, countsAs_iff.mpr rfl⟩
  | float | string | record => cases hkind

/-- What may stand for a number has a float view. -/
theorem exists_asFloat? {kind : ValueKind} (hnumeric : kind = .integer ∨ kind = .float)
    (hkind : v.kind.isSubkindOf kind = true) : ∃ x, v.asFloat? = some x := by
  cases v with
  | integer | boolean | float => exact ⟨_, rfl⟩
  | string | record => rcases hnumeric with rfl | rfl <;> cases hkind

theorem exists_eq_string (hkind : v.kind.isSubkindOf .string = true) : ∃ s, v = .string s := by
  cases v with
  | string s => exact ⟨s, rfl⟩
  | integer | boolean | float | record => cases hkind

theorem exists_eq_float (hkind : v.kind.isSubkindOf .float = true) : ∃ x, v = .float x := by
  cases v with
  | float x => exact ⟨x, rfl⟩
  | integer | boolean | string | record => cases hkind

theorem exists_eq_record (hkind : v.kind.isSubkindOf .record = true) :
    ∃ fields, v = .record fields := by
  cases v with
  | record fields => exact ⟨fields, rfl⟩
  | integer | boolean | float | string => cases hkind

end Value

namespace Builtin

/-- Exact results are integers. -/
theorem type_of_fitting? {n : Int} {v : Value} (hfits : fitting? n = some v) :
    v.type = .integer := by
  rw [fitting?] at hfits
  split at hfits
  · rw [← Option.some.inj hfits]
    rfl
  · cases hfits

theorem ofType_exactly (operation : IntegerOperation) (compute : Int → Int → Int)
    (operands : List Value) : (exactly operation compute operands).OfType .integer := by
  refine .bind fun ⟨a, b⟩ => ?_
  dsimp only
  split
  · rename_i hfits
    exact .ok (type_of_fitting? hfits)
  · exact .error

theorem ofType_floorDivide (operands : List Value) : (floorDivide operands).OfType .integer := by
  refine .bind fun ⟨a, b⟩ => ?_
  dsimp only
  split
  · exact .error
  · split
    · exact .ok rfl
    · exact .error

/-- The overload of an integer operation is safe. -/
theorem safe_integer (operation : IntegerOperation) :
    Overload.Safe operation.operator
      ⟨[.integer, .integer], .integer, integerImplementation operation⟩ where
  scalar := rfl
  typed operands := by
    cases operation with
    | add | subtract | multiply => exact ofType_exactly _ _ operands
    | floorDivide => exact ofType_floorDivide operands
  answers operands haccepted := by
    obtain ⟨v, w, rfl, hv, hw⟩ := exists_of_kindsAccepted_two haccepted
    obtain ⟨a, ha⟩ := Value.exists_countsAs hv
    obtain ⟨b, hb⟩ := Value.exists_countsAs hw
    have hexact := exactOrFails_integerImplementation operation ha hb
    generalize hresult : integerImplementation operation [v, w] = result at hexact
    cases hexact with
    | exact => exact .inl ⟨_, hresult⟩
    | overflow _ hrange => exact .inr ⟨_, hresult, .overflow ha hb hrange⟩
    | divisionByZero hundefined =>
      obtain ⟨rfl, rfl⟩ := hundefined
      have hzero : w.asFloat? = some (.ofInt 0) := by cases hb <;> rfl
      exact .inr ⟨_, hresult, .divisionByZero (.inr rfl) hzero (by decide)⟩

section

variable {first second : ValueKind}

/-- An operation on floats is safe for any operator. -/
theorem safe_onFloats (operator : Operator) (compute : Binary64 → Binary64 → Binary64)
    (hfirst : first = .integer ∨ first = .float) (hsecond : second = .integer ∨ second = .float) :
    Overload.Safe operator ⟨[first, second], .float, onFloats compute⟩ where
  scalar := rfl
  typed operands := .bind fun _ => .ok rfl
  answers operands haccepted := by
    obtain ⟨v, w, rfl, hv, hw⟩ := exists_of_kindsAccepted_two haccepted
    obtain ⟨x, hx⟩ := Value.exists_asFloat? hfirst hv
    obtain ⟨y, hy⟩ := Value.exists_asFloat? hsecond hw
    refine .inl ⟨.float (compute x y), ?_⟩
    simp only [onFloats, viewBoth_eq_ok hx hy]
    rfl

/-- A division of floats is safe for the operators that divide. -/
theorem safe_dividing {operator : Operator}
    (hdivides : operator = .divide ∨ operator = .floorDivide)
    (compute : Binary64 → Binary64 → Binary64) (hfirst : first = .integer ∨ first = .float)
    (hsecond : second = .integer ∨ second = .float) :
    Overload.Safe operator ⟨[first, second], .float, dividing compute⟩ where
  scalar := rfl
  typed operands := by
    refine .bind fun ⟨x, y⟩ => ?_
    dsimp only
    split
    · exact .error
    · exact .ok rfl
  answers operands haccepted := by
    obtain ⟨v, w, rfl, hv, hw⟩ := exists_of_kindsAccepted_two haccepted
    obtain ⟨x, hx⟩ := Value.exists_asFloat? hfirst hv
    obtain ⟨y, hy⟩ := Value.exists_asFloat? hsecond hw
    simp only [dividing, viewBoth_eq_ok hx hy]
    by_cases hzero : y.isZero = true
    · refine .inr ⟨.divisionByZero, ?_, .divisionByZero hdivides hy hzero⟩
      simp only [bind, Except.bind, if_pos hzero]
      rfl
    · refine .inl ⟨.float (compute x y), ?_⟩
      simp only [bind, Except.bind, if_neg hzero]
      rfl

/-- A comparison for equality is safe for any operator. -/
theorem safe_equality (operator : Operator) (expected : Bool) :
    Overload.Safe operator ⟨[first, second], .boolean, equality expected⟩ where
  scalar := rfl
  typed operands := .bind fun _ => .bind fun _ => .ok rfl
  answers operands haccepted := by
    obtain ⟨v, w, rfl, -, -⟩ := exists_of_kindsAccepted_two haccepted
    exact .inl ⟨_, rfl⟩

end

/-- What gives a value on any two texts is safe for any operator. -/
theorem safe_onTexts {operator : Operator} {returns : ValueType} {implementation : Implementation}
    (hscalar : returns.isScalar = true)
    (htyped : ∀ operands, (implementation operands).OfType returns)
    (hresult : ∀ s t, ∃ v, implementation [.string s, .string t] = .ok v) :
    Overload.Safe operator ⟨[.string, .string], returns, implementation⟩ where
  scalar := hscalar
  typed := htyped
  answers operands haccepted := by
    obtain ⟨v, w, rfl, hv, hw⟩ := exists_of_kindsAccepted_two haccepted
    obtain ⟨s, rfl⟩ := Value.exists_eq_string hv
    obtain ⟨t, rfl⟩ := Value.exists_eq_string hw
    exact .inl (hresult s t)

theorem safe_concatenate : Overload.Safe .add ⟨[.string, .string], .string, concatenate⟩ :=
  safe_onTexts rfl (fun _ => .bind fun _ => .ok rfl) fun _ _ => ⟨_, rfl⟩

theorem safe_containment : Overload.Safe .contains ⟨[.string, .string], .boolean, containment⟩ :=
  safe_onTexts rfl (fun _ => .bind fun _ => .ok rfl) fun _ _ => ⟨_, rfl⟩

theorem ofType_repetition (text count : Value) : (repetition text count).OfType .string := by
  refine .bind fun s => .bind fun n => ?_
  dsimp only
  split
  · exact .ok rfl
  · exact .error

/-- Repetition answers for a text and a count, in either order. -/
theorem answers_repetition {s : String} {v : Value} {n : Int64} {operands : List Value}
    (hv : v.CountsAs n) (hoperands : operands = [.string s, v] ∨ operands = [v, .string s]) :
    (∃ w, repetition (.string s) v = .ok w) ∨
      ∃ failure, repetition (.string s) v = .error failure ∧
        Operator.FailsOn .multiply operands failure := by
  have hrepeats := repeatsOrFails_repetition s hv
  generalize hresult : repetition (.string s) v = result at hrepeats
  cases hrepeats with
  | repeats => exact .inl ⟨_, rfl⟩
  | tooLong hsize => exact .inr ⟨_, rfl, .repeatTooLong hv hoperands hsize⟩

theorem safe_textTimes : Overload.Safe .multiply ⟨[.string, .integer], .string, textTimes⟩ where
  scalar := rfl
  typed operands := .bind fun _ => .bind fun _ => ofType_repetition _ _
  answers operands haccepted := by
    obtain ⟨v, w, rfl, hv, hw⟩ := exists_of_kindsAccepted_two haccepted
    obtain ⟨s, rfl⟩ := Value.exists_eq_string hv
    obtain ⟨n, hn⟩ := Value.exists_countsAs hw
    exact answers_repetition hn (.inl rfl)

theorem safe_timesText : Overload.Safe .multiply ⟨[.integer, .string], .string, timesText⟩ where
  scalar := rfl
  typed operands := .bind fun _ => .bind fun _ => ofType_repetition _ _
  answers operands haccepted := by
    obtain ⟨v, w, rfl, hv, hw⟩ := exists_of_kindsAccepted_two haccepted
    obtain ⟨n, hn⟩ := Value.exists_countsAs hv
    obtain ⟨s, rfl⟩ := Value.exists_eq_string hw
    exact answers_repetition hn (.inr rfl)

theorem safe_textLength : Overload.Safe .length ⟨[.string], .integer, textLength⟩ where
  scalar := rfl
  typed operands := .bind fun _ => .bind fun _ => .ok rfl
  answers operands haccepted := by
    obtain ⟨v, rfl, hv⟩ := exists_of_kindsAccepted_one haccepted
    obtain ⟨s, rfl⟩ := Value.exists_eq_string hv
    exact .inl ⟨_, rfl⟩

theorem safe_recordLength : Overload.Safe .length ⟨[.record], .integer, recordLength⟩ where
  scalar := rfl
  typed operands := .bind fun _ => .bind fun _ => .ok rfl
  answers operands haccepted := by
    obtain ⟨v, rfl, hv⟩ := exists_of_kindsAccepted_one haccepted
    obtain ⟨fields, rfl⟩ := Value.exists_eq_record hv
    exact .inl ⟨_, rfl⟩

/-- The text of a value is safe to ask for, whatever its kind. -/
theorem safe_asText (kind : ValueKind) : Overload.Safe .toString ⟨[kind], .string, asText⟩ where
  scalar := rfl
  typed operands := .bind fun _ => .ok rfl
  answers operands haccepted := by
    obtain ⟨v, rfl, -⟩ := exists_of_kindsAccepted_one haccepted
    exact .inl ⟨_, rfl⟩

theorem textToInteger_string (s : String) :
    textToInteger [.string s] =
      match Decimal.readInt64 (Text.trim s).toList with
      | .ok i => .ok (.integer i)
      | .error fault => .error (.notAnInteger s fault) := by
  simp only [textToInteger, operand, view, Value.asString?, List.getElem?_cons_zero, bind,
    Except.bind]
  cases Decimal.readInt64 (Text.trim s).toList <;> rfl

theorem safe_textToInteger :
    Overload.Safe .toInteger ⟨[.string], .integer, textToInteger⟩ where
  scalar := rfl
  typed operands := by
    refine .bind fun _ => .bind fun s => ?_
    split
    · exact .ok rfl
    · exact .error
  answers operands haccepted := by
    obtain ⟨v, rfl, hv⟩ := exists_of_kindsAccepted_one haccepted
    obtain ⟨s, rfl⟩ := Value.exists_eq_string hv
    simp only [textToInteger_string]
    cases hread : Decimal.readInt64 (Text.trim s).toList with
    | ok i => exact .inl ⟨_, rfl⟩
    | error fault => exact .inr ⟨_, rfl, .notAnInteger hread⟩

theorem safe_numberToInteger :
    Overload.Safe .toInteger ⟨[.integer], .integer, numberToInteger⟩ where
  scalar := rfl
  typed operands := .bind fun _ => .bind fun _ => .ok rfl
  answers operands haccepted := by
    obtain ⟨v, rfl, hv⟩ := exists_of_kindsAccepted_one haccepted
    obtain ⟨i, hi⟩ := Value.exists_countsAs hv
    cases hi <;> exact .inl ⟨_, rfl⟩

theorem floatToInteger_float (x : Binary64) :
    floatToInteger [.float x] =
      if !x.isFinite || outOfRange x then .error (.noIntegerPart x)
      else .ok (.integer x.truncate.toInt64) := rfl

theorem safe_floatToInteger :
    Overload.Safe .toInteger ⟨[.float], .integer, floatToInteger⟩ where
  scalar := rfl
  typed operands := by
    refine .bind fun _ => .bind fun x => ?_
    split
    · exact .error
    · exact .ok rfl
  answers operands haccepted := by
    obtain ⟨v, rfl, hv⟩ := exists_of_kindsAccepted_one haccepted
    obtain ⟨x, rfl⟩ := Value.exists_eq_float hv
    simp only [floatToInteger_float]
    split
    · rename_i hrange
      have hcause : x.isFinite = false ∨ outOfRange x = true := by simpa using hrange
      exact .inr ⟨_, rfl, .noIntegerPart hcause⟩
    · exact .inl ⟨_, rfl⟩

theorem textToFloat_string (s : String) :
    textToFloat [.string s] =
      match Decimal.readFloat (Text.trim s).toList with
      | .ok x => .ok (.float x)
      | .error fault => .error (.notAFloat s fault) := by
  simp only [textToFloat, operand, view, Value.asString?, List.getElem?_cons_zero, bind,
    Except.bind]
  cases Decimal.readFloat (Text.trim s).toList <;> rfl

theorem safe_textToFloat : Overload.Safe .toFloat ⟨[.string], .float, textToFloat⟩ where
  scalar := rfl
  typed operands := by
    refine .bind fun _ => .bind fun s => ?_
    split
    · exact .ok rfl
    · exact .error
  answers operands haccepted := by
    obtain ⟨v, rfl, hv⟩ := exists_of_kindsAccepted_one haccepted
    obtain ⟨s, rfl⟩ := Value.exists_eq_string hv
    simp only [textToFloat_string]
    cases hread : Decimal.readFloat (Text.trim s).toList with
    | ok x => exact .inl ⟨_, rfl⟩
    | error fault => exact .inr ⟨_, rfl, .notAFloat hread⟩

theorem safe_numberToFloat {kind : ValueKind} (hnumeric : kind = .integer ∨ kind = .float) :
    Overload.Safe .toFloat ⟨[kind], .float, numberToFloat⟩ where
  scalar := rfl
  typed operands := .bind fun _ => .bind fun _ => .ok rfl
  answers operands haccepted := by
    obtain ⟨v, rfl, hv⟩ := exists_of_kindsAccepted_one haccepted
    obtain ⟨x, hx⟩ := Value.exists_asFloat? hnumeric hv
    cases v <;> first
      | exact .inl ⟨_, rfl⟩
      | cases hx

/-- The overloads of a family are safe if its implementation is for each list of kinds. -/
theorem safe_of_mem_overloadsFor {operator : Operator} {parameters : List (List ValueKind)}
    {returns : ValueType} {implementation : Implementation}
    (hsafe : ∀ kinds ∈ parameters, Overload.Safe operator ⟨kinds, returns, implementation⟩) :
    ∀ overload ∈ overloadsFor parameters returns implementation, overload.Safe operator := by
  intro overload hmem
  obtain ⟨kinds, hkinds, rfl⟩ := List.mem_map.mp hmem
  exact hsafe kinds hkinds

/-- The pairs of kinds of the float overloads are numeric. -/
theorem exists_of_mem_floatPairs {kinds : List ValueKind} (hmem : kinds ∈ floatPairs) :
    ∃ first second, kinds = [first, second] ∧ (first = .integer ∨ first = .float) ∧
      (second = .integer ∨ second = .float) := by
  simp only [floatPairs, List.mem_cons, List.not_mem_nil, or_false] at hmem
  rcases hmem with rfl | rfl | rfl <;> exact ⟨_, _, rfl, by decide, by decide⟩

theorem safe_floatPairs {operator : Operator} {compute : Binary64 → Binary64 → Binary64} :
    ∀ overload ∈ overloadsFor floatPairs .float (onFloats compute), overload.Safe operator := by
  refine safe_of_mem_overloadsFor fun kinds hkinds => ?_
  obtain ⟨first, second, rfl, hfirst, hsecond⟩ := exists_of_mem_floatPairs hkinds
  exact safe_onFloats operator compute hfirst hsecond

theorem safe_dividingPairs {operator : Operator}
    (hdivides : operator = .divide ∨ operator = .floorDivide)
    {compute : Binary64 → Binary64 → Binary64} :
    ∀ overload ∈ overloadsFor floatPairs .float (dividing compute), overload.Safe operator := by
  refine safe_of_mem_overloadsFor fun kinds hkinds => ?_
  obtain ⟨first, second, rfl, hfirst, hsecond⟩ := exists_of_mem_floatPairs hkinds
  exact safe_dividing hdivides compute hfirst hsecond

theorem safe_equalityPairs {operator : Operator} {expected : Bool} :
    ∀ overload ∈ overloadsFor equalityPairs .boolean (equality expected),
      overload.Safe operator := by
  refine safe_of_mem_overloadsFor fun kinds hkinds => ?_
  simp only [equalityPairs, List.mem_cons, List.not_mem_nil, or_false] at hkinds
  rcases hkinds with rfl | rfl | rfl | rfl | rfl | rfl <;> exact safe_equality operator expected

/-- Every built-in overload is safe. -/
theorem safe_of_mem_overloads (operator : Operator) :
    ∀ overload ∈ overloads operator, overload.Safe operator := by
  cases operator with
  | add =>
    exact List.forall_mem_cons.mpr ⟨safe_concatenate,
      List.forall_mem_cons.mpr ⟨safe_integer .add, safe_floatPairs⟩⟩
  | subtract => exact List.forall_mem_cons.mpr ⟨safe_integer .subtract, safe_floatPairs⟩
  | multiply =>
    exact List.forall_mem_cons.mpr ⟨safe_textTimes, List.forall_mem_cons.mpr ⟨safe_timesText,
      List.forall_mem_cons.mpr ⟨safe_integer .multiply, safe_floatPairs⟩⟩⟩
  | divide =>
    exact List.forall_mem_cons.mpr ⟨safe_dividing (.inl rfl) _ (.inl rfl) (.inl rfl),
      safe_dividingPairs (.inl rfl)⟩
  | floorDivide =>
    exact List.forall_mem_cons.mpr ⟨safe_integer .floorDivide, safe_dividingPairs (.inr rfl)⟩
  | equal | notEqual => exact safe_equalityPairs
  | contains => exact List.forall_mem_singleton.mpr safe_containment
  | length =>
    exact List.forall_mem_cons.mpr ⟨safe_textLength,
      List.forall_mem_singleton.mpr safe_recordLength⟩
  | toString =>
    refine safe_of_mem_overloadsFor fun kinds hkinds => ?_
    simp only [List.mem_cons, List.not_mem_nil, or_false] at hkinds
    rcases hkinds with rfl | rfl | rfl | rfl <;> exact safe_asText _
  | toInteger =>
    exact List.forall_mem_cons.mpr ⟨safe_textToInteger, List.forall_mem_cons.mpr
      ⟨safe_numberToInteger, List.forall_mem_singleton.mpr safe_floatToInteger⟩⟩
  | toFloat =>
    refine List.forall_mem_cons.mpr ⟨safe_textToFloat,
      safe_of_mem_overloadsFor fun kinds hkinds => ?_⟩
    simp only [List.mem_cons, List.not_mem_nil, or_false] at hkinds
    rcases hkinds with rfl | rfl <;> exact safe_numberToFloat (by decide)

/-- An overload that is selected for the types of its operands gives a value of its declared type
or fails for what they are worth. -/
theorem answers_of_select {operator : Operator} {operands : List Value} {overload : Overload}
    (hselect : registry.select operator (operands.map Value.type) = .ok overload) :
    (∃ v, overload.implementation operands = .ok v ∧ v.type = overload.returns) ∨
      ∃ failure, overload.implementation operands = .error failure ∧
        operator.FailsOn operands failure := by
  have hfind := Registry.select_eq_ok.mp hselect
  unfold Registry.find? at hfind
  have hsafe := safe_of_mem_overloads operator overload (List.mem_of_find?_eq_some hfind)
  have haccepts := List.find?_some hfind
  rcases hsafe.answers operands haccepts with ⟨v, hv⟩ | hfails
  · exact .inl ⟨v, hv, hsafe.typed operands v hv⟩
  · exact .inr hfails

end Builtin

end Dataflow
