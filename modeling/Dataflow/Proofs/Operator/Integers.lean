/-
# Integer operators are exact or fail

Sum, difference, product and the quotient rounded down have an exact result, an integer without
bounds. On operands that count as integers of 64 bits an operator gives that result if it is of
64 bits and fails otherwise; nothing is ever wrapped. In the same way a text is repeated as often
as the count says, in either order of the operands, unless the result would be too long.

The statements are about the registry: the overload that is selected for the types of the operands
is the one that computes.
-/

import Dataflow.Operator.Builtin
import Dataflow.Proofs.Integer64
import Dataflow.Proofs.ValueType

namespace Dataflow

/-- The integer that a value counts as: an integer as itself, a boolean as zero or one. -/
inductive Value.CountsAs : Value → Int64 → Prop where
  | integer (i : Int64) : CountsAs (.integer i) i
  | no : CountsAs (.boolean false) 0
  | yes : CountsAs (.boolean true) 1

theorem Value.countsAs_iff {v : Value} {i : Int64} : v.CountsAs i ↔ v.asInteger? = some i := by
  constructor
  · rintro (_ | _ | _) <;> rfl
  · intro hview
    cases v with
    | integer j =>
      obtain rfl := Option.some.inj hview
      exact .integer j
    | boolean b =>
      obtain rfl := Option.some.inj hview
      cases b with
      | false => exact .no
      | true => exact .yes
    | float | string | record => cases hview

namespace Registry

/-- Applied to operands, an operator computes a result: the overload that is selected for their
types does. -/
def Computes (registry : Registry) (operator : Operator) (operands : List Value)
    (result : Outcome Value) : Prop :=
  ∃ overload, registry.select operator (operands.map Value.type) = .ok overload ∧
    overload.implementation operands = result

variable {registry : Registry} {operator : Operator} {operands : List Value}

/-- An overload is selected by the kinds of the operands. -/
theorem select_eq_ok {overload : Overload} :
    registry.select operator (operands.map Value.type) = .ok overload ↔
      registry.find? operator (operands.map Value.kind) = some overload := by
  have hkinds : (operands.map Value.type).map ValueType.kind = operands.map Value.kind := by
    rw [List.map_map]
    exact List.map_congr_left fun v _ => v.kind_type
  rw [select, hkinds]
  cases registry.find? operator (operands.map Value.kind) <;> simp

/-- What is computed by a selected overload. -/
theorem Computes.of_find {overload : Overload} {result : Outcome Value}
    (hfind : registry.find? operator (operands.map Value.kind) = some overload)
    (hresult : overload.implementation operands = result) :
    registry.Computes operator operands result :=
  ⟨overload, select_eq_ok.mpr hfind, hresult⟩

/-- There is one result only. -/
theorem Computes.unique {first second : Outcome Value}
    (hfirst : registry.Computes operator operands first)
    (hsecond : registry.Computes operator operands second) : first = second := by
  obtain ⟨overload, hselect, rfl⟩ := hfirst
  obtain ⟨other, hselect', rfl⟩ := hsecond
  obtain rfl := Except.ok.inj (hselect.symm.trans hselect')
  rfl

end Registry

namespace IntegerOperation

/-- The operator of an integer operation. -/
def operator : IntegerOperation → Operator
  | .add => .add
  | .subtract => .subtract
  | .multiply => .multiply
  | .floorDivide => .floorDivide

/-- The exact result. -/
def exact : IntegerOperation → Int → Int → Int
  | .add, m, n => m + n
  | .subtract, m, n => m - n
  | .multiply, m, n => m * n
  | .floorDivide, m, n => ⌊(m : ℚ) / n⌋

/-- There is no exact result: the divisor is zero. -/
def Undefined (operation : IntegerOperation) (b : Int64) : Prop :=
  operation = .floorDivide ∧ b = 0

instance (operation : IntegerOperation) (b : Int64) : Decidable (operation.Undefined b) :=
  inferInstanceAs (Decidable (_ ∧ _))

/-- The result of an operation on integers is the exact one, or there is none of 64 bits. -/
inductive ExactOrFails (operation : IntegerOperation) (a b : Int64) : Outcome Value → Prop where
  | exact {i : Int64} (hdefined : ¬ operation.Undefined b)
      (hexact : i.toInt = operation.exact a.toInt b.toInt) :
      ExactOrFails operation a b (.ok (.integer i))
  | overflow (hdefined : ¬ operation.Undefined b)
      (hrange : ¬ FitsInt64 (operation.exact a.toInt b.toInt)) :
      ExactOrFails operation a b (.error (.integerOverflow operation a b))
  | divisionByZero (hundefined : operation.Undefined b) :
      ExactOrFails operation a b (.error .divisionByZero)

/-- An operation with a checked result is exact or fails. -/
theorem ExactOrFails.of_checked {operation : IntegerOperation} {a b : Int64}
    (hdefined : ¬ operation.Undefined b) :
    operation.ExactOrFails a b
      (if FitsInt64 (operation.exact a.toInt b.toInt) then
        .ok (.integer (.ofInt (operation.exact a.toInt b.toInt)))
      else .error (.integerOverflow operation a b)) := by
  split
  · rename_i hfits
    exact .exact hdefined (toInt_ofInt_of_fitsInt64 hfits)
  · rename_i hrange
    exact .overflow hdefined hrange

section

variable {operation : IntegerOperation} {a b : Int64} {result : Outcome Value}

/-- An exact result of 64 bits is given. -/
theorem ExactOrFails.eq_ok (h : operation.ExactOrFails a b result)
    (hdefined : ¬ operation.Undefined b) {i : Int64}
    (hexact : i.toInt = operation.exact a.toInt b.toInt) : result = .ok (.integer i) := by
  cases h with
  | exact _ hexact' => rw [Int64.toInt_inj.mp (hexact'.trans hexact.symm)]
  | overflow _ hrange => exact absurd (hexact ▸ fitsInt64_toInt i) hrange
  | divisionByZero hundefined => exact absurd hundefined hdefined

/-- Where the exact result is not of 64 bits, the operation fails. -/
theorem ExactOrFails.eq_error (h : operation.ExactOrFails a b result)
    (hdefined : ¬ operation.Undefined b)
    (hrange : ¬ FitsInt64 (operation.exact a.toInt b.toInt)) :
    result = .error (.integerOverflow operation a b) := by
  cases h with
  | @exact i _ hexact => exact absurd (hexact ▸ fitsInt64_toInt i) hrange
  | overflow => rfl
  | divisionByZero hundefined => exact absurd hundefined hdefined

end

end IntegerOperation

namespace Builtin

section

variable {v w : Value} {a b : Int64}

theorem viewBoth_eq_ok {α : Type} {wanted : Wanted} {seen : Value → Option α} {x y : α}
    (hv : seen v = some x) (hw : seen w = some y) : viewBoth wanted seen [v, w] = .ok (x, y) := by
  simp [viewBoth, operand, view, hv, hw, bind, Except.bind, pure, Except.pure]

/-- An operation on integers gives its result if that is of 64 bits. -/
theorem exactly_eq {operation : IntegerOperation} {compute : Int → Int → Int}
    (hv : v.asInteger? = some a) (hw : w.asInteger? = some b) :
    exactly operation compute [v, w] =
      if FitsInt64 (compute a.toInt b.toInt) then
        .ok (.integer (.ofInt (compute a.toInt b.toInt)))
      else .error (.integerOverflow operation a b) := by
  rw [exactly, viewBoth_eq_ok hv hw]
  by_cases hfits : FitsInt64 (compute a.toInt b.toInt)
  · simp only [bind, Except.bind, fitting?, if_pos hfits]
    rfl
  · simp only [bind, Except.bind, fitting?, if_neg hfits]
    rfl

/-- Division rounded down fails for a divisor of zero and otherwise gives the floor of the
quotient, if that is of 64 bits. -/
theorem floorDivide_eq (hv : v.asInteger? = some a) (hw : w.asInteger? = some b) :
    floorDivide [v, w] =
      if b = 0 then .error .divisionByZero
      else if FitsInt64 ⌊(a.toInt : ℚ) / b.toInt⌋ then
        .ok (.integer (.ofInt ⌊(a.toInt : ℚ) / b.toInt⌋))
      else .error (.integerOverflow .floorDivide a b) := by
  rw [floorDivide, viewBoth_eq_ok hv hw]
  by_cases hb : b = 0
  · simp only [bind, Except.bind, if_pos hb]
    rfl
  · by_cases hfits : FitsInt64 ⌊(a.toInt : ℚ) / b.toInt⌋
    · simp only [bind, Except.bind, if_neg hb, floorQuotient?_eq hb, if_pos hfits]
      rfl
    · simp only [bind, Except.bind, if_neg hb, floorQuotient?_eq hb, if_neg hfits]
      rfl

end

section

variable {s : String} {v : Value} {n : Int64}

/-- A text repeated takes as many times its bytes. -/
theorem utf8ByteSize_repeated (s : String) (times : Nat) :
    (repeated s times).utf8ByteSize = s.utf8ByteSize * times := by
  induction times with
  | zero => rfl
  | succ times ih =>
    rw [repeated, List.replicate_succ, String.join_cons, String.utf8ByteSize_append, Nat.mul_succ,
      Nat.add_comm]
    exact congrArg (· + s.utf8ByteSize) ih

theorem repeated_empty (times : Nat) : repeated "" times = "" := by
  rw [← String.utf8ByteSize_eq_zero_iff, utf8ByteSize_repeated]
  exact Nat.zero_mul times

/-- A size within the limit of repetition can always be counted. -/
theorem repeatedSize?_eq (bytes times : Nat) :
    repeatedSize? bytes times =
      if bytes * times ≤ int64Limit then some (bytes * times) else none := by
  have hlimits : int64Limit ≤ sizeLimit := by decide
  by_cases hsize : bytes * times ≤ int64Limit
  · rw [repeatedSize?, if_pos (hsize.trans hlimits), if_pos hsize]
    simp [Option.filter, repeatLimit, hsize]
  · rw [repeatedSize?, if_neg hsize]
    split <;> simp [Option.filter, repeatLimit, hsize]

/-- A text is repeated unless the result is too long. -/
theorem repetition_eq (hcount : v.asInteger? = some n) :
    repetition (.string s) v =
      if (repeated s n.toInt.toNat).utf8ByteSize ≤ int64Limit then
        .ok (.string (repeated s n.toInt.toNat))
      else .error (.repeatTooLong s.utf8ByteSize n) := by
  have htext : (if s.isEmpty then "" else repeated s n.toInt.toNat) =
      repeated s n.toInt.toNat := by
    split
    · rename_i hempty
      rw [String.isEmpty_iff.mp hempty, repeated_empty]
    · rfl
  rw [utf8ByteSize_repeated]
  by_cases hsize : s.utf8ByteSize * n.toInt.toNat ≤ int64Limit
  · simp only [repetition, view, Value.asString?, hcount, bind, Except.bind, repeatedSize?_eq,
      if_pos hsize, htext]
    rfl
  · simp only [repetition, view, Value.asString?, hcount, bind, Except.bind, repeatedSize?_eq,
      if_neg hsize]
    rfl

end

end Builtin

/-- What a text gives when it is repeated: as many copies as the count says, none if it is
negative, or a failure if they take more bytes than a text may have. -/
inductive RepeatsOrFails (s : String) (n : Int64) : Outcome Value → Prop where
  | repeats (hsize : (Builtin.repeated s n.toInt.toNat).utf8ByteSize ≤ 2 ^ 63 - 1) :
      RepeatsOrFails s n (.ok (.string (Builtin.repeated s n.toInt.toNat)))
  | tooLong (hsize : 2 ^ 63 - 1 < (Builtin.repeated s n.toInt.toNat).utf8ByteSize) :
      RepeatsOrFails s n (.error (.repeatTooLong s.utf8ByteSize n))

namespace Builtin

/-- The built-in implementation of an integer operation. -/
def integerImplementation : IntegerOperation → Implementation
  | .add => exactly .add (· + ·)
  | .subtract => exactly .subtract (· - ·)
  | .multiply => exactly .multiply (· * ·)
  | .floorDivide => floorDivide

section

variable {s : String} {v w : Value} {a b n : Int64}

/-- On what counts as integers the implementation is exact or fails. -/
theorem exactOrFails_integerImplementation (operation : IntegerOperation) (hv : v.CountsAs a)
    (hw : w.CountsAs b) : operation.ExactOrFails a b (integerImplementation operation [v, w]) := by
  rw [Value.countsAs_iff] at hv hw
  cases operation with
  | add | subtract | multiply =>
    rw [integerImplementation, exactly_eq hv hw]
    exact .of_checked fun hundefined => nomatch hundefined.1
  | floorDivide =>
    rw [integerImplementation, floorDivide_eq hv hw]
    split
    · rename_i hzero
      exact .divisionByZero ⟨rfl, hzero⟩
    · rename_i hb
      exact .of_checked fun hundefined => hb hundefined.2

/-- A text that is repeated gives its copies or fails. -/
theorem repeatsOrFails_repetition (s : String) (hv : v.CountsAs n) :
    RepeatsOrFails s n (repetition (.string s) v) := by
  rw [repetition_eq (Value.countsAs_iff.mp hv)]
  split
  · rename_i hsize
    exact .repeats hsize
  · rename_i hsize
    exact .tooLong (Nat.lt_of_not_le hsize)

/-- Operands that count as integers are computed by the implementation for integers. -/
theorem computes_integer (operation : IntegerOperation) (hv : v.CountsAs a) (hw : w.CountsAs b) :
    registry.Computes operation.operator [v, w] (integerImplementation operation [v, w]) := by
  cases operation <;> cases hv <;> cases hw <;> exact .of_find rfl rfl

/-- A text and what counts as an integer, in either order, are computed by repetition. -/
theorem computes_repetition {operands : List Value} (hv : v.CountsAs n)
    (hoperands : operands = [.string s, v] ∨ operands = [v, .string s]) :
    registry.Computes .multiply operands (repetition (.string s) v) := by
  rcases hoperands with rfl | rfl <;> cases hv <;> exact .of_find rfl rfl

end

/-- Integer operators are exact or fail. On two operands that count as integers the selected
overload gives the exact sum, difference, product or floor of the quotient if that is of 64 bits,
and fails otherwise, also for a divisor of zero. On a text and what counts as an integer, in either
order, it gives the text as many times as the integer says, none if it is negative, if the result
has less than `2 ^ 63` bytes, and fails otherwise. -/
theorem integer_operators_exact_or_fail :
    (∀ (operation : IntegerOperation) (v w : Value) (a b : Int64), v.CountsAs a → w.CountsAs b →
      ∃ result, registry.Computes operation.operator [v, w] result ∧
        operation.ExactOrFails a b result) ∧
    ∀ (s : String) (v : Value) (n : Int64) (operands : List Value), v.CountsAs n →
      (operands = [.string s, v] ∨ operands = [v, .string s]) →
      ∃ result, registry.Computes .multiply operands result ∧ RepeatsOrFails s n result :=
  ⟨fun operation _ _ _ _ hv hw =>
      ⟨_, computes_integer operation hv hw, exactOrFails_integerImplementation operation hv hw⟩,
    fun s _ _ _ hv hoperands =>
      ⟨_, computes_repetition hv hoperands, repeatsOrFails_repetition s hv⟩⟩

/-- A quotient is rounded down, not cut. The least integer by minus one and the greatest plus a
boolean are out of range. A text may stand after its count. -/
theorem integer_operators_exact_or_fail_edges :
    registry.Computes .floorDivide [.integer (-7), .integer 2] (.ok (.integer (-4))) ∧
      registry.Computes .floorDivide [.integer Int64.minValue, .integer (-1)]
        (.error (.integerOverflow .floorDivide Int64.minValue (-1))) ∧
      registry.Computes .add [.boolean true, .integer Int64.maxValue]
        (.error (.integerOverflow .add 1 Int64.maxValue)) ∧
      registry.Computes .multiply [.integer 2, .string "ab"] (.ok (.string "abab")) := by
  obtain ⟨hintegers, hrepetition⟩ := integer_operators_exact_or_fail
  refine ⟨?_, ?_, ?_, ?_⟩
  · obtain ⟨result, hcomputes, hexact⟩ :=
      hintegers .floorDivide _ _ _ _ (.integer (-7)) (.integer 2)
    have hfloor : (-4 : Int64).toInt = ⌊((-7 : Int64).toInt : ℚ) / (2 : Int64).toInt⌋ := by
      rw [← fdiv_eq_floor]
      rfl
    rwa [hexact.eq_ok (by decide) hfloor] at hcomputes
  · obtain ⟨result, hcomputes, hexact⟩ :=
      hintegers .floorDivide _ _ _ _ (.integer Int64.minValue) (.integer (-1))
    have hrange : ¬ FitsInt64 ⌊(Int64.minValue.toInt : ℚ) / (-1 : Int64).toInt⌋ := by
      rw [← fdiv_eq_floor]
      decide
    rwa [hexact.eq_error (by decide) hrange] at hcomputes
  · obtain ⟨result, hcomputes, hexact⟩ := hintegers .add _ _ _ _ .yes (.integer Int64.maxValue)
    rwa [hexact.eq_error (by decide) (by decide)] at hcomputes
  · obtain ⟨result, hcomputes, hrepeats⟩ :=
      hrepetition "ab" (.integer 2) 2 _ (.integer 2) (.inr rfl)
    cases hrepeats with
    | repeats => exact hcomputes
    | tooLong hsize => exact absurd hsize (by decide)

end Builtin

end Dataflow
