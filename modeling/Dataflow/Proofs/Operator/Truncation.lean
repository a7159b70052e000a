/-
# Conversion of floats to integers

A float converts to the integer part of its value, and what is not finite or too large does not
convert. The range is told in floats, though, and the greatest integer of 64 bits is none: the
float nearest to it is `2 ^ 63`. So the one number `2 ^ 63` passes for being in range, and what it
converts to is not its integer part but the greatest integer.
-/

import Dataflow.Proofs.Binary64
import Dataflow.Proofs.Operator.Overloads

namespace Dataflow

/-- What a float converts to: the integer part of its value, or a failure, but for the number
`2 ^ 63`. -/
inductive Binary64.ConvertsOrFails (x : Binary64) : Outcome Value → Prop where
  | exact {i : Int64} (hfinite : x.isFinite = true) (hexact : i.toInt = x.integerPart) :
      ConvertsOrFails x (.ok (.integer i))
  /-- The least number above the range passes for the greatest integer. -/
  | limit (hfinite : x.isFinite = true) (hlimit : x.value = 2 ^ 63) :
      ConvertsOrFails x (.ok (.integer Int64.maxValue))
  | fails (hrange : x.isFinite = false ∨ x.integerPart < -2 ^ 63 ∨ 2 ^ 63 < x.integerPart) :
      ConvertsOrFails x (.error (.noIntegerPart x))

namespace Builtin

/-- The float nearest to the greatest integer is one more. -/
theorem units_greatestInteger :
    greatestInteger.isFinite = true ∧
      greatestInteger.units = 9223372036854775808 * Binary64.unitsPerOne := by
  decide +kernel

/-- The least integer is a float. -/
theorem units_leastInteger :
    leastInteger.isFinite = true ∧
      leastInteger.units = -9223372036854775808 * Binary64.unitsPerOne := by
  decide +kernel

section

variable {x : Binary64}

/-- A finite float is taken to be out of range if its integer part is, by more than one above
it. -/
theorem outOfRange_iff (hfinite : x.isFinite = true) :
    outOfRange x = true ↔
      x.integerPart < -9223372036854775808 ∨ 9223372036854775808 < x.integerPart := by
  obtain ⟨htruncate, hunits⟩ := Binary64.units_truncate hfinite
  obtain ⟨hgreatest, hgreatestUnits⟩ := units_greatestInteger
  obtain ⟨hleast, hleastUnits⟩ := units_leastInteger
  have hone : (0 : Int) < Binary64.unitsPerOne := Int.natCast_pos.mpr Binary64.unitsPerOne_pos
  rw [outOfRange, Bool.or_eq_true, Binary64.exceeds_iff htruncate hgreatest,
    Binary64.exceeds_iff hleast htruncate, hunits, hgreatestUnits, hleastUnits,
    Int.mul_lt_mul_right hone, Int.mul_lt_mul_right hone, Binary64.integerPart_eq]
  exact Or.comm

/-- The integer of a finite float is the one nearest to its integer part. -/
theorem toInt64_truncate (hfinite : x.isFinite = true) :
    x.truncate.toInt64 = nearestInt64 x.integerPart := by
  obtain ⟨htruncate, hunits⟩ := Binary64.units_truncate hfinite
  have hone : (Binary64.unitsPerOne : Int) ≠ 0 :=
    (Int.natCast_pos.mpr Binary64.unitsPerOne_pos).ne'
  rw [Binary64.toInt64, Binary64.isNaN_of_isFinite htruncate,
    Binary64.isInfinite_of_isFinite htruncate, hunits, Int.mul_tdiv_cancel _ hone,
    Binary64.integerPart_eq]
  rfl

/-- The conversion of a float gives its integer part or fails, but for one number. -/
theorem convertsOrFails_floatToInteger (x : Binary64) :
    x.ConvertsOrFails (floatToInteger [.float x]) := by
  rw [floatToInteger_float]
  cases hfinite : x.isFinite with
  | false => exact .fails (.inl hfinite)
  | true =>
    by_cases hrange : outOfRange x = true
    · rw [hrange]
      exact .fails (.inr ((outOfRange_iff hfinite).mp hrange))
    · have hinside := mt (outOfRange_iff hfinite).mpr hrange
      rw [Bool.eq_false_iff.mpr hrange, toInt64_truncate hfinite]
      by_cases hlimit : x.integerPart = 9223372036854775808
      · have hvalue : x.value = 2 ^ 63 := by
          rw [Binary64.value_eq_integerPart (by rw [hlimit]; decide), hlimit]
          norm_num
        rw [nearestInt64_of_le (by rw [hlimit]; decide)]
        exact .limit hfinite hvalue
      · have hfits : FitsInt64 x.integerPart := fitsInt64_iff.mpr (by omega)
        exact .exact hfinite (toInt_nearestInt64 hfits)

end

/-- The operator computes with this conversion on a float. -/
theorem computes_floatToInteger (x : Binary64) :
    registry.Computes .toInteger [.float x] (floatToInteger [.float x]) :=
  .of_find rfl rfl

/-- A float converts to the integer part of its value if that is of 64 bits, and otherwise fails,
not-a-number and infinities included. The only exception is the number `2 ^ 63`, which converts to
the greatest integer. -/
theorem toInteger_converts_or_fails (x : Binary64) :
    ∃ result, registry.Computes .toInteger [.float x] result ∧ x.ConvertsOrFails result :=
  ⟨_, computes_floatToInteger x, convertsOrFails_floatToInteger x⟩

/-- The number `2 ^ 63`. -/
def aboveRange : Binary64 := .ofBits 0x43e0000000000000

theorem integerPart_aboveRange : aboveRange.integerPart = 9223372036854775808 := by
  have hunits : aboveRange.units = 9223372036854775808 * Binary64.unitsPerOne := by decide +kernel
  have hone : (Binary64.unitsPerOne : Int) ≠ 0 :=
    (Int.natCast_pos.mpr Binary64.unitsPerOne_pos).ne'
  rw [Binary64.integerPart_eq, hunits, Int.mul_tdiv_cancel _ hone]

theorem floatToInteger_aboveRange :
    floatToInteger [.float aboveRange] = .ok (.integer Int64.maxValue) := by
  have hconverts := convertsOrFails_floatToInteger aboveRange
  have hpart := integerPart_aboveRange
  generalize floatToInteger [.float aboveRange] = result at hconverts
  cases hconverts with
  | @exact i _ hexact =>
    have hfits := fitsInt64_iff.mp (fitsInt64_toInt i)
    omega
  | limit => rfl
  | fails hrange =>
    rcases hrange with hinfinite | hrange
    · cases hinfinite
    · omega

/-- The conversion is not exact throughout: the number `2 ^ 63` is out of range and converts
without failing. -/
theorem not_toInteger_exact_or_fails :
    ¬ ∀ x : Binary64,
      (∀ i, registry.Computes .toInteger [.float x] (.ok (.integer i)) ↔
        x.isFinite = true ∧ FitsInt64 x.integerPart ∧ i.toInt = x.integerPart) ∧
      (¬ (x.isFinite = true ∧ FitsInt64 x.integerPart) →
        ∃ failure, registry.Computes .toInteger [.float x] (.error failure)) := by
  intro hall
  have hcomputes : registry.Computes .toInteger [.float aboveRange]
      (.ok (.integer Int64.maxValue)) :=
    floatToInteger_aboveRange ▸ computes_floatToInteger aboveRange
  obtain ⟨-, hfits, -⟩ := ((hall aboveRange).1 Int64.maxValue).mp hcomputes
  rw [fitsInt64_iff, integerPart_aboveRange] at hfits
  omega

end Builtin

end Dataflow
