/-
# Rounding to binary64

An exact ratio is rounded to the nearest binary64 number, a tie going to the
number whose significand is even, and past the largest finite number to
infinity. All arithmetic in this library computes an exact result first and
rounds it once, here.
-/

import Dataflow.Binary64

namespace Dataflow

/-- The natural number nearest to a ratio; of two equally near ones the even
one. -/
def nearestEven (numerator denominator : Nat) : Nat :=
  let quotient := numerator / denominator
  let remainder := numerator % denominator
  if 2 * remainder < denominator ∨ (2 * remainder = denominator ∧ quotient % 2 = 0) then
    quotient
  else quotient + 1

namespace Binary64

/-- The magnitude nearest to a ratio of units. The significand keeps at most 53
bits; a carry out of them moves on to the next exponent by itself, because the
exponent stands right above the fraction. -/
def nearestMagnitude (numerator denominator : Nat) : Nat :=
  let scale := (numerator / denominator).log2 - 52
  let rounded := nearestEven numerator (denominator <<< scale)
  min (scale * fractions + rounded) infinityMagnitude

theorem nearestMagnitude_lt (numerator denominator : Nat) :
    nearestMagnitude numerator denominator < magnitudes :=
  Nat.lt_of_le_of_lt (Nat.min_le_right _ _) infinityMagnitude_lt

/-- The number nearest to a signed ratio of units. -/
def ofUnits (negative : Bool) (numerator denominator : Nat) : Binary64 :=
  ⟨negative, nearestMagnitude numerator denominator, nearestMagnitude_lt _ _⟩

/-- The number nearest to a signed ratio. -/
def ofRatio (negative : Bool) (numerator denominator : Nat) : Binary64 :=
  ofUnits negative (numerator * unitsPerOne) denominator

/-- The number nearest to an integer. -/
def ofInt (n : Int) : Binary64 :=
  ofRatio (decide (n < 0)) n.natAbs 1

/-- The number nearest to `digits * 10 ^ exponent`. Far beyond either end of the
range the power is not computed: such a number is infinite or zero. -/
def ofDecimal (negative : Bool) (digits : Nat) (exponent : Int) : Binary64 :=
  if digits = 0 then zero negative
  else
    let leading := exponent + (Nat.toDigits 10 digits).length
    if leading > 400 then infinity negative
    else if leading < -400 then zero negative
    else if 0 ≤ exponent then ofRatio negative (digits * Nat.pow 10 exponent.toNat) 1
    else ofRatio negative digits (Nat.pow 10 (-exponent).toNat)

end Binary64

end Dataflow
