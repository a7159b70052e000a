/-
# Integers of 64 bits

The range of signed integers of 64 bits. An integer in it comes back unchanged
from its 64 bits. Division has no result where the divisor is zero or the quotient
is out of range.
-/

namespace Dataflow

/-- The largest integer of 64 bits. -/
def int64Limit : Nat := 0x7fffffffffffffff

/-- An integer fits 64 bits. -/
abbrev FitsInt64 (n : Int) : Prop :=
  Int64.minValue.toInt ≤ n ∧ n ≤ Int64.maxValue.toInt

/-- The 64 bits of an integer that fits them hold that integer. -/
theorem toInt_ofInt_of_fitsInt64 {n : Int} (h : FitsInt64 n) : (Int64.ofInt n).toInt = n :=
  Int64.toInt_ofInt_of_le h.1 (Int.lt_of_le_of_lt h.2 (by decide))

/-- The integer of 64 bits that is nearest to `n`. -/
def nearestInt64 (n : Int) : Int64 :=
  Int64.ofInt (max Int64.minValue.toInt (min n Int64.maxValue.toInt))

/-- Whether a division of integers has no result. Only the quotient of the least
integer by minus one is out of range. -/
def undivided (a b : Int64) : Bool :=
  b == 0 || (a == Int64.minValue && b == -1)

/-- The quotient, cut toward zero. -/
def quotient? (a b : Int64) : Option Int64 :=
  if undivided a b then none else some (a / b)

/-- The remainder that the quotient leaves. It has the sign of the dividend. -/
def remainder? (a b : Int64) : Option Int64 :=
  if undivided a b then none else some (a % b)

/-- The quotient, rounded down: one less than the cut quotient if something is left
and the operands have different signs. -/
def floorQuotient? (a b : Int64) : Option Int64 := do
  let quotient ← quotient? a b
  let remainder ← remainder? a b
  return if remainder != 0 && decide (a < 0) != decide (b < 0) then quotient - 1 else quotient

end Dataflow
