/-
# Arithmetic on binary64 numbers

Sum, difference, product and quotient of two numbers are their exact results
rounded once. The rules for zeros, infinities and not-a-number are those of the
binary floating-point standard under rounding to nearest.
-/

import Dataflow.Binary64.Rounding
import Dataflow.Integer64

namespace Dataflow.Binary64

/-- The sum. An exact sum of zero is negative only if both terms are. -/
def add (x y : Binary64) : Binary64 :=
  if x.isNaN || y.isNaN then nan
  else if x.isInfinite then
    if y.isInfinite && x.negative != y.negative then nan else x
  else if y.isInfinite then y
  else
    let sum := x.units + y.units
    if sum = 0 then zero (x.negative && y.negative)
    else ofUnits (decide (sum < 0)) sum.natAbs 1

def sub (x y : Binary64) : Binary64 :=
  x.add y.negate

/-- The product. Infinity times zero is not a number. -/
def mul (x y : Binary64) : Binary64 :=
  let negative := x.negative != y.negative
  if x.isNaN || y.isNaN then nan
  else if x.isInfinite || y.isInfinite then
    if x.isZero || y.isZero then nan else infinity negative
  else ofUnits negative (unitsOf x.magnitude * unitsOf y.magnitude) unitsPerOne

/-- The quotient. Zero by zero and infinity by infinity are not numbers; anything
else by zero is infinite. -/
def div (x y : Binary64) : Binary64 :=
  let negative := x.negative != y.negative
  if x.isNaN || y.isNaN then nan
  else if x.isInfinite then
    if y.isInfinite then nan else infinity negative
  else if y.isInfinite then zero negative
  else if y.isZero then
    if x.isZero then nan else infinity negative
  else ofRatio negative (unitsOf x.magnitude) (unitsOf y.magnitude)

/-- Whether a finite number is whole. -/
def isWhole (x : Binary64) : Bool :=
  x.isFinite && unitsOf x.magnitude % unitsPerOne == 0

/-- The number cut toward zero. Infinities, not-a-number and whole numbers stay as
they are. -/
def truncate (x : Binary64) : Binary64 :=
  if !x.isFinite || x.isWhole then x
  else ofRatio x.negative (unitsOf x.magnitude / unitsPerOne) 1

def exceeds (x y : Binary64) : Bool := x.order? y == some .gt

/-- The integer of 64 bits that is nearest to a number, cut toward zero. Not-a-number
gives zero. -/
def toInt64 (x : Binary64) : Int64 :=
  if x.isNaN then 0
  else if x.isInfinite then if x.negative then Int64.minValue else Int64.maxValue
  else nearestInt64 (x.units.tdiv unitsPerOne)

/-- The largest whole number that is not greater. Infinities, not-a-number and
whole numbers, zeros of either sign included, stay as they are. -/
def floor (x : Binary64) : Binary64 :=
  if !x.isFinite || x.isWhole then x
  else
    let whole := unitsOf x.magnitude / unitsPerOne
    if x.negative then ofRatio true (whole + 1) 1 else ofRatio false whole 1

/-- Whether the absolute value of a finite number is below a natural number. -/
def absoluteBelow (x : Binary64) (bound : Nat) : Bool :=
  x.isFinite && decide (unitsOf x.magnitude < bound * unitsPerOne)

end Dataflow.Binary64
