/-
# Reading JSON numbers

A number without point and exponent is an integer as long as it fits 64 bits,
signed or unsigned; the integer zero has no sign, so minus zero is a float.

Any other number is read quickly rather than exactly: as many leading digits as
fit 64 bits are kept, and what they spell is scaled once by a power of ten, each
of the two steps being rounded. Numbers with up to fifteen digits and a small
exponent come out exact. A number too large for binary64 is refused, though it may be
a numeral.
-/

import Dataflow.Binary64.Arithmetic
import Dataflow.Decimal.Reader
import Dataflow.Json

namespace Dataflow.Json

/-- The largest significand that is kept. -/
def significandLimit : Nat := UInt64.size - 1

/-- The largest exponent that a number may spell. -/
def exponentLimit : Nat := 0x7fffffff

/-- The power of ten, rounded to binary64. -/
def powerOfTen (exponent : Nat) : Binary64 := Binary64.ofDecimal false 1 exponent

/-- Scale by a power of ten, in steps of at most `10 ^ 308`. A third step is
never needed, as the second one already leaves zero. -/
def scaleBy? : Nat → Binary64 → Int → Option Binary64
  | 0, x, _ => some x
  | steps + 1, x, exponent =>
    if exponent.natAbs ≤ 308 then
      if 0 ≤ exponent then
        let scaled := x.mul (powerOfTen exponent.toNat)
        if scaled.isInfinite then none else some scaled
      else some (x.div (powerOfTen exponent.natAbs))
    else if x.isZero then some x
    else if 0 ≤ exponent then none
    else scaleBy? steps (x.div (powerOfTen 308)) (exponent + 308)

/-- The float that a kept significand and its exponent stand for. -/
def floatOf? (negative : Bool) (significand : Nat) (exponent : Int) : Option Json :=
  (scaleBy? 3 (.ofInt significand) exponent).map fun x =>
    .float (if negative then x.negate else x)

/-- Digits after the point: the significand with those that still fit, and the
exponent moved by each. Once a digit does not fit, all further ones are
ignored. -/
def keepFraction (significand : Nat) (exponent : Int) : List Char → Nat × Int
  | [] => (significand, exponent)
  | c :: rest =>
    let next := significand * 10 + Decimal.digitValue c
    if significandLimit < next then (significand, exponent)
    else keepFraction next (exponent - 1) rest

/-- Digits before the point: the significand of those that fit, and how many do
not. -/
def keepWhole (significand : Nat) : List Char → Nat × Int
  | [] => (significand, 0)
  | c :: rest =>
    let next := significand * 10 + Decimal.digitValue c
    if significandLimit < next then (significand, (c :: rest).length)
    else keepWhole next rest

/-- A float with the exponent part still to be read. An exponent beyond the limit
leaves zero, or refuses the number if it is positive and the number is not
zero. -/
def withExponent? (negative : Bool) (significand : Nat) (exponent : Int) :
    List Char → Option Json
  | [] => floatOf? negative significand exponent
  | _ :: rest =>
    let (below, digits) := Decimal.readSign rest
    let size := Decimal.spelled 0 digits
    if exponentLimit < size then
      if significand ≠ 0 ∧ !below then none else some (.float (.zero negative))
    else floatOf? negative significand (if below then exponent - size else exponent + size)

/-- The integer that a sign and fitting digits stand for. -/
def integerOf (negative : Bool) (size : Nat) : Json :=
  if negative then
    if size = 0 ∨ ¬ FitsInt64 (-size) then .float (Binary64.ofInt size).negate
    else .integer (-size)
  else .integer size

/-- What stands after the digits that a numeral starts with; none if it has none, or if
it has more than one and the first is zero. -/
def afterWhole? (chars : List Char) : Option (List Char) :=
  let whole := chars.takeWhile Char.isDigit
  if whole.isEmpty || (whole.length > 1 && whole.head? == some '0') then none
  else some (chars.drop whole.length)

/-- What stands after digits, of which there is at least one. -/
def afterDigits? (chars : List Char) : Option (List Char) :=
  let digits := chars.takeWhile Char.isDigit
  if digits.isEmpty then none else some (chars.drop digits.length)

/-- Whether the rest of a numeral is an exponent part or nothing. -/
def isExponentPart : List Char → Bool
  | [] => true
  | mark :: rest =>
    (mark == 'e' || mark == 'E') && afterDigits? (Decimal.readSign rest).2 == some []

/-- Whether characters are a numeral, however large. -/
def isNumeral (chars : List Char) : Bool :=
  let unsigned := if chars.head? == some '-' then chars.drop 1 else chars
  match afterWhole? unsigned with
  | some ('.' :: fraction) => (afterDigits? fraction).any isExponentPart
  | some rest => isExponentPart rest
  | none => false

/-- Read a numeral after its sign. -/
def readUnsigned? (negative : Bool) (chars : List Char) : Option Json :=
  let (significand, skipped) := keepWhole 0 (chars.takeWhile Char.isDigit)
  match chars.dropWhile Char.isDigit with
  | [] =>
    if skipped = 0 then some (integerOf negative significand)
    else floatOf? negative significand skipped
  | '.' :: after =>
    let (kept, exponent) := keepFraction significand skipped (after.takeWhile Char.isDigit)
    withExponent? negative kept exponent (after.dropWhile Char.isDigit)
  | tail => withExponent? negative significand skipped tail

/-- The number that a numeral spells; none if it is too large. -/
def readNumber? : List Char → Option Json
  | '-' :: rest => readUnsigned? true rest
  | chars => readUnsigned? false chars

end Dataflow.Json
