/-
# Layouts of decimals

How a decimal is written: where positional notation ends, whether a whole number
keeps a point, how an exponent is spelled, and which texts stand for the values
that have no digits. Each format of this library is one `Layout` value, defined
beside the printer that uses it.
-/

import Dataflow.Decimal.Shortest
import Dataflow.Named

namespace Dataflow.Decimal

/-- The decisions of one number format. -/
structure Layout where
  /-- Which of two equally near shortest decimals is written. -/
  tie : Tie
  /-- The range of leading exponents that are written positionally, its upper
  end excluded; without a range all are. -/
  positional : Option (Int × Int)
  /-- What follows the digits of a whole number written positionally. -/
  wholeSuffix : String
  /-- What stands between the digits and a positive exponent. -/
  exponentMark : String
  /-- The text of not-a-number. -/
  nan : String
  /-- The text of positive infinity. -/
  infinity : String
  /-- The text of negative infinity. -/
  negativeInfinity : String

/-- Digits with the point after the first `before` of them, padded with zeros on
either side. -/
def pointed (digits : List Char) (before : Int) (wholeSuffix : String) : String :=
  let count : Int := digits.length
  if before ≤ 0 then
    "0." ++ String.ofList (List.replicate (-before).toNat '0' ++ digits)
  else if count ≤ before then
    String.ofList (digits ++ List.replicate (before - count).toNat '0') ++ wholeSuffix
  else
    String.ofList (digits.take before.toNat) ++ "." ++ String.ofList (digits.drop before.toNat)

/-- Digits with the point after the first, and the exponent of that digit. -/
def scientific (digits : List Char) (leading : Int) (mark : String) : String :=
  let fraction := digits.drop 1
  let mantissa :=
    String.ofList (digits.take 1) ++
      if fraction.isEmpty then "" else "." ++ String.ofList fraction
  if leading < 0 then mantissa ++ "e-" ++ numeral leading.natAbs
  else mantissa ++ mark ++ numeral leading.natAbs

/-- The text of a non-negative decimal. -/
def Layout.render (layout : Layout) (d : Decimal) : String :=
  let digits := Nat.toDigits 10 d.digits
  let before : Int := digits.length + d.exponent
  let leading := before - 1
  match layout.positional with
  | none => pointed digits before layout.wholeSuffix
  | some (lowest, past) =>
    if d.digits = 0 ∨ (lowest ≤ leading ∧ leading < past) then
      pointed digits before layout.wholeSuffix
    else scientific digits leading layout.exponentMark

/-- The text of a binary64 number: the shortest decimal in the given layout. -/
def Layout.text (layout : Layout) (x : Binary64) : String :=
  if x.isNaN then layout.nan
  else if x.isInfinite then
    if x.negative then layout.negativeInfinity else layout.infinity
  else
    let digits := layout.render (shortest layout.tie x.magnitude)
    if x.negative then "-" ++ digits else digits

end Dataflow.Decimal
