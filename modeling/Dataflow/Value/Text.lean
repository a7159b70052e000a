/-
# Texts of values

How a value reads: texts as they are, numbers in decimal, records as their
fields in parentheses. A positional record shows its values alone.
-/

import Dataflow.Binary64.Arithmetic
import Dataflow.Decimal.Layout
import Dataflow.Value

namespace Dataflow

/-- Digits are positional at every size, a whole number has no point, and of two
equally near decimals the larger is written. -/
def plainLayout : Decimal.Layout where
  tie := .upward
  positional := none
  wholeSuffix := ""
  exponentMark := "e"
  nan := "NaN"
  infinity := "inf"
  negativeInfinity := "-inf"

/-- As `plainLayout`, but a whole number keeps a point and a zero. -/
def pointedLayout : Decimal.Layout :=
  { plainLayout with wholeSuffix := ".0" }

/-- The text of a binary64 number. Whole numbers below `10 ^ 16` keep a point. -/
def floatText (x : Binary64) : String :=
  if x.isWhole && x.absoluteBelow 10000000000000000 then pointedLayout.text x else plainLayout.text x

def integerText (i : Int64) : String :=
  if i.toInt < 0 then "-" ++ numeral i.toInt.natAbs else numeral i.toInt.natAbs

namespace Value

mutual

def text : Value → String
  | .boolean b => if b then "true" else "false"
  | .integer i => integerText i
  | .float x => floatText x
  | .string s => s
  | .record ⟨entries⟩ =>
    let positional := Named.areNumerals 0 (entries.map Prod.fst)
    "(" ++ String.intercalate ", " (fieldTexts positional entries) ++ ")"

/-- The texts of fields, with their names unless they are positional. -/
def fieldTexts (positional : Bool) : List (String × Value) → List String
  | [] => []
  | (name, v) :: rest =>
    (if positional then text v else name ++ ": " ++ text v) :: fieldTexts positional rest

end

end Value

end Dataflow
