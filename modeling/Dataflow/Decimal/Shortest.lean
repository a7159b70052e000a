/-
# Shortest decimals

The shortest decimal of a positive binary64 number is the one with the fewest
digits among those that lie closer to it than to its neighbours. The numbers
that round to a given one form an interval, whose ends belong to it exactly when
the significand is even. The search walks the decimal grids from one digit
upwards and stops at the first grid with a point in that interval; the only
candidates on a grid are the two neighbours of the number itself.
-/

import Dataflow.Binary64

namespace Dataflow

/-- A decimal number, `digits * 10 ^ exponent`. -/
structure Decimal where
  /-- The digits, read as one natural number. -/
  digits : Nat
  /-- The power of ten of the last digit. -/
  exponent : Int
deriving DecidableEq, Repr, Inhabited

namespace Decimal

/-- Which of two equally near decimals of one length is chosen. -/
inductive Tie where
  | toEven
  | upward
deriving DecidableEq, Repr

/-- How many decimal digits a natural number has. -/
def digitCount (n : Nat) : Nat := (Nat.toDigits 10 n).length

/-- Move at most `limit` trailing zeros of the digits into the exponent. -/
def stripUpTo : Nat → Decimal → Decimal
  | 0, d => d
  | limit + 1, d =>
    if d.digits % 10 = 0 ∧ d.digits ≠ 0 then stripUpTo limit ⟨d.digits / 10, d.exponent + 1⟩
    else d

/-- Move all trailing zeros of the digits into the exponent; there are fewer of
them than digits. -/
def stripZeros (d : Decimal) : Decimal :=
  stripUpTo (digitCount d.digits) d

/-- The exponent of the leading digit of a positive number of units. -/
def leadingExponent (units : Nat) : Int :=
  if Binary64.unitsPerOne ≤ units then
    (digitCount (units / Binary64.unitsPerOne) : Int) - 1
  else
    let inverse := (Binary64.unitsPerOne + units - 1) / units
    (-(digitCount (inverse - 1) : Int))

/-- A magnitude seen on the decimal grid of one exponent: the number is
`numerator / denominator` grid steps, and the interval that rounds to it reaches
from `low / (2 * denominator)` to `high / (2 * denominator)` steps. -/
structure GridView where
  /-- Numerator of the number. -/
  numerator : Nat
  /-- Denominator of the number, and half of that of the ends. -/
  denominator : Nat
  /-- Numerator of the lower end. -/
  low : Nat
  /-- Numerator of the upper end. -/
  high : Nat
  /-- Whether the ends belong to the interval. -/
  closed : Bool

/-- View a positive finite magnitude on the grid of `10 ^ exponent`. -/
def GridView.of (magnitude : Nat) (exponent : Int) : GridView :=
  let units := Binary64.unitsOf magnitude
  let finer := Nat.pow 10 (-exponent).toNat
  let coarser := Nat.pow 10 exponent.toNat
  { numerator := units * finer
    denominator := Binary64.unitsPerOne * coarser
    low := (Binary64.unitsOf (magnitude - 1) + units) * finer
    high := (units + Binary64.unitsOf (magnitude + 1)) * finer
    closed := magnitude % 2 == 0 }

/-- Whether a grid point lies in the interval. -/
def GridView.contains (view : GridView) (point : Nat) : Bool :=
  let scaled := 2 * view.denominator * point
  if view.closed then decide (view.low ≤ scaled) && decide (scaled ≤ view.high)
  else decide (view.low < scaled) && decide (scaled < view.high)

/-- The neighbour of the number on the grid that lies in the interval, the nearer
one if both do. -/
def GridView.point? (tie : Tie) (view : GridView) : Option Nat :=
  let below := view.numerator / view.denominator
  let above := below + 1
  match view.contains below, view.contains above with
  | false, false => none
  | true, false => some below
  | false, true => some above
  | true, true =>
    match compare (2 * view.numerator) ((below + above) * view.denominator) with
    | .lt => some below
    | .gt => some above
    | .eq =>
      match tie with
      | .upward => some above
      | .toEven => some (if below % 2 = 0 then below else above)

/-- Try grids of at most `limit` further digits, the coarsest first. -/
def searchGrids (tie : Tie) (magnitude : Nat) : Nat → Int → Option Decimal
  | 0, _ => none
  | limit + 1, exponent =>
    match (GridView.of magnitude exponent).point? tie with
    | some point => some ⟨point, exponent⟩
    | none => searchGrids tie magnitude limit (exponent - 1)

/-- The exact decimal of a magnitude. -/
def exact (magnitude : Nat) : Decimal :=
  ⟨Binary64.unitsOf magnitude * Nat.pow 5 1074, -1074⟩

/-- The shortest decimal of a finite magnitude. Seventeen digits always suffice;
should a search through them find nothing, the exact decimal stands in. -/
def shortest (tie : Tie) (magnitude : Nat) : Decimal :=
  if magnitude = 0 then ⟨0, 0⟩
  else
    let leading := leadingExponent (Binary64.unitsOf magnitude)
    ((searchGrids tie magnitude 17 leading).getD (exact magnitude)).stripZeros

end Decimal

end Dataflow
