/-
# Built-in overloads

The overloads that every tracer starts with. Integer results are exact or fail;
an operand of a float overload is widened; a boolean stands for an integer
wherever no overload takes it as it is.
-/

import Dataflow.Binary64.Arithmetic
import Dataflow.Operator.Registry
import Dataflow.Text.Blank
import Dataflow.Value.Compare

namespace Dataflow.Builtin

/-- The operand at a position. -/
def operand (operands : List Value) (position : Nat) : Outcome Value :=
  match operands[position]? with
  | some v => .ok v
  | none => .error (.missingOperand position)

/-- A value seen in the way that is wanted. -/
def view {α : Type} (wanted : Wanted) (seen : Value → Option α) (v : Value) : Outcome α :=
  match seen v with
  | some a => .ok a
  | none => .error (.operandKind wanted v.kind)

/-- Two operands seen in the way that is wanted, the first one checked first. -/
def viewBoth {α : Type} (wanted : Wanted) (seen : Value → Option α) (operands : List Value) :
    Outcome (α × α) := do
  let a ← view wanted seen (← operand operands 0)
  let b ← view wanted seen (← operand operands 1)
  return (a, b)

/-- An exact integer as a value, if it fits 64 bits. -/
def fitting? (n : Int) : Option Value :=
  if FitsInt64 n then some (.integer (Int64.ofInt n)) else none

/-- An integer operation with an exact result, which fails when that does not
fit. -/
def exactly (operation : IntegerOperation) (compute : Int → Int → Int) : Implementation :=
  fun operands => do
    let (a, b) ← viewBoth .integer Value.asInteger? operands
    match fitting? (compute a.toInt b.toInt) with
    | some v => return v
    | none => throw (.integerOverflow operation a b)

/-- An operation on two floats. -/
def onFloats (compute : Binary64 → Binary64 → Binary64) : Implementation :=
  fun operands => do
    let (a, b) ← viewBoth .number Value.asFloat? operands
    return .float (compute a b)

/-- A division of two floats, which fails when the divisor is zero. -/
def dividing (compute : Binary64 → Binary64 → Binary64) : Implementation :=
  fun operands => do
    let (a, b) ← viewBoth .number Value.asFloat? operands
    if b.isZero then throw .divisionByZero
    return .float (compute a b)

/-- Concatenation of two texts. -/
def concatenate : Implementation := fun operands => do
  let (a, b) ← viewBoth .string Value.asString? operands
  return .string (a ++ b)

/-- Division of integers, rounded down. -/
def floorDivide : Implementation := fun operands => do
  let (a, b) ← viewBoth .integer Value.asInteger? operands
  if b = 0 then throw .divisionByZero
  match floorQuotient? a b with
  | some quotient => return .integer quotient
  | none => throw (.integerOverflow .floorDivide a b)

/-- The largest size that is counted. -/
def sizeLimit : Nat := 0xffffffffffffffff

/-- The longest text that repetition may build, in bytes. -/
def repeatLimit : Nat := int64Limit

/-- The size of a text of so many bytes after repetition, if it can be counted and is
within the limit. -/
def repeatedSize? (bytes times : Nat) : Option Nat :=
  (if bytes * times ≤ sizeLimit then some (bytes * times) else none).filter
    fun size => decide (size ≤ repeatLimit)

/-- The text repeated a number of times; a negative number counts as zero. -/
def repeated (text : String) (times : Nat) : String :=
  String.join (List.replicate times text)

/-- Repetition of a text, which fails when the result would be too long. -/
def repetition (text count : Value) : Outcome Value := do
  let text ← view .string Value.asString? text
  let count ← view .count Value.asInteger? count
  let times := count.toInt.toNat
  match repeatedSize? text.utf8ByteSize times with
  | some _ => return .string (if text.isEmpty then "" else repeated text times)
  | none => throw (.repeatTooLong text.utf8ByteSize count)

/-- Repetition with the text in front. -/
def textTimes : Implementation := fun operands => do
  let text ← operand operands 0
  let count ← operand operands 1
  repetition text count

/-- Repetition with the count in front. -/
def timesText : Implementation := fun operands => do
  let count ← operand operands 0
  let text ← operand operands 1
  repetition text count

/-- Whether two values are loosely equal. -/
def equality (expected : Bool) : Implementation := fun operands => do
  let a ← operand operands 0
  let b ← operand operands 1
  return .boolean (a.looselyEquals b == expected)

/-- Whether a list occurs as a run of neighbours in another. -/
def isInfix (needle : List Char) : List Char → Bool
  | [] => needle.isEmpty
  | c :: rest => needle.isPrefixOf (c :: rest) || isInfix needle rest

/-- Whether the second text occurs in the first. -/
def containment : Implementation := fun operands => do
  let (a, b) ← viewBoth .string Value.asString? operands
  return .boolean (isInfix b.toList a.toList)

/-- The number of characters of a text. -/
def textLength : Implementation := fun operands => do
  let text ← view .string Value.asString? (← operand operands 0)
  return .integer (Int64.ofNat text.toList.length)

def recordLength : Implementation := fun operands => do
  let fields ← view .record Value.asRecord? (← operand operands 0)
  return .integer (Int64.ofNat fields.size)

def asText : Implementation := fun operands => do
  let v ← operand operands 0
  return .string v.text

/-- The integer that a text spells, blanks at its ends aside. -/
def textToInteger : Implementation := fun operands => do
  let text ← view .string Value.asString? (← operand operands 0)
  match Decimal.readInt64 (Text.trim text).toList with
  | .ok i => return .integer i
  | .error fault => throw (.notAnInteger text fault)

/-- The integer view of a value. -/
def numberToInteger : Implementation := fun operands => do
  let i ← view .integer Value.asInteger? (← operand operands 0)
  return .integer i

/-- The float nearest to the largest integer of 64 bits. -/
def greatestInteger : Binary64 := .ofInt Int64.maxValue.toInt

/-- The float nearest to the least integer of 64 bits. -/
def leastInteger : Binary64 := .ofInt Int64.minValue.toInt

/-- Whether a float, cut toward zero, is outside the range of integers as floats
tell it. -/
def outOfRange (x : Binary64) : Bool :=
  x.truncate.exceeds greatestInteger || leastInteger.exceeds x.truncate

/-- The integer part of a float. It fails for what is not finite or out of range. -/
def floatToInteger : Implementation := fun operands => do
  let x ← view .number Value.asFloat? (← operand operands 0)
  if !x.isFinite || outOfRange x then throw (.noIntegerPart x)
  return .integer x.truncate.toInt64

/-- The float that a text spells, blanks at its ends aside. -/
def textToFloat : Implementation := fun operands => do
  let text ← view .string Value.asString? (← operand operands 0)
  match Decimal.readFloat (Text.trim text).toList with
  | .ok x => return .float x
  | .error fault => throw (.notAFloat text fault)

/-- The float view of a value. -/
def numberToFloat : Implementation := fun operands => do
  let x ← view .number Value.asFloat? (← operand operands 0)
  return .float x

/-- Overloads of one implementation for several lists of parameter kinds. -/
def overloadsFor (parameters : List (List ValueKind)) (returns : ValueType)
    (implementation : Implementation) : List Overload :=
  parameters.map fun kinds => ⟨kinds, returns, implementation⟩

/-- The pairs of numeric kinds of which one is a float. -/
def floatPairs : List (List ValueKind) :=
  [[.integer, .float], [.float, .integer], [.float, .float]]

/-- The pairs of kinds that compare for equality. -/
def equalityPairs : List (List ValueKind) :=
  [[.string, .string], [.integer, .integer], [.integer, .float], [.float, .integer],
    [.float, .float], [.record, .record]]

/-- The built-in overloads of an operator, in order. -/
def overloads : Operator → List Overload
  | .add =>
    ⟨[.string, .string], .string, concatenate⟩ ::
      ⟨[.integer, .integer], .integer, exactly .add (· + ·)⟩ ::
      overloadsFor floatPairs .float (onFloats Binary64.add)
  | .subtract =>
    ⟨[.integer, .integer], .integer, exactly .subtract (· - ·)⟩ ::
      overloadsFor floatPairs .float (onFloats Binary64.sub)
  | .multiply =>
    ⟨[.string, .integer], .string, textTimes⟩ ::
      ⟨[.integer, .string], .string, timesText⟩ ::
      ⟨[.integer, .integer], .integer, exactly .multiply (· * ·)⟩ ::
      overloadsFor floatPairs .float (onFloats Binary64.mul)
  | .divide =>
    overloadsFor ([.integer, .integer] :: floatPairs) .float (dividing Binary64.div)
  | .floorDivide =>
    ⟨[.integer, .integer], .integer, floorDivide⟩ ::
      overloadsFor floatPairs .float (dividing fun a b => (a.div b).floor)
  | .equal => overloadsFor equalityPairs .boolean (equality true)
  | .notEqual => overloadsFor equalityPairs .boolean (equality false)
  | .contains => [⟨[.string, .string], .boolean, containment⟩]
  | .length =>
    [⟨[.string], .integer, textLength⟩, ⟨[.record], .integer, recordLength⟩]
  | .toString =>
    overloadsFor [[.string], [.boolean], [.integer], [.float]] .string asText
  | .toInteger =>
    [⟨[.string], .integer, textToInteger⟩, ⟨[.integer], .integer, numberToInteger⟩,
      ⟨[.float], .integer, floatToInteger⟩]
  | .toFloat =>
    ⟨[.string], .float, textToFloat⟩ ::
      overloadsFor [[.integer], [.float]] .float numberToFloat

/-- The registry with the built-in overloads. -/
def registry : Registry := ⟨overloads⟩

end Dataflow.Builtin
