/-
# Reading numbers

Readers for integers of 64 bits and for decimal binary64 numerals, each with the
reasons for which it refuses a text.
-/

import Dataflow.Binary64.Rounding
import Dataflow.Integer64

namespace Dataflow.Decimal

/-- Why a text is no integer of 64 bits. -/
inductive IntegerFault where
  | empty
  /-- A character is not a digit, or no digit follows the sign. -/
  | invalidDigit
  | tooLarge
  | tooSmall
deriving DecidableEq, Repr

def IntegerFault.message : IntegerFault → String
  | .empty => "cannot parse integer from empty string"
  | .invalidDigit => "invalid digit found in string"
  | .tooLarge => "number too large to fit in target type"
  | .tooSmall => "number too small to fit in target type"

/-- Why a text is no binary64 numeral. -/
inductive FloatFault where
  | empty
  | invalid
deriving DecidableEq, Repr

def FloatFault.message : FloatFault → String
  | .empty => "cannot parse float from empty string"
  | .invalid => "invalid float literal"

/-- The value of a decimal digit. -/
def digitValue (c : Char) : Nat := c.toNat - '0'.toNat

/-- The number that a list of digits spells, after the digits read so far. -/
def spelled (sofar : Nat) (digits : List Char) : Nat :=
  digits.foldl (fun value c => value * 10 + digitValue c) sofar

/-- Read digits from the left until one of them leads above the limit. -/
def readDigits (limit : Nat) (beyond : IntegerFault) (sofar : Nat) :
    List Char → Except IntegerFault Nat
  | [] => .ok sofar
  | c :: rest =>
    if !c.isDigit then .error .invalidDigit
    else
      let next := sofar * 10 + digitValue c
      if limit < next then .error beyond else readDigits limit beyond next rest

/-- Read digits of which there must be at least one. -/
def readMagnitude (limit : Nat) (beyond : IntegerFault) (digits : List Char) :
    Except IntegerFault Nat :=
  if digits.isEmpty then .error .invalidDigit else readDigits limit beyond 0 digits

/-- Read an integer of 64 bits: an optional sign and decimal digits. -/
def readInt64 : List Char → Except IntegerFault Int64
  | [] => .error .empty
  | '+' :: digits => (readMagnitude int64Limit .tooLarge digits).map fun n => Int64.ofInt n
  | '-' :: digits => (readMagnitude (int64Limit + 1) .tooSmall digits).map fun n => Int64.ofInt (-n)
  | digits => (readMagnitude int64Limit .tooLarge digits).map fun n => Int64.ofInt n

/-- The sign in front of a numeral, and what follows it. -/
def readSign : List Char → Bool × List Char
  | '-' :: rest => (true, rest)
  | '+' :: rest => (false, rest)
  | chars => (false, chars)

/-- The exponent part of a numeral that ends there: nothing, or a mark, an
optional sign and at least one digit. -/
def readExponent? : List Char → Option Int
  | [] => some 0
  | mark :: rest =>
    if mark = 'e' ∨ mark = 'E' then
      let (negative, digits) := readSign rest
      if digits.isEmpty || !digits.all Char.isDigit then none
      else
        let size : Int := spelled 0 digits
        some (if negative then -size else size)
    else none

/-- Read an unsigned numeral: digits with at most one point among or around them,
and an optional exponent. -/
def readNumeral? (negative : Bool) (chars : List Char) : Option Binary64 :=
  let whole := chars.takeWhile Char.isDigit
  let rest := chars.dropWhile Char.isDigit
  let (fraction, tail) :=
    match rest with
    | '.' :: after => (after.takeWhile Char.isDigit, after.dropWhile Char.isDigit)
    | other => ([], other)
  if whole.isEmpty && fraction.isEmpty then none
  else
    (readExponent? tail).map fun exponent =>
      Binary64.ofDecimal negative (spelled 0 (whole ++ fraction)) (exponent - fraction.length)

/-- Read a binary64 numeral, or a name of infinity or of not-a-number in any
case, after an optional sign. -/
def readFloat (chars : List Char) : Except FloatFault Binary64 :=
  if chars.isEmpty then .error .empty
  else
    let (negative, rest) := readSign chars
    match readNumeral? negative rest with
    | some x => .ok x
    | none =>
      let name := String.ofList (rest.map Char.toLower)
      if name = "inf" ∨ name = "infinity" then .ok (Binary64.infinity negative)
      else if name = "nan" then .ok Binary64.nan
      else .error .invalid

end Dataflow.Decimal
