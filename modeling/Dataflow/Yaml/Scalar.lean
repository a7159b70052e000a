/-
# Unquoted YAML scalars

What an unquoted scalar means: null, a truth value, an integer in one of four
bases, a float, or the text itself. Numerals with leading zeros are texts.
-/

import Dataflow.Decimal.Reader

namespace Dataflow.Yaml

/-- The meaning of an unquoted scalar. -/
inductive Scalar where
  | null
  | boolean (b : Bool)
  | integer (n : Int)
  | float (x : Binary64)
  | text
deriving DecidableEq, Repr

/-- The value of a digit in bases up to sixteen. -/
def digitIn? (base : Nat) (c : Char) : Option Nat :=
  let value? :=
    if c.isDigit then some (c.toNat - '0'.toNat)
    else if 'a' ≤ c ∧ c ≤ 'f' then some (c.toNat - 'a'.toNat + 10)
    else if 'A' ≤ c ∧ c ≤ 'F' then some (c.toNat - 'A'.toNat + 10)
    else none
  value?.filter (· < base)

/-- The number that digits of a base spell after those read so far. -/
def digitsIn? (base sofar : Nat) : List Char → Option Nat
  | [] => some sofar
  | c :: rest =>
    match digitIn? base c with
    | some digit => digitsIn? base (sofar * base + digit) rest
    | none => none

/-- The number that at least one digit of a base spells. -/
def numeralIn? (base : Nat) (digits : List Char) : Option Nat :=
  if digits.isEmpty then none else digitsIn? base 0 digits

/-- Whether digits are a numeral of more than one digit that starts with zero. -/
def hasLeadingZero (digits : List Char) : Bool :=
  match digits with
  | '0' :: rest => !rest.isEmpty && rest.all Char.isDigit
  | _ => false

/-- An unsigned integer: hexadecimal, octal or binary after its mark, or decimal
without leading zeros. -/
def unsigned? (chars : List Char) : Option Nat :=
  let marked? :=
    match chars with
    | '0' :: 'x' :: digits => numeralIn? 16 digits
    | '0' :: 'o' :: digits => numeralIn? 8 digits
    | '0' :: 'b' :: digits => numeralIn? 2 digits
    | _ => none
  marked?.or (if hasLeadingZero chars then none else numeralIn? 10 chars)

/-- An integer with an optional sign, of at most 128 bits. -/
def integer? (chars : List Char) : Option Int :=
  match chars with
  | '-' :: digits =>
    (unsigned? digits).bind fun n => if n ≤ 1 <<< 127 then some (-(n : Int)) else none
  | '+' :: digits => (unsigned? digits).bind fun n => if n < 1 <<< 128 then some (n : Int) else none
  | digits => (unsigned? digits).bind fun n => if n < 1 <<< 128 then some (n : Int) else none

/-- A finite float with an optional sign, or one of the names of infinity and
not-a-number. -/
def float? (text : String) : Option Binary64 :=
  let infinities := [".inf", ".Inf", ".INF"]
  let (signed, unsigned) :=
    match text.toList with
    | '+' :: rest => (true, rest)
    | chars => (false, chars)
  if infinities.contains (String.ofList unsigned) then some (.infinity false)
  else if infinities.any (fun name => "-" ++ name == text) then some (.infinity true)
  else if [".nan", ".NaN", ".NAN"].contains text then some .nan
  else if signed && (unsigned.head? == some '+' || unsigned.head? == some '-') then none
  else
    match Decimal.readFloat unsigned with
    | .ok x => if x.isFinite then some x else none
    | .error _ => none

/-- Whether a text is a numeral with leading zeros, after an optional sign. -/
def isPaddedNumeral (text : String) : Bool :=
  hasLeadingZero (Decimal.readSign text.toList).2

/-- Whether a text is one of the names of null. -/
def isNullName (text : String) : Bool := ["null", "Null", "NULL", "~"].contains text

/-- The truth value of a name. -/
def boolean? (text : String) : Option Bool :=
  if ["true", "True", "TRUE"].contains text then some true
  else if ["false", "False", "FALSE"].contains text then some false
  else none

/-- What an unquoted scalar means. -/
def Scalar.read (text : String) : Scalar :=
  if text.isEmpty || isNullName text then .null
  else
    match boolean? text with
    | some b => .boolean b
    | none =>
      match integer? text.toList with
      | some n => .integer n
      | none =>
        if isPaddedNumeral text then .text
        else
          match float? text with
          | some x => .float x
          | none => .text

end Dataflow.Yaml
