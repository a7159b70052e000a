/-
# Failures of computations

Why the body of a component or an operator gave no value. A failure may carry
context: further messages that were put in front of it on its way out. Its
`headline` is the outermost message, its `message` all of them.
-/

import Dataflow.Decimal.Reader
import Dataflow.Text.Quoted
import Dataflow.Value.Text

namespace Dataflow

/-- What a computation wanted of an operand or an argument. -/
inductive Wanted where
  | string
  /-- An integer or a boolean. -/
  | integer
  /-- An integer that counts repetitions. -/
  | count
  | number
  | boolean
  | record
deriving DecidableEq, Repr

/-- A wish with its article. -/
def Wanted.phrase : Wanted → String
  | .string => "a string"
  | .integer => "an integer"
  | .count => "an integer count"
  | .number => "a number"
  | .boolean => "a boolean"
  | .record => "a record"

/-- The integer operators that can leave the range of 64 bits. -/
inductive IntegerOperation where
  | add
  | subtract
  | multiply
  | floorDivide
deriving DecidableEq, Repr

def IntegerOperation.symbol : IntegerOperation → String
  | .add => "+"
  | .subtract => "-"
  | .multiply => "*"
  | .floorDivide => "//"

/-- Why a computation gave no value. -/
inductive Failure where
  /-- A failure in the author's own words. -/
  | stated (message : String)
  | context (message : String) (cause : Failure)
  | noBody
  | missingArgument (name : String)
  | argumentKind (name : String) (found : ValueKind) (wanted : Wanted)
  | missingOperand (position : Nat)
  | operandKind (wanted : Wanted) (found : ValueKind)
  | integerOverflow (operation : IntegerOperation) (left right : Int64)
  | divisionByZero
  | repeatTooLong (bytes : Nat) (count : Int64)
  | notAnInteger (text : String) (fault : Decimal.IntegerFault)
  | notAFloat (text : String) (fault : Decimal.FloatFault)
  | noIntegerPart (x : Binary64)
deriving DecidableEq

namespace Failure

/-- The outermost message. Where a record is expected, what was found instead is left
out. -/
def headline : Failure → String
  | .stated message => message
  | .context message _ => message
  | .noBody => "component has no in-process body"
  | .missingArgument name => s!"missing argument '{name}'"
  | .argumentKind name found wanted =>
    s!"argument '{name}' is {found.name}, not {wanted.phrase}"
  | .missingOperand position => s!"missing operand {numeral position}"
  | .operandKind .record _ => "expected a record"
  | .operandKind wanted found => s!"expected {wanted.phrase}, found {found.name}"
  | .integerOverflow operation left right =>
    s!"integer overflow in {integerText left} {operation.symbol} {integerText right}"
  | .divisionByZero => "division by zero"
  | .repeatTooLong bytes count =>
    s!"repeating {numeral bytes} bytes {integerText count} times overflows"
  | .notAnInteger text fault =>
    s!"cannot convert {Text.quoted text} to an integer: {fault.message}"
  | .notAFloat text fault =>
    s!"cannot convert {Text.quoted text} to a float: {fault.message}"
  | .noIntegerPart x => s!"cannot convert {plainLayout.text x} to an integer"

/-- All messages, the outermost first. -/
def message : Failure → String
  | .context message cause => message ++ ": " ++ cause.message
  | failure => failure.headline

end Failure

/-- The result of a computation that may fail. -/
abbrev Outcome (α : Type) := Except Failure α

end Dataflow
