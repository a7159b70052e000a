/-
# Operators

The operators that can be applied to the results of nodes. Applying one computes
nothing while a pipeline is traced: it adds a component that does so when the
pipeline runs.
-/

import Dataflow.Named

namespace Dataflow

/-- An operator on values. Texts are joined by `add` and repeated by `multiply`; `length` counts the
characters of a text or the fields of a record. -/
inductive Operator where
  | add
  | subtract
  | multiply
  | divide
  | floorDivide
  | equal
  | notEqual
  | contains
  | length
  | toString
  | toInteger
  | toFloat
deriving DecidableEq, Repr, Inhabited

namespace Operator

def all : List Operator :=
  [.add, .subtract, .multiply, .divide, .floorDivide, .equal, .notEqual, .contains,
    .length, .toString, .toInteger, .toFloat]

/-- The name of an operator, on which the names of its nodes are based. -/
def name : Operator → String
  | .add => "add"
  | .subtract => "subtract"
  | .multiply => "multiply"
  | .divide => "divide"
  | .floorDivide => "floor_divide"
  | .equal => "equal"
  | .notEqual => "not_equal"
  | .contains => "contains"
  | .length => "length"
  | .toString => "to_string"
  | .toInteger => "to_int"
  | .toFloat => "to_float"

def ofName? (name : String) : Option Operator :=
  all.find? fun operator => operator.name = name

/-- The name of the operand at a position. -/
def operandName : Nat → String
  | 0 => "a"
  | 1 => "b"
  | 2 => "c"
  | 3 => "d"
  | position => "arg" ++ numeral position

/-- The names of the operands of an operator node, in order. -/
def operandNames (arity : Nat) : List String :=
  (List.range arity).map operandName

end Operator

end Dataflow
