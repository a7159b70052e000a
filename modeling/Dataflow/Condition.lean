/-
# Guards

A condition compares two expressions, at least one of which reads a node. The
guarded pipeline runs if the comparison holds.
-/

import Dataflow.Expr.Resolve
import Dataflow.Expr.Typing
import Dataflow.Value.Compare

namespace Dataflow

/-- A comparison of two values, by loose equality or by their order. -/
inductive Comparator where
  | equal
  | notEqual
  | less
  | lessOrEqual
  | greater
  | greaterOrEqual
deriving DecidableEq, Repr, Inhabited

namespace Comparator

def all : List Comparator :=
  [.equal, .notEqual, .less, .lessOrEqual, .greater, .greaterOrEqual]

def symbol : Comparator → String
  | .equal => "=="
  | .notEqual => "!="
  | .less => "<"
  | .lessOrEqual => "<="
  | .greater => ">"
  | .greaterOrEqual => ">="

/-- The name of a comparator in documents. -/
def name : Comparator → String
  | .equal => "equal"
  | .notEqual => "not_equal"
  | .less => "less"
  | .lessOrEqual => "less_or_equal"
  | .greater => "greater"
  | .greaterOrEqual => "greater_or_equal"

def ofName? (name : String) : Option Comparator :=
  all.find? fun comparator => comparator.name = name

/-- Whether values of any kinds can be compared. -/
def isEquality : Comparator → Bool
  | .equal | .notEqual => true
  | _ => false

/-- Whether an ordering comparator holds of two values in this order. -/
def admits : Comparator → Ordering → Bool
  | .equal, order => order == .eq
  | .notEqual, order => order != .eq
  | .less, order => order == .lt
  | .lessOrEqual, order => order != .gt
  | .greater, order => order == .gt
  | .greaterOrEqual, order => order != .lt

/-- Compare two values. Ordering comparators need two numbers or two texts. -/
def evaluate (comparator : Comparator) (left right : Value) : Except GraphError Bool :=
  match comparator with
  | .equal => .ok (left.looselyEquals right)
  | .notEqual => .ok (!left.looselyEquals right)
  | ordering =>
    match left.compare? right with
    | some order => .ok (ordering.admits order)
    | none => .error (.contract (.unordered left.kind right.kind ordering.symbol))

end Comparator

/-- Whether values of two kinds have an order. -/
def ValueKind.orderable (left right : ValueKind) : Bool :=
  (left.isNumeric && right.isNumeric) || (left == .string && right == .string)

/-- A comparison of two expressions. -/
structure Condition where
  left : Expr
  right : Expr
  comparator : Comparator

namespace Condition

/-- The condition on two expressions, if one of them reads a node and, for an
ordering comparator, their types have an order. -/
def make (left right : Expr) (comparator : Comparator) : Except GraphError Condition :=
  if !left.isDeferred && !right.isDeferred then
    .error (.contract (.constantGuard left.text comparator.symbol right.text))
  else if comparator.isEquality then .ok ⟨left, right, comparator⟩
  else do
    let leftKind := (← left.typeOf).kind
    let rightKind := (← right.typeOf).kind
    if leftKind.orderable rightKind then return ⟨left, right, comparator⟩
    else throw (.contract (.unorderableGuard comparator.symbol leftKind rightKind))

/-- Resolve both operands and compare them. -/
def evaluate (condition : Condition) (table : ValueTable) : Except GraphError Bool := do
  let left ← condition.left.resolve table
  let right ← condition.right.resolve table
  condition.comparator.evaluate left right

def text (condition : Condition) : String :=
  condition.left.text ++ " " ++ condition.comparator.symbol ++ " " ++ condition.right.text

end Condition

end Dataflow
