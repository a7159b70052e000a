/-
# Comparing values

Three comparisons. `Value.equals` takes records as finite maps and numbers of
different kinds as different. `Value.looselyEquals` compares numbers by value
across integers, floats and booleans, and records by position. `Value.compare?`
orders texts by their code points and numbers by value, and nothing else.
-/

import Dataflow.Binary64.Rounding
import Dataflow.Value

namespace Dataflow.Value

/-- The float view. Integers and booleans are widened to the nearest number. -/
def asFloat? : Value → Option Binary64
  | .float x => some x
  | .integer i => some (.ofInt i.toInt)
  | .boolean b => some (.ofInt (if b then 1 else 0))
  | _ => none

mutual

/-- Equality of one kind with itself: records are equal when they have the same
names, in any order, over equal values. Not-a-number differs from itself. -/
def equals : Value → Value → Bool
  | .boolean a, .boolean b => a == b
  | .integer a, .integer b => a == b
  | .float a, .float b => a.equals b
  | .string a, .string b => a == b
  | .record ⟨a⟩, .record ⟨b⟩ => a.length == b.length && fieldsWithin b a
  | _, _ => false

/-- Whether every field of a record has an equal field of its name among
`others`. -/
def fieldsWithin (others : List (String × Value)) : List (String × Value) → Bool
  | [] => true
  | (name, v) :: rest =>
    (match Named.find name others with
      | some w => equals v w
      | none => false) && fieldsWithin others rest

end

mutual

/-- Equality with numeric promotion. Integers and booleans compare exactly; as
soon as a float takes part, both sides are widened to floats. Records of one
size compare position by position, whatever their names. -/
def looselyEquals : Value → Value → Bool
  | .string a, .string b => a == b
  | .record ⟨a⟩, .record ⟨b⟩ => itemsLooselyEqual a b
  | v, w =>
    match v.asInteger?, w.asInteger? with
    | some i, some j => i == j
    | _, _ =>
      match v.asFloat?, w.asFloat? with
      | some x, some y => x.equals y
      | _, _ => false

/-- Whether two lists of fields have one length and loosely equal values at each
position. -/
def itemsLooselyEqual : List (String × Value) → List (String × Value) → Bool
  | [], [] => true
  | (_, v) :: a, (_, w) :: b => looselyEquals v w && itemsLooselyEqual a b
  | _, _ => false

end

/-- The order of two texts or of two numbers. -/
def compare? : Value → Value → Option Ordering
  | .string a, .string b => some (compare a b)
  | v, w =>
    match v.asInteger?, w.asInteger? with
    | some i, some j => some (compare i.toInt j.toInt)
    | _, _ =>
      match v.asFloat?, w.asFloat? with
      | some x, some y => x.order? y
      | _, _ => none

end Dataflow.Value
