/-
# Values of expressions

An expression is resolved against the values of the nodes that have run. A node,
a field or an element that is not there is an error that names it.
-/

import Dataflow.Error
import Dataflow.Expr
import Dataflow.Inputs

namespace Dataflow

/-- The values of nodes, by name. -/
abbrev ValueTable := Named Value

namespace ValueTable

/-- The value of a node. -/
def lookup (table : ValueTable) (name : String) : Except GraphError Value :=
  match table.get? name with
  | some v => .ok v
  | none => .error (.nameNotProduced name)

end ValueTable

namespace Expr

/-- A field of a record value; `path` is what is reported if it is missing. -/
def fieldOf (path name : String) : Value → Except GraphError Value
  | .record fields =>
    match fields.get? name with
    | some v => .ok v
    | none => .error (.nameNotProduced path)
  | _ => .error (.nameNotProduced path)

/-- The element at a position of a record value; `path` is what is reported if it
is missing. -/
def elementOf (path : String) (position : Nat) : Value → Except GraphError Value
  | .record fields =>
    match fields.entryAt? position with
    | some (_, v) => .ok v
    | none => .error (.nameNotProduced path)
  | _ => .error (.nameNotProduced path)

mutual

/-- The value of an expression. -/
def resolve (table : ValueTable) : Expr → Except GraphError Value
  | .literal v => .ok v
  | .node ref => table.lookup ref.name
  | .field parent name =>
    match resolve table parent with
    | .error fault => .error fault
    | .ok v => fieldOf (text (.field parent name)) name v
  | .index parent position =>
    match resolve table parent with
    | .error fault => .error fault
    | .ok v => elementOf (text (.index parent position)) position v
  | .record ⟨fields⟩ =>
    match resolveFields table fields with
    | .error fault => .error fault
    | .ok values => .ok (.record (.ofList values))

/-- The values of expressions under names, in order. -/
def resolveFields (table : ValueTable) :
    List (String × Expr) → Except GraphError (List (String × Value))
  | [] => .ok []
  | (name, e) :: rest =>
    match resolve table e with
    | .error fault => .error fault
    | .ok v => (resolveFields table rest).map ((name, v) :: ·)

end

/-- The values of named expressions. -/
def resolveAll (table : ValueTable) (exprs : Named Expr) : Except GraphError Inputs :=
  (resolveFields table exprs.entries).map .ofList

end Expr

end Dataflow
