/-
# Resolved arguments

The values that the body of a component gets, by parameter name, with readers
that say which argument is missing or of the wrong kind.
-/

import Dataflow.Failure
import Dataflow.Value.Compare

namespace Dataflow

/-- The resolved arguments of a component, in parameter order. -/
abbrev Inputs := Named Value

namespace Inputs

/-- The argument of a name. -/
def require (inputs : Inputs) (name : String) : Outcome Value :=
  match inputs.get? name with
  | some v => .ok v
  | none => .error (.missingArgument name)

/-- The argument of a name, seen in the way that is wanted. -/
def view {α : Type} (inputs : Inputs) (name : String) (wanted : Wanted)
    (seen : Value → Option α) : Outcome α :=
  match inputs.require name with
  | .error failure => .error failure
  | .ok v =>
    match seen v with
    | some a => .ok a
    | none => .error (.argumentKind name v.kind wanted)

/-- The argument of a name as a text. -/
def string (inputs : Inputs) (name : String) : Outcome String :=
  inputs.view name .string Value.asString?

/-- The argument of a name as an integer. -/
def integer (inputs : Inputs) (name : String) : Outcome Int64 :=
  inputs.view name .integer Value.asInteger?

/-- The argument of a name as a binary64 number. -/
def float (inputs : Inputs) (name : String) : Outcome Binary64 :=
  inputs.view name .number Value.asFloat?

/-- The argument of a name as a truth value. -/
def boolean (inputs : Inputs) (name : String) : Outcome Bool :=
  inputs.view name .boolean Value.asBoolean?

/-- The argument of a name as a record. -/
def record (inputs : Inputs) (name : String) : Outcome Record :=
  inputs.view name .record Value.asRecord?

end Inputs

end Dataflow
