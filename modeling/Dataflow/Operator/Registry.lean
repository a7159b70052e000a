/-
# Overloads and their selection

Each operator owns a list of overloads in the order of their registration. The
first one whose parameter kinds accept the kinds of the operands is selected, so
a later registration never changes an earlier choice.
-/

import Dataflow.Error
import Dataflow.Operator

namespace Dataflow

/-- What an overload computes from its operands. -/
abbrev Implementation := List Value → Outcome Value

/-- One implementation of an operator. -/
structure Overload where
  /-- The kinds of the operands. -/
  parameters : List ValueKind
  returns : ValueType
  implementation : Implementation

/-- Whether there are as many kinds as parameters and each may stand where the
parameter is declared. -/
def kindsAccepted : (parameters kinds : List ValueKind) → Bool
  | [], [] => true
  | declared :: parameters, found :: kinds =>
    found.isSubkindOf declared && kindsAccepted parameters kinds
  | _, _ => false

namespace Overload

/-- The number of operands. -/
def arity (overload : Overload) : Nat := overload.parameters.length

/-- Whether operands of these kinds may be given to the overload. -/
def acceptsKinds (overload : Overload) (kinds : List ValueKind) : Bool :=
  kindsAccepted overload.parameters kinds

/-- The parameters as they are shown. -/
def signature (overload : Overload) : String := kindsText overload.parameters

end Overload

/-- The overloads of all operators, each operator's in registration order. -/
structure Registry where
  overloads : Operator → List Overload

namespace Registry

/-- The registry without overloads. -/
def empty : Registry := ⟨fun _ => []⟩

/-- Add an overload of an operator after all earlier ones. -/
def register (registry : Registry) (operator : Operator) (overload : Overload) : Registry :=
  ⟨fun other =>
    if other = operator then registry.overloads other ++ [overload]
    else registry.overloads other⟩

/-- Add overloads of an operator one after another. -/
def registerAll (registry : Registry) (operator : Operator) (overloads : List Overload) :
    Registry :=
  overloads.foldl (fun built overload => built.register operator overload) registry

/-- Whether an operator has any overload. -/
def contains (registry : Registry) (operator : Operator) : Bool :=
  !(registry.overloads operator).isEmpty

/-- The first overload of an operator that accepts the kinds. -/
def find? (registry : Registry) (operator : Operator) (kinds : List ValueKind) :
    Option Overload :=
  (registry.overloads operator).find? fun overload => overload.acceptsKinds kinds

/-- The first overload of an operator that accepts operands of the types. -/
def select (registry : Registry) (operator : Operator) (types : List ValueType) :
    Except GraphError Overload :=
  let kinds := types.map ValueType.kind
  match registry.find? operator kinds with
  | some overload => .ok overload
  | none =>
    .error (.noOverload operator.name kinds
      ((registry.overloads operator).map Overload.parameters))

end Registry

end Dataflow
