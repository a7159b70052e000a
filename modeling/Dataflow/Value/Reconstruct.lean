/-
# Reconstruction of declared values

Backends hand back whatever their transport produces. Reconstruction checks a raw
value against a declared type and gives positional records the declared names.
Integers widen to a declared float, and booleans narrow to a declared integer;
anything else that disagrees with the declaration is refused.
-/

import Dataflow.Error
import Dataflow.Value.Compare

namespace Dataflow

mutual

/-- The value of the declared type that a raw value stands for; `owner` is the
node to blame if there is none. -/
def reconstruct (owner : String) : ValueType → Value → Except GraphError Value
  | .record ⟨name, fields⟩, .record ⟨entries⟩ =>
    if entries.length ≠ fields.length then
      .error (.output owner (.record ⟨name, fields⟩) (.recordOfSize entries.length))
    else
      (reconstructFields owner ⟨name, fields⟩ (Named.areNumerals 0 (entries.map Prod.fst))
        fields entries).map fun rebuilt => .record (.ofList rebuilt)
  | .float, .integer i => .ok (.float (.ofInt i.toInt))
  | .integer, .boolean b => .ok (.integer (Value.countOf b))
  | .string, .string s => .ok (.string s)
  | .integer, .integer i => .ok (.integer i)
  | .float, .float x => .ok (.float x)
  | .boolean, .boolean b => .ok (.boolean b)
  | declared, raw => .error (.output owner declared (.ofKind raw.kind))

/-- Reconstruct fields position by position. Unless the raw record is positional,
each of its names must be the declared one. -/
def reconstructFields (owner : String) (schema : RecordSchema) (positional : Bool) :
    List (String × ValueType) → List (String × Value) →
      Except GraphError (List (String × Value))
  | (field, type) :: fields, (name, raw) :: entries =>
    if !positional && field != name then
      .error (.output owner (.record schema) (.recordWithField name))
    else
      match reconstruct owner type raw with
      | .error fault => .error fault
      | .ok v =>
        (reconstructFields owner schema positional fields entries).map ((field, v) :: ·)
  | _, _ => .ok []

end

end Dataflow
