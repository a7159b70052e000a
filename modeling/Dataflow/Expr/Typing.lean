/-
# Types of expressions

The type that an expression will have once the nodes it reads have run. Fields
and elements are taken of record types only, and composite records hold scalars.
-/

import Dataflow.Error
import Dataflow.Expr

namespace Dataflow.Expr

/-- The schema of a record type, which the type of `parent` must be. -/
def schemaOf (parent : Expr) (type : ValueType) : Except Violation RecordSchema :=
  match type with
  | .record schema => .ok schema
  | scalar => .error (.fieldOfScalar parent.text scalar)

mutual

/-- The type of an expression. -/
def infer : Expr → Except Violation ValueType
  | .literal v => .ok v.type
  | .node ref =>
    match ref.type with
    | some type => .ok type
    | none => .error (.noReturnValue ref.name)
  | .field parent name =>
    match infer parent with
    | .error violation => .error violation
    | .ok type =>
      match schemaOf parent type with
      | .error violation => .error violation
      | .ok schema =>
        match schema.fieldType? name with
        | some found => .ok found
        | none => .error (.unknownField parent.text type name)
  | .index parent position =>
    match infer parent with
    | .error violation => .error violation
    | .ok type =>
      match schemaOf parent type with
      | .error violation => .error violation
      | .ok schema =>
        match schema.fieldAt? position with
        | some (_, found) => .ok found
        | none => .error (.positionOutOfRange position parent.text type)
  | .record ⟨fields⟩ =>
    match inferFields fields with
    | .error violation => .error violation
    | .ok types => .ok (.record (.inferred types))

/-- The types of the fields of a composite record, all of them scalars. -/
def inferFields : List (String × Expr) → Except Violation (List (String × ValueType))
  | [] => .ok []
  | (name, e) :: rest =>
    match infer e with
    | .error violation => .error violation
    | .ok type =>
      if type.isScalar then (inferFields rest).map ((name, type) :: ·)
      else .error (.compositeField name type)

end

/-- The type of an expression, its violations being errors of the graph. -/
def typeOf (e : Expr) : Except GraphError ValueType :=
  e.infer.mapError .contract

end Dataflow.Expr
