/-
# Declared types

Components declare the types of their parameters and results: one of the scalar
kinds, or a record schema, a named list of fields in a fixed order.

`ValueType.accepts` says when something of one type may be supplied where
another is declared: scalars follow the kinds, records match by position, and
field names must agree unless the supplied record is positional.
-/

import Dataflow.Value

namespace Dataflow

mutual

/-- A declared type. -/
inductive ValueType where
  | string
  | integer
  | float
  | boolean
  | record (schema : RecordSchema)

/-- The fields of a record type, in order, under a name of the whole. -/
structure RecordSchema where
  name : String
  /-- Names and types of the fields, in order. -/
  fields : List (String × ValueType)

end

instance : Inhabited ValueType := ⟨.string⟩

namespace ValueType

/-- The kind of values that a type describes. -/
def kind : ValueType → ValueKind
  | .string => .string
  | .integer => .integer
  | .float => .float
  | .boolean => .boolean
  | .record _ => .record

/-- The schema of a record type. -/
def asRecord? : ValueType → Option RecordSchema
  | .record schema => some schema
  | _ => none

/-- Whether a type is not a record type. -/
def isScalar (type : ValueType) : Bool := type.kind != .record

mutual

def decEq : (a b : ValueType) → Decidable (a = b)
  | .string, .string | .integer, .integer | .float, .float | .boolean, .boolean => isTrue rfl
  | .record ⟨m, a⟩, .record ⟨n, b⟩ =>
    if hname : m = n then
      match decEqFields a b with
      | isTrue h => isTrue (by rw [hname, h])
      | isFalse h => isFalse fun heq => h (by simp at heq; exact heq.2)
    else isFalse fun heq => hname (by simp at heq; exact heq.1)
  | .string, .integer | .string, .float | .string, .boolean | .string, .record _
  | .integer, .string | .integer, .float | .integer, .boolean | .integer, .record _
  | .float, .string | .float, .integer | .float, .boolean | .float, .record _
  | .boolean, .string | .boolean, .integer | .boolean, .float | .boolean, .record _
  | .record _, .string | .record _, .integer | .record _, .float | .record _, .boolean =>
    isFalse fun heq => by injection heq

def decEqFields : (a b : List (String × ValueType)) → Decidable (a = b)
  | [], [] => isTrue rfl
  | [], _ :: _ => isFalse fun heq => by injection heq
  | _ :: _, [] => isFalse fun heq => by injection heq
  | (m, s) :: a, (n, t) :: b =>
    if hname : m = n then
      match decEq s t, decEqFields a b with
      | isTrue hs, isTrue ha => isTrue (by rw [hname, hs, ha])
      | isFalse hs, _ => isFalse fun heq => hs (by simp at heq; exact heq.1.2)
      | _, isFalse ha => isFalse fun heq => ha (by injection heq)
    else isFalse fun heq => hname (by simp at heq; exact heq.1.1)

end

instance : DecidableEq ValueType := decEq

end ValueType

instance : DecidableEq RecordSchema := fun a b =>
  if hname : a.name = b.name then
    if hfields : a.fields = b.fields then
      isTrue (by cases a; cases b; simp_all)
    else isFalse fun heq => hfields (by rw [heq])
  else isFalse fun heq => hname (by rw [heq])

namespace RecordSchema

/-- The names of the fields, in order. -/
def fieldNames (schema : RecordSchema) : List String :=
  schema.fields.map Prod.fst

def size (schema : RecordSchema) : Nat :=
  schema.fields.length

/-- The type of the first field with a name. -/
def fieldType? (schema : RecordSchema) (name : String) : Option ValueType :=
  Named.find name schema.fields

/-- Name and type of the field at a position. -/
def fieldAt? (schema : RecordSchema) (position : Nat) : Option (String × ValueType) :=
  schema.fields[position]?

/-- Whether the fields are named `0`, `1`, ... in order. -/
def isPositional (schema : RecordSchema) : Bool :=
  Named.areNumerals 0 schema.fieldNames

/-- The schema of a record whose type was inferred rather than declared. -/
def inferred (fields : List (String × ValueType)) : RecordSchema :=
  ⟨"record", fields⟩

end RecordSchema

namespace ValueType

mutual

/-- Whether something of type `found` may be supplied where `declared` stands. -/
def accepts : (declared found : ValueType) → Bool
  | .record ⟨_, declared⟩, .record ⟨_, found⟩ =>
    acceptsFields (Named.areNumerals 0 (found.map Prod.fst)) declared found
  | .record _, _ => false
  | _, .record _ => false
  | declared, found => found.kind.isSubkindOf declared.kind

/-- Whether two lists of fields have one length and match at each position: by
type, and by name unless the supplied fields are positional. -/
def acceptsFields (positional : Bool) :
    (declared found : List (String × ValueType)) → Bool
  | [], [] => true
  | (name, type) :: declared, (other, given) :: found =>
    (positional || name == other) && accepts type given && acceptsFields positional declared found
  | _, _ => false

end

mutual

/-- The text of a type: the name of a scalar, or a schema with its fields. -/
def text : ValueType → String
  | .record ⟨name, fields⟩ => name ++ "(" ++ String.intercalate ", " (fieldTexts fields) ++ ")"
  | scalar => scalar.kind.name

/-- The texts of fields, each a name and a type. -/
def fieldTexts : List (String × ValueType) → List String
  | [] => []
  | (name, type) :: rest => (name ++ ": " ++ text type) :: fieldTexts rest

end

end ValueType

namespace Value

mutual

/-- The type of a value. Records get an inferred schema. -/
def type : Value → ValueType
  | .boolean _ => .boolean
  | .integer _ => .integer
  | .float _ => .float
  | .string _ => .string
  | .record ⟨entries⟩ => .record (.inferred (fieldTypes entries))

def fieldTypes : List (String × Value) → List (String × ValueType)
  | [] => []
  | (name, v) :: rest => (name, type v) :: fieldTypes rest

end

end Value

end Dataflow
