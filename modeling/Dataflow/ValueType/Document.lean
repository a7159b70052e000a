/-
# Types and values as documents

A scalar type is written by its name; a record type is a variant with the name of
its schema and its fields. A value is written as it is, every record as named
members, and is read by what is found: numbers with a point are floats, and so are
integers that do not fit 64 bits with a sign.
-/

import Dataflow.Data
import Dataflow.Document.Fields
import Dataflow.Value.Json
import Dataflow.ValueType

namespace Dataflow

open Document

namespace ValueType

mutual

def toData : ValueType → Data
  | .record ⟨name, fields⟩ =>
    .variant "record"
      (.ofMembers [("name", .string name), ("fields", .array (fieldsToData fields))])
  | scalar => .string scalar.kind.name

/-- Fields as data, each with name and type. -/
def fieldsToData : List (String × ValueType) → List Data
  | [] => []
  | (name, type) :: rest =>
    .ofMembers [("name", .string name), ("type", toData type)] :: fieldsToData rest

end

/-- The scalar type of a name. -/
def scalarOfName? (name : String) : Option ValueType :=
  [ValueType.string, .integer, .float, .boolean].find? fun type => type.kind.name = name

/-- The name of the alternative that is a record type. -/
def recordName : String := "record"

/-- The names of all types in the order of the alternatives. -/
def alternatives : List String :=
  [ValueType.string, .integer, .float, .boolean].map (fun type => type.kind.name) ++ [recordName]

/-- The name and the type of a field that a part of a document describes. -/
def readField (reader : Part → Reading ValueType) (given : Part) :
    Reading (String × ValueType) :=
  given.withFields ["name", "type"] fun fields => do
    let name ← fields.required Part.asText 0
    let type ← fields.required reader 1
    return (name, type)

/-- The type that a part of a document describes, its schemas nesting less than that
deep. The fields of a schema are not checked. -/
def readWithin : Nat → Part → Reading ValueType
  | 0, _ => failure
  | fuel + 1, given =>
    given.withAlternative alternatives fun name content => do
      if name = recordName then
        (← content).withFields ["name", "fields"] fun fields => do
          let schemaName ← fields.required Part.asText 0
          let schemaFields ← fields.required (Part.asList (readField (readWithin fuel))) 1
          return .record ⟨schemaName, schemaFields⟩
      else if content.all Part.isNothing then scalarOfName? name
      else failure

/-- The type that a part of a document describes. -/
def read (given : Part) : Reading ValueType := do
  readWithin ((← Reading.depthLeft) + 1) given

end ValueType

namespace Value

mutual

def toData : Value → Data
  | .boolean b => .boolean b
  | .integer i => .integer i.toInt
  | .float x => .float x
  | .string s => .string s
  | .record ⟨entries⟩ => .object ⟨fieldsToData entries⟩

def fieldsToData : List (String × Value) → List (String × Data)
  | [] => []
  | (name, v) :: rest => (name, toData v) :: fieldsToData rest

end

mutual

/-- The value that a decided part is. Lists and null are no values, and names stand
before all that a record holds. -/
def ofDecided? : Part → Option Value
  | .boolean b => some (.boolean b)
  | .integer n => some (ofInteger n)
  | .float x => some (.float x)
  | .text s => some (.string s)
  | .decided members => (fieldsOfDecided? members).map fun fields => .record (.ofList fields)
  | _ => none

def fieldsOfDecided? : List (Key × Part) → Option (List (String × Value))
  | [] => some []
  | (key, member) :: rest =>
    match key, ofDecided? member with
    | .name name, some v => (fieldsOfDecided? rest).map ((name, v) :: ·)
    | _, _ => none

end

/-- The value that a part of a document is. -/
def read (given : Part) : Reading Value := do ofDecided? (← given.settled)

end Value

end Dataflow
