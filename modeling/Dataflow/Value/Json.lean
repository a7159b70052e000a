/-
# Values as JSON

Two JSON forms of a value. The interchange form, `Value.toJson`, writes a
positional record as an array; the plain form, `Value.toPlainJson`, writes every
record as an object. `Value.ofJson` reads both. Numbers that JSON cannot hold
become `null` in either form, and `null` is no value.
-/

import Dataflow.Error
import Dataflow.Json
import Dataflow.Value.Compare

namespace Dataflow.Value

/-- A number as JSON, if JSON can hold it. -/
def floatToJson (x : Binary64) : Json :=
  if x.isFinite then .float x else .null

mutual

/-- The interchange form: positional records are arrays. -/
def toJson : Value → Json
  | .boolean b => .boolean b
  | .integer i => .integer i.toInt
  | .float x => floatToJson x
  | .string s => .string s
  | .record ⟨entries⟩ =>
    if Named.areNumerals 0 (entries.map Prod.fst) then .array (itemsToJson entries)
    else .object ⟨fieldsToJson entries⟩

def itemsToJson : List (String × Value) → List Json
  | [] => []
  | (_, v) :: rest => toJson v :: itemsToJson rest

def fieldsToJson : List (String × Value) → List (String × Json)
  | [] => []
  | (name, v) :: rest => (name, toJson v) :: fieldsToJson rest

end

mutual

/-- The plain form: all records are objects. -/
def toPlainJson : Value → Json
  | .boolean b => .boolean b
  | .integer i => .integer i.toInt
  | .float x => floatToJson x
  | .string s => .string s
  | .record ⟨entries⟩ => .object ⟨fieldsToPlainJson entries⟩

def fieldsToPlainJson : List (String × Value) → List (String × Json)
  | [] => []
  | (name, v) :: rest => (name, toPlainJson v) :: fieldsToPlainJson rest

end

/-- The value of an integer: of 64 bits if it fits, else the nearest float. -/
def ofInteger (n : Int) : Value :=
  if FitsInt64 n then .integer (Int64.ofInt n) else .float (.ofInt n)

mutual

/-- The value of a JSON tree. Arrays become positional records; `null` is
refused. -/
def ofJson : Json → Except Violation Value
  | .null => .error .nullValue
  | .boolean b => .ok (.boolean b)
  | .integer n => .ok (ofInteger n)
  | .float x => .ok (.float x)
  | .string s => .ok (.string s)
  | .array items => (itemsOfJson items).map tuple
  | .object ⟨members⟩ => (fieldsOfJson members).map fun fields => .record (.ofList fields)

/-- The values of the items of an array, unless one is refused. -/
def itemsOfJson : List Json → Except Violation (List Value)
  | [] => .ok []
  | item :: rest =>
    match ofJson item with
    | .error violation => .error violation
    | .ok v => (itemsOfJson rest).map (v :: ·)

/-- The values of the members of an object, unless one is refused. -/
def fieldsOfJson : List (String × Json) → Except Violation (List (String × Value))
  | [] => .ok []
  | (name, member) :: rest =>
    match ofJson member with
    | .error violation => .error violation
    | .ok v => (fieldsOfJson rest).map ((name, v) :: ·)

end

end Dataflow.Value
