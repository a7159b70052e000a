/-
# Structured data

What the documents of this library are written as: JSON and YAML hold it in the same
form. A named alternative with content is a variant, which JSON writes as an object
with one member and YAML as a tag.
-/

import Dataflow.Json

namespace Dataflow

/-- Structured data. -/
inductive Data where
  | null
  | boolean (b : Bool)
  | integer (n : Int)
  | float (x : Binary64)
  | string (s : String)
  | variant (name : String) (content : Data)
  | array (items : List Data)
  | object (members : Named Data)
deriving Inhabited

namespace Data

/-- Data with these members. -/
def ofMembers (members : List (String × Data)) : Data := .object ⟨members⟩

/-- A member that is left out when there is nothing to write. -/
def optional {α : Type} (name : String) (write : α → Data) :
    Option α → List (String × Data)
  | some a => [(name, write a)]
  | none => []

/-- A list of texts that is left out when it is empty. -/
def texts (name : String) (items : List String) : List (String × Data) :=
  if items.isEmpty then [] else [(name, .array (items.map .string))]

mutual

def toJson : Data → Json
  | .null => .null
  | .boolean b => .boolean b
  | .integer n => .integer n
  | .float x => if x.isFinite then .float x else .null
  | .string s => .string s
  | .variant name content => .object ⟨[(name, toJson content)]⟩
  | .array items => .array (itemsToJson items)
  | .object ⟨members⟩ => .object ⟨membersToJson members⟩

def itemsToJson : List Data → List Json
  | [] => []
  | item :: rest => toJson item :: itemsToJson rest

def membersToJson : List (String × Data) → List (String × Json)
  | [] => []
  | (name, member) :: rest => (name, toJson member) :: membersToJson rest

end

end Data

end Dataflow
