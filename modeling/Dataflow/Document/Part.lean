/-
# Parts of documents

What a document is made of while it is read. The parts of a JSON text are decided:
what looks like a number is one. The scalars of a YAML text keep how they are written
until a reader says what it wants, and so do lists and members, whose keys are parts
themselves; a name for a node may be referred to elsewhere. Members that have been
decided without a reader stand under names or, if their key is a natural number,
under the place of a field.

A part that cannot be read does no harm where no reader looks at it.
-/

import Dataflow.Json
import Dataflow.Yaml.Written

namespace Dataflow.Document

/-- What decided members stand under. -/
inductive Key where
  | name (s : String)
  /-- The place of a field among the fields of a structure. -/
  | place (n : Nat)
  /-- Something else, under which nothing is looked for. -/
  | other
deriving DecidableEq, Repr, Inhabited

/-- A part of a document, in JSON or, with its scalars as they are written, in YAML. -/
inductive Part where
  | null
  | boolean (b : Bool)
  | integer (n : Int)
  | float (x : Binary64)
  | text (s : String)
  | scalar (written : Yaml.Written)
  /-- A list, or the fields of a structure in their order. -/
  | array (items : List Part)
  /-- A YAML list, which is never the fields of a structure. -/
  | list (tag : Yaml.Tag) (items : List Part)
  | object (members : Named Part)
  | mapping (tag : Yaml.Tag) (entries : List (Part × Part))
  /-- Members that have been decided without a reader. -/
  | decided (members : List (Key × Part))
  /-- What stands elsewhere in the document. -/
  | reference (place : Nat)
  | unreadable
deriving Inhabited

namespace Part

mutual

/-- The part that a JSON tree is. -/
def ofJson : Json → Part
  | .null => .null
  | .boolean b => .boolean b
  | .integer n => .integer n
  | .float x => .float x
  | .string s => .text s
  | .array items => .array (itemsOfJson items)
  | .object ⟨members⟩ => .object ⟨membersOfJson members⟩

/-- The parts that the items of an array are. -/
def itemsOfJson : List Json → List Part
  | [] => []
  | item :: rest => ofJson item :: itemsOfJson rest

/-- The parts that the members of an object are. -/
def membersOfJson : List (String × Json) → List (String × Part)
  | [] => []
  | (name, member) :: rest => (name, ofJson member) :: membersOfJson rest

end

mutual

/-- The JSON tree that a part is, if its lists and members nest at most to a depth. -/
def json? (depth : Nat) : Part → Option Json
  | .null => some .null
  | .boolean b => some (.boolean b)
  | .integer n => some (.integer n)
  | .float x => some (.float x)
  | .text s => some (.string s)
  | .array items =>
    if depth = 0 then none else (itemsJson? (depth - 1) items).map .array
  | .object ⟨members⟩ =>
    if depth = 0 then none
    else (membersJson? (depth - 1) members).map fun members => .object ⟨members⟩
  | _ => none

def itemsJson? (depth : Nat) : List Part → Option (List Json)
  | [] => some []
  | item :: rest =>
    match json? depth item with
    | some json => (itemsJson? depth rest).map (json :: ·)
    | none => none

def membersJson? (depth : Nat) : List (String × Part) → Option (List (String × Json))
  | [] => some []
  | (name, member) :: rest =>
    match json? depth member with
    | some json => (membersJson? depth rest).map ((name, json) :: ·)
    | none => none

end

mutual

/-- How deep lists and members nest. -/
def depth : Part → Nat
  | .array items => depthOfItems items + 1
  | .list _ items => depthOfItems items + 1
  | .object ⟨members⟩ => depthOfMembers members + 1
  | .mapping _ entries => depthOfEntries entries + 1
  | .decided members => depthOfDecided members + 1
  | _ => 0

def depthOfItems : List Part → Nat
  | [] => 0
  | item :: rest => max (depth item) (depthOfItems rest)

def depthOfMembers : List (String × Part) → Nat
  | [] => 0
  | (_, member) :: rest => max (depth member) (depthOfMembers rest)

def depthOfEntries : List (Part × Part) → Nat
  | [] => 0
  | (key, member) :: rest => max (max (depth key) (depth member)) (depthOfEntries rest)

def depthOfDecided : List (Key × Part) → Nat
  | [] => 0
  | (_, member) :: rest => max (depth member) (depthOfDecided rest)

end

mutual

/-- How many marks a part has in a text: one for a scalar or a reference, and one at
each end of a list or of members. -/
def marks : Part → Nat
  | .array items => marksOfItems items + 2
  | .list _ items => marksOfItems items + 2
  | .object ⟨members⟩ => marksOfMembers members + 2
  | .mapping _ entries => marksOfEntries entries + 2
  | .decided members => marksOfDecided members + 2
  | _ => 1

def marksOfItems : List Part → Nat
  | [] => 0
  | item :: rest => marks item + marksOfItems rest

def marksOfMembers : List (String × Part) → Nat
  | [] => 0
  | (_, member) :: rest => marks member + 1 + marksOfMembers rest

def marksOfEntries : List (Part × Part) → Nat
  | [] => 0
  | (key, member) :: rest => marks key + marks member + marksOfEntries rest

def marksOfDecided : List (Key × Part) → Nat
  | [] => 0
  | (_, member) :: rest => marks member + 1 + marksOfDecided rest

end

/-- The part that a scalar is, with its text where that is what it means. -/
def ofScalar (text : String) : Yaml.Scalar → Part
  | .null => .null
  | .boolean b => .boolean b
  | .integer n => .integer n
  | .float x => .float x
  | .text => .text text

end Part

end Dataflow.Document
