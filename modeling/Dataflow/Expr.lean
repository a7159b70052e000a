/-
# Expressions

While a pipeline is traced, the results of its nodes do not exist yet. An
expression stands for them: a literal, the result of a node, a field or an
element of another expression, or a record composed of expressions.

An expression knows a node by its name and by the type of its result; the name is
what it reads from a value table.
-/

import Dataflow.Text.Quoted
import Dataflow.Value.Text
import Dataflow.ValueType

namespace Dataflow

/-- A node as expressions see it. -/
structure NodeRef where
  name : String
  /-- The type of its result; a pipeline may have none. -/
  type : Option ValueType
deriving DecidableEq

/-- An input or a return value in a traced pipeline. -/
inductive Expr where
  | literal (v : Value)
  | node (ref : NodeRef)
  | field (parent : Expr) (name : String)
  | index (parent : Expr) (position : Nat)
  | record (fields : Named Expr)
deriving Inhabited

namespace Expr

/-- The composite record of these fields, inserted one after another. -/
def ofFields (fields : List (String × Expr)) : Expr := .record (.ofList fields)

/-- The composite record whose fields are named `0`, `1`, ... -/
def tuple (items : List Expr) : Expr := .record (.positional items)

mutual

/-- Whether the expression reads a node. -/
def isDeferred : Expr → Bool
  | .literal _ => false
  | .node _ => true
  | .field parent _ => isDeferred parent
  | .index parent _ => isDeferred parent
  | .record ⟨fields⟩ => anyDeferred fields

/-- Whether one of the expressions under names reads a node. -/
def anyDeferred : List (String × Expr) → Bool
  | [] => false
  | (_, e) :: rest => isDeferred e || anyDeferred rest

end

mutual

/-- The nodes that the expression reads, in order of occurrence. -/
def references : Expr → List NodeRef
  | .literal _ => []
  | .node ref => [ref]
  | .field parent _ => references parent
  | .index parent _ => references parent
  | .record ⟨fields⟩ => fieldReferences fields

/-- The nodes that expressions under names read, in order of occurrence. -/
def fieldReferences : List (String × Expr) → List NodeRef
  | [] => []
  | (_, e) :: rest => references e ++ fieldReferences rest

end

/-- Names in order of first occurrence, each once. -/
def firstOccurrences : List String → List String
  | [] => []
  | name :: rest => name :: (firstOccurrences rest).filter (· != name)

/-- The names of the nodes that the expression reads, in order of first
occurrence. -/
def referencedNames (e : Expr) : List String :=
  firstOccurrences (e.references.map NodeRef.name)

mutual

/-- The text of an expression: quoted texts, node names, and paths to fields and
elements. -/
def text : Expr → String
  | .literal (.string s) => Text.quoted s
  | .literal v => v.text
  | .node ref => ref.name
  | .field parent name => text parent ++ "." ++ name
  | .index parent position => text parent ++ "[" ++ numeral position ++ "]"
  | .record ⟨fields⟩ => "(" ++ String.intercalate ", " (fieldTexts fields) ++ ")"

def fieldTexts : List (String × Expr) → List String
  | [] => []
  | (name, e) :: rest => (name ++ ": " ++ text e) :: fieldTexts rest

end

end Expr

end Dataflow
