/-
# JSON trees

JSON values with the members of objects in order. An integer stands apart from a
number with a point or an exponent; the reader produces integers from -2^63 to
2^64 - 1, and the writer writes any.
-/

import Dataflow.Named
import Dataflow.Binary64

namespace Dataflow

/-- A JSON value. -/
inductive Json where
  | null
  | boolean (b : Bool)
  | integer (n : Int)
  /-- A number with a point or an exponent, or one out of integer range. -/
  | float (x : Binary64)
  | string (s : String)
  | array (items : List Json)
  | object (members : Named Json)
deriving Inhabited

namespace Json

/-- The object with these members, inserted one after another. -/
def ofMembers (members : List (String × Json)) : Json :=
  .object (.ofList members)

/-- The member of an object under a name. -/
def member? (json : Json) (name : String) : Option Json :=
  match json with
  | .object members => members.get? name
  | _ => none

end Json

end Dataflow
