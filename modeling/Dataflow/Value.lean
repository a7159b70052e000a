/-
# Values

What flows between the components of a pipeline: booleans, 64-bit integers,
binary64 numbers, texts, and records of values under names. A record may hold
records; its names are distinct wherever it was built by insertion, which
`Value.WellFormed` says for every depth.
-/

import Dataflow.Binary64
import Dataflow.Integer64
import Dataflow.Named

namespace Dataflow

/-- A concrete value produced or consumed by a component. -/
inductive Value where
  | boolean (b : Bool)
  | integer (i : Int64)
  | float (x : Binary64)
  | string (s : String)
  | record (fields : Named Value)
deriving Inhabited

/-- The fields of a record value. -/
abbrev Record := Named Value

/-- The closed set of kinds that values fall into. -/
inductive ValueKind where
  | string
  | integer
  | float
  | boolean
  | record
deriving DecidableEq, Repr, Inhabited

namespace ValueKind

def name : ValueKind → String
  | .string => "string"
  | .integer => "integer"
  | .float => "float"
  | .boolean => "boolean"
  | .record => "record"

def all : List ValueKind := [.string, .integer, .float, .boolean, .record]

def ofName? (name : String) : Option ValueKind :=
  all.find? fun kind => kind.name = name

/-- Whether something of the first kind may stand where the second is declared.
Besides equal kinds, a boolean may stand for an integer. -/
def isSubkindOf (found declared : ValueKind) : Bool :=
  found == declared || (found == .boolean && declared == .integer)

/-- Whether values of this kind compare as numbers. -/
def isNumeric : ValueKind → Bool
  | .integer | .float | .boolean => true
  | .string | .record => false

end ValueKind

namespace Value

def kind : Value → ValueKind
  | .boolean _ => .boolean
  | .integer _ => .integer
  | .float _ => .float
  | .string _ => .string
  | .record _ => .record

/-- The text of a text value. -/
def asString? : Value → Option String
  | .string s => some s
  | _ => none

/-- A boolean counted as zero or one. -/
def countOf (b : Bool) : Int64 := if b then 1 else 0

/-- The integer view. Booleans count as zero or one. -/
def asInteger? : Value → Option Int64
  | .integer i => some i
  | .boolean b => some (countOf b)
  | _ => none

/-- The truth value of a boolean. -/
def asBoolean? : Value → Option Bool
  | .boolean b => some b
  | _ => none

def asRecord? : Value → Option Record
  | .record fields => some fields
  | _ => none

/-- The record whose fields are named `0`, `1`, ... -/
def tuple (items : List Value) : Value := .record (.positional items)

/-- The record without fields. -/
def emptyRecord : Value := .record .empty

mutual

def decEq : (v w : Value) → Decidable (v = w)
  | .boolean a, .boolean b =>
    if h : a = b then isTrue (h ▸ rfl) else isFalse fun heq => h (by injection heq)
  | .integer a, .integer b =>
    if h : a = b then isTrue (h ▸ rfl) else isFalse fun heq => h (by injection heq)
  | .float a, .float b =>
    if h : a = b then isTrue (h ▸ rfl) else isFalse fun heq => h (by injection heq)
  | .string a, .string b =>
    if h : a = b then isTrue (h ▸ rfl) else isFalse fun heq => h (by injection heq)
  | .record ⟨a⟩, .record ⟨b⟩ =>
    match decEqFields a b with
    | isTrue h => isTrue (h ▸ rfl)
    | isFalse h => isFalse fun heq => h (by injection heq with heq; injection heq)
  | .boolean _, .integer _ | .boolean _, .float _ | .boolean _, .string _
  | .boolean _, .record _ | .integer _, .boolean _ | .integer _, .float _
  | .integer _, .string _ | .integer _, .record _ | .float _, .boolean _
  | .float _, .integer _ | .float _, .string _ | .float _, .record _
  | .string _, .boolean _ | .string _, .integer _ | .string _, .float _
  | .string _, .record _ | .record _, .boolean _ | .record _, .integer _
  | .record _, .float _ | .record _, .string _ => isFalse fun heq => by injection heq

def decEqFields : (a b : List (String × Value)) → Decidable (a = b)
  | [], [] => isTrue rfl
  | [], _ :: _ => isFalse fun heq => by injection heq
  | _ :: _, [] => isFalse fun heq => by injection heq
  | (m, v) :: a, (n, w) :: b =>
    if hname : m = n then
      match decEq v w, decEqFields a b with
      | isTrue hv, isTrue ha => isTrue (by rw [hname, hv, ha])
      | isFalse hv, _ => isFalse fun heq => hv (by simp at heq; exact heq.1.2)
      | _, isFalse ha => isFalse fun heq => ha (by injection heq)
    else isFalse fun heq => hname (by simp at heq; exact heq.1.1)

end

instance : DecidableEq Value := decEq

mutual

/-- Whether the names of every record in a value are distinct. -/
def isWellFormed : Value → Bool
  | .record ⟨entries⟩ => decide (entries.map Prod.fst).Nodup && areWellFormed entries
  | _ => true

/-- Whether all values under names are well formed. -/
def areWellFormed : List (String × Value) → Bool
  | [] => true
  | (_, v) :: rest => isWellFormed v && areWellFormed rest

end

/-- Every record in the value, at any depth, has distinct names. -/
def WellFormed (v : Value) : Prop := v.isWellFormed = true

instance (v : Value) : Decidable v.WellFormed :=
  inferInstanceAs (Decidable (_ = true))

end Value

end Dataflow
