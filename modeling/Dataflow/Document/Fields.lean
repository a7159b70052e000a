/-
# Reading parts of documents

Readers for what documents are made of. A structure with known fields is read from
named members, where unknown names are ignored and a known one may occur once, or
from a list in the order of the fields. One of several alternatives is read from its
name, from a tag, or from named data with one member. `Part.settled` decides a part
for which there is no reader yet.
-/

import Dataflow.Document

namespace Dataflow.Document

namespace Part

/-- A text. A scalar of YAML is the text that it is, whatever it looks like. -/
def asText (given : Part) : Reading String := do
  match ← given.follow with
  | .text s => return s
  | .scalar written => return written.text
  | _ => failure

/-- A natural number up to a limit. -/
def asNatural (limit : Nat) (given : Part) : Reading Nat := do
  match ← given.follow with
  | .integer n => if 0 ≤ n ∧ n ≤ limit then return n.toNat else failure
  | .scalar written =>
    let n ← written.natural?
    if n ≤ limit then return n else failure
  | _ => failure

/-- Something that may be absent: null stands for its absence. -/
def asOptional {α : Type} (reader : Part → Reading α) (given : Part) :
    Reading (Option α) := do
  match ← given.follow with
  | .null => return none
  | .scalar written =>
    if ← written.isAbsent? then return none else return some (← reader (.scalar written))
  | found => return some (← reader found)

/-- A list. A YAML scalar without characters is the empty list. -/
def asList {α : Type} (reader : Part → Reading α) (given : Part) : Reading (List α) := do
  match ← given.follow with
  | .array items => (items.mapM reader).within
  | .list _ items => (items.mapM reader).within
  | .scalar written => if written.isEmpty then return [] else failure
  | _ => failure

/-- The key that a part of a YAML text is, where names are looked for. -/
def asKey (given : Part) : Reading Key := return .name (← given.asText)

/-- Read members, each under its key. -/
def withMembers {α : Type} (reader : List (Key × Part) → Reading α) (given : Part) :
    Reading α := do
  match ← given.follow with
  | .object members =>
    (reader (members.entries.map fun (name, member) => (.name name, member))).within
  | .mapping _ entries =>
    Reading.within do
      reader (← entries.mapM fun (key, member) => do return (← key.asKey, member))
  | .decided members => (reader members).within
  | .scalar written => if written.isEmpty then reader [] else failure
  | _ => failure

/-- Read members of one kind, each under its name; of two under one name the later
counts. -/
def asNamed {α : Type} (reader : Part → Reading α) (given : Part) : Reading (Named α) :=
  given.withMembers fun members => do
    let entries ← members.mapM fun (key, member) => do
      match key with
      | .name name => return (name, ← reader member)
      | _ => failure
    return .ofList entries

end Part

/-- Which of the known names a key stands for, if it stands for one. What is neither
a name nor a place stands for nothing, not even for an unknown name. -/
def Key.position? (names : List String) : Key → Option (Option Nat)
  | .name s => some (names.idxOf? s)
  | .place n => some (if n < names.length then some n else none)
  | .other => none

/-- What is given for the known fields of a structure, in the order in which it is
given. -/
abbrev Fields := List (Nat × Part)

namespace Fields

/-- What members give for the fields of these names, each of which may occur once. -/
def ofMembers? (names : List String) : List (Key × Part) → Option Fields
  | [] => some []
  | (key, member) :: rest =>
    match key.position? names, ofMembers? names rest with
    | some none, some further => some further
    | some (some position), some further =>
      if further.any fun field => field.1 == position then none
      else some ((position, member) :: further)
    | _, _ => none

/-- What items give for as many fields at most, in their order. -/
def ofItems? (names : List String) (items : List Part) : Option Fields :=
  if items.length ≤ names.length then some ((List.range items.length).zip items) else none

/-- A field that may be missing, with what stands in for it. -/
def field {α : Type} (fallback : Option α) (reader : Part → Reading α) (fields : Fields)
    (position : Nat) : Reading α :=
  match fields.lookup position, fallback with
  | some given, _ => reader given
  | none, some a => return a
  | none, none => failure

/-- A field that must be there. -/
def required {α : Type} (reader : Part → Reading α) (fields : Fields) (position : Nat) :
    Reading α :=
  fields.field none reader position

/-- A field that may be missing or null. -/
def optional {α : Type} (reader : Part → Reading α) (fields : Fields) (position : Nat) :
    Reading (Option α) :=
  fields.field (some none) (Part.asOptional reader) position

end Fields

namespace Part

/-- Read a structure with fields of these names from its members. -/
def withNamedFields {α : Type} (names : List String) (reader : Fields → Reading α)
    (given : Part) : Reading α :=
  given.withMembers fun members => do reader (← Fields.ofMembers? names members)

/-- Read a structure with fields of these names. -/
def withFields {α : Type} (names : List String) (reader : Fields → Reading α)
    (given : Part) : Reading α := do
  match ← given.follow with
  | .array items => Reading.within do reader (← Fields.ofItems? names items)
  | found => found.withNamedFields names reader

/-- Whether a part is the content of an alternative that has none. -/
def isNothing : Part → Bool
  | .null => true
  | .decided members => members.isEmpty
  | .scalar written => written.isNothing
  | _ => false

/-- Read one of the alternatives of these names, given its name and its content if it
has one. -/
def withAlternative {α : Type} (names : List String)
    (reader : String → Option Part → Reading α) (given : Part) : Reading α := do
  let known (name : String) (content : Option Part) : Reading α :=
    if names.contains name then reader name content else failure
  match ← given.follow with
  | .text s => known s none
  | .scalar ⟨wording, form, .alternative name⟩ =>
    known name (some (.scalar ⟨wording, form, .absent⟩))
  | .scalar written => known written.text none
  | .list (.alternative name) items => known name (some (.list .absent items))
  | .mapping (.alternative name) entries => known name (some (.mapping .absent entries))
  | .object ⟨[(name, content)]⟩ => (known name (some content)).within
  | .decided [(key, content)] =>
    match (← key.position? names).bind (names[·]?) with
    | some name => (reader name (some content)).within
    | none => failure
  | _ => failure

/-- One of the alternatives of these names, none of which has content. -/
def asAlternative (names : List String) (given : Part) : Reading String :=
  given.withAlternative names fun name content =>
    if content.all isNothing then return name else failure

/-- The key that a decided part is. -/
def key : Part → Key
  | .text s => .name s
  | .integer n => if 0 ≤ n then .place n.toNat else .other
  | _ => .other

/-- The key that a part of a YAML text is, where names and places are looked for. A
sign below zero makes it none, even before zero. -/
def settledKey (found : Part) (given : Part) : Key :=
  match found, given with
  | .integer _, .scalar written =>
    if written.text.toList.head? == some '-' then .other else found.key
  | _, _ => found.key

/-- The part with all in it decided, where it nests less than that deep. A name for an
alternative needs a reader, so a part that holds one cannot be decided without. -/
def settledWithin : Nat → Part → Reading Part
  | 0, _ => failure
  | fuel + 1, given => do
    match ← given.follow with
    | .scalar written => return .ofScalar written.text (← written.settled?)
    | .array items => return .array (← (items.mapM (settledWithin fuel)).within)
    | .list (.alternative _) _ => failure
    | .list _ items => return .array (← (items.mapM (settledWithin fuel)).within)
    | .object members =>
      Reading.within do
        let found ← members.entries.mapM fun (name, member) => do
          return (Key.name name, ← settledWithin fuel member)
        return .decided found
    | .mapping (.alternative _) _ => failure
    | .mapping _ entries =>
      Reading.within do
        let found ← entries.mapM fun (key, member) => do
          let keyPart ← key.follow
          let decidedKey ← settledWithin fuel keyPart
          return (decidedKey.settledKey keyPart, ← settledWithin fuel member)
        return .decided found
    | .decided members =>
      Reading.within do
        let found ← members.mapM fun (key, member) => do
          return (key, ← settledWithin fuel member)
        return .decided found
    | .unreadable => failure
    | found => return found

/-- The part with all in it decided. -/
def settled (given : Part) : Reading Part := do
  given.settledWithin ((← Reading.depthLeft) + 1)

end Part

end Dataflow.Document
