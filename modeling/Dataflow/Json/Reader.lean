/-
# Reading JSON

The reader is a machine over tokens with a stack of open containers. A text holds
one value and nothing else but white space. It is read as a document, with every
member that the text has, or as a tree, all of which can be read and in which a member
that occurs again replaces the earlier one and keeps its place.
-/

import Dataflow.Document
import Dataflow.Json.Token

namespace Dataflow.Json

open Document (Part)

/-- A container that is still open. -/
inductive OpenContainer where
  /-- An array, the last item first. -/
  | array (items : List Part)
  /-- An object between members, the last member first. -/
  | object (members : List (Option String × Part))
  | member (members : List (Option String × Part)) (name : Option String)

/-- What may come next: nothing if the whole was read as a part. -/
inductive Expectation where
  | value
  /-- A value, or the end of an array that is still empty. -/
  | firstItem
  | name
  /-- The name of a member, or the end of an object that is still empty. -/
  | firstName
  | colon
  /-- A comma, or the end of the innermost container. -/
  | separator
  | nothing (part : Part)

/-- The open containers, innermost first, and what may come next. -/
structure Reading where
  /-- The open containers, innermost first. -/
  stack : List OpenContainer
  expected : Expectation

/-- A value is complete: it goes into the innermost container. -/
def Reading.complete? (stack : List OpenContainer) (part : Part) : Option Reading :=
  match stack with
  | [] => some ⟨[], .nothing part⟩
  | .array items :: outer => some ⟨.array (part :: items) :: outer, .separator⟩
  | .member members name :: outer =>
    some ⟨.object ((name, part) :: members) :: outer, .separator⟩
  | .object _ :: _ => none

/-- The start of a value. -/
def Reading.startValue? (stack : List OpenContainer) : Token → Option Reading
  | .openArray => some ⟨.array [] :: stack, .firstItem⟩
  | .openObject => some ⟨.object [] :: stack, .firstName⟩
  | .string (some s) => complete? stack (.text s)
  | .string none => complete? stack .unreadable
  | .scalar part => complete? stack part
  | _ => none

/-- The name of a member of the innermost object. -/
def Reading.startMember? (stack : List OpenContainer) (name : Option String) :
    Option Reading :=
  match stack with
  | .object members :: outer => some ⟨.member members name :: outer, .colon⟩
  | _ => none

/-- The object of members that are in reverse; it cannot be read if a name cannot. -/
def objectOf (members : List (Option String × Part)) : Part :=
  match members.reverse.mapM fun (name, part) => name.map fun name => (name, part) with
  | some members => .object ⟨members⟩
  | none => .unreadable

/-- Close the innermost container with a token. -/
def Reading.close? (stack : List OpenContainer) (token : Token) : Option Reading :=
  match stack, token with
  | .array items :: outer, .closeArray => complete? outer (.array items.reverse)
  | .object members :: outer, .closeObject => complete? outer (objectOf members)
  | _, _ => none

def Reading.step? (state : Reading) (token : Token) : Option Reading :=
  match state.expected, token with
  | .value, _ => startValue? state.stack token
  | .firstItem, .closeArray => close? state.stack token
  | .firstItem, _ => startValue? state.stack token
  | .firstName, .closeObject => close? state.stack token
  | .firstName, .string s => startMember? state.stack s
  | .name, .string s => startMember? state.stack s
  | .colon, .colon => some ⟨state.stack, .value⟩
  | .separator, .comma =>
    match state.stack with
    | .array _ :: _ => some ⟨state.stack, .value⟩
    | .object _ :: _ => some ⟨state.stack, .name⟩
    | _ => none
  | .separator, _ => close? state.stack token
  | _, _ => none

/-- Read tokens from a state to the end. -/
def Reading.run? (state : Reading) : List Token → Option Part
  | [] =>
    match state.expected with
    | .nothing part => some part
    | _ => none
  | token :: rest => (state.step? token).bind fun next => next.run? rest

mutual

/-- The tree in which a repeated member has replaced the earlier one. -/
def merged : Json → Json
  | .array items => .array (mergedItems items)
  | .object ⟨members⟩ => .object (.ofList (mergedMembers members))
  | scalar => scalar

def mergedItems : List Json → List Json
  | [] => []
  | item :: rest => merged item :: mergedItems rest

def mergedMembers : List (String × Json) → List (String × Json)
  | [] => []
  | (name, member) :: rest => (name, merged member) :: mergedMembers rest

end

/-- The part that a text is. -/
def part? (text : String) : Option Part :=
  (tokens? text).bind fun tokens => Reading.run? ⟨[], .value⟩ tokens

/-- How deep arrays and objects may nest where they are read. -/
def usualDepth : Nat := 127

/-- The document of a text. -/
def document? (text : String) : Option Document :=
  (part? text).map fun part => ⟨part, [], usualDepth, 0⟩

/-- Read a text as a tree, merging repeated members. -/
def read? (text : String) : Option Json :=
  (part? text).bind fun part => (part.json? usualDepth).map merged

end Dataflow.Json
