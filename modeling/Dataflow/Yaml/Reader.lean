/-
# Reading YAML

The document that a text holds; it holds one. A name for a node has a number, which
aliases refer to: a new name has the number of names before it, and a name that is
given again has the number that the next new name has. An alias stands for the last
node of its number in the whole document. A node that is left out is a scalar without
characters.
-/

import Dataflow.Document
import Dataflow.Yaml.Lexer

namespace Dataflow.Yaml

open Document (Part)

/-- What is known while tokens are read. -/
structure Stream where
  /-- The tokens that are still to be read. -/
  tokens : List Token
  /-- The numbers of the names that have been given. -/
  names : Named Nat
  /-- The numbers of the named nodes that have begun, the latest first. -/
  begun : List Nat
  /-- The named nodes that have ended, each with its place among those that began. -/
  ended : List (Nat × Part)
  /-- The namespaces of tags that the document names, the latest first. -/
  handles : List (String × List Text.Byte)

/-- A reader of tokens. -/
abbrev Reading (α : Type) := StateT Stream Option α

namespace Reading

/-- The next token, if there is one. -/
def peek : Reading (Option Token) := do return (← get).tokens.head?

def skip : Reading Unit := modify fun stream => { stream with tokens := stream.tokens.drop 1 }

/-- Whether the next token is this one. -/
def isNext (token : Token) : Reading Bool := do return (← peek) == some token

/-- Whether the next token is one of these. -/
def isNextOf (tokens : List Token) : Reading Bool := do
  return (← peek).any tokens.contains

/-- Read past the next token if it is this one. -/
def accept (token : Token) : Reading Bool := do
  if ← isNext token then
    skip
    return true
  else return false

/-- Read past the next token, which has to be this one. -/
def expect (token : Token) : Reading Unit := do
  unless ← accept token do failure

/-- The node of a name that has been given. -/
def named (name : String) : Reading Part := do
  match (← get).names.get? name with
  | some number => return .reference number
  | none => failure

/-- A named node begins: its place among those. -/
def begin (name : String) : Reading Nat := do
  let stream ← get
  let number := stream.names.size
  set { stream with names := stream.names.insert name number, begun := number :: stream.begun }
  return stream.begun.length

/-- A node ends, which may be a named one. -/
def finish (place : Option Nat) (part : Part) : Reading Part := do
  if let some place := place then
    modify fun stream => { stream with ended := (place, part) :: stream.ended }
  return part

/-- The namespaces of tags that every document knows. -/
def commonHandles : List (String × List Text.Byte) :=
  [("!", Text.encode "!"), ("!!", Text.encode commonTagStart)]

/-- What a tag says. -/
def resolveTag (spelling : TagSpelling) : Reading Tag := do
  if spelling.handle.isEmpty then return .ofBytes spelling.suffix
  match ((← get).handles ++ commonHandles).lookup spelling.handle with
  | some start => return .ofBytes (start ++ spelling.suffix)
  | none => failure

/-- The name of the node that follows, if it has one. -/
def anchor : Reading (Option String) := do
  match ← peek with
  | some (.anchor name) =>
    skip
    return some name
  | _ => return none

/-- The tag of the node that follows, if it has one. -/
def tag : Reading (Option Tag) := do
  match ← peek with
  | some (.tag spelling) =>
    skip
    return some (← resolveTag spelling)
  | _ => return none

/-- The name and the tag of the node that follows, each at most once. -/
def properties : Reading (Option String × Option Tag) := do
  match ← anchor with
  | some name => return (some name, ← tag)
  | none =>
    match ← tag with
    | some found => return (← anchor, some found)
    | none => return (none, none)

end Reading

/-- A node that is left out, under a tag. -/
def missingUnder (tag : Tag) : Part := .scalar (.missing tag)

/-- A node that is left out. -/
def missing : Part := missingUnder .absent

/-- What may follow the mark of an item without a node. -/
def afterItem : List Token := [.item, .blockClose]

/-- What may follow a mark among members without a node. -/
def afterMember : List Token := [.key, .value, .blockClose]

/-- What may follow an item between the marks of members without a node. -/
def afterPlainItem : List Token := [.item, .key, .value, .blockClose]

/-- What may follow a mark between brackets without a node. -/
def afterBracketed : List Token := [.value, .separator, .bracketClose]

/-- What may follow a mark between braces without a node. -/
def afterBraced : List Token := [.value, .separator, .braceClose]

namespace Reading

/-- A node that is left out, which it may be if it has a name or a tag. -/
def leftOut (mayMiss : Bool) (tag : Tag) : Reading Part :=
  if mayMiss then return missingUnder tag else failure

mutual

/-- A node: the node of a name, or one with its own properties. Outside of brackets
it may be a block, and after a mark among members also items without a block of
their own. -/
def node (inBlock afterMark : Bool) : Nat → Reading Part
  | 0 => failure
  | fuel + 1 => do
    match ← peek with
    | some (.alias name) =>
      skip
      named name
    | _ =>
      let (name, tag) ← properties
      let place ← name.mapM begin
      let part ←
        content inBlock afterMark (name.isSome || tag.isSome) (tag.getD .absent) fuel
      finish place part

/-- A node without its properties; with properties it may be left out. -/
def content (inBlock afterMark mayMiss : Bool) (tag : Tag) : Nat → Reading Part
  | 0 => failure
  | fuel + 1 => do
    match ← peek with
    | some (.scalar form text) =>
      skip
      return .scalar ⟨text, form, tag⟩
    | some .bracketOpen =>
      skip
      return .list tag (← bracketed true fuel)
    | some .braceOpen =>
      skip
      return .mapping tag (← braced true fuel)
    | some .item =>
      if afterMark then return .list tag (← plainItems fuel) else leftOut mayMiss tag
    | some .itemsOpen =>
      if inBlock then
        skip
        return .list tag (← blockItems fuel)
      else leftOut mayMiss tag
    | some .membersOpen =>
      if inBlock then
        skip
        return .mapping tag (← blockMembers fuel)
      else leftOut mayMiss tag
    | _ => leftOut mayMiss tag

/-- A node, unless one of these tokens follows. -/
def nodeUnless (follow : List Token) (inBlock afterMark : Bool) : Nat → Reading Part
  | 0 => failure
  | fuel + 1 => do
    if ← isNextOf follow then return missing else node inBlock afterMark fuel

def blockItems : Nat → Reading (List Part)
  | 0 => failure
  | fuel + 1 => do
    if ← accept .blockClose then return []
    else
      expect .item
      let first ← nodeUnless afterItem true false fuel
      return first :: (← blockItems fuel)

/-- Items that have no block of their own. -/
def plainItems : Nat → Reading (List Part)
  | 0 => failure
  | fuel + 1 => do
    if ← accept .item then
      let first ← nodeUnless afterPlainItem true false fuel
      return first :: (← plainItems fuel)
    else return []

def blockMembers : Nat → Reading (List (Part × Part))
  | 0 => failure
  | fuel + 1 => do
    if ← accept .blockClose then return []
    else
      expect .key
      let key ← nodeUnless afterMember true true fuel
      let member ← memberValue afterMember true fuel
      return (key, member) :: (← blockMembers fuel)

/-- The value of a key, which may be left out. -/
def memberValue (follow : List Token) (inBlock : Bool) : Nat → Reading Part
  | 0 => failure
  | fuel + 1 => do
    if ← accept .value then nodeUnless follow inBlock inBlock fuel else return missing

/-- What comes between brackets, after an item unless it is the first. -/
def bracketed (isFirst : Bool) : Nat → Reading (List Part)
  | 0 => failure
  | fuel + 1 => do
    if ← accept .bracketClose then return []
    else
      unless isFirst do expect .separator
      if ← accept .bracketClose then return []
      else
        let item ← bracketedItem fuel
        return item :: (← bracketed false fuel)

/-- An item between brackets; a key makes it named data with one member. -/
def bracketedItem : Nat → Reading Part
  | 0 => failure
  | fuel + 1 => do
    if ← accept .key then
      let key ← nodeUnless afterBracketed false false fuel
      let member ← memberValue afterBracketed false fuel
      return .mapping .absent [(key, member)]
    else node false false fuel

/-- What comes between braces, after a member unless it is the first. -/
def braced (isFirst : Bool) : Nat → Reading (List (Part × Part))
  | 0 => failure
  | fuel + 1 => do
    if ← accept .braceClose then return []
    else
      unless isFirst do expect .separator
      if ← accept .braceClose then return []
      else
        let member ← bracedMember fuel
        return member :: (← braced false fuel)

/-- A member between braces; without a key mark it has no value. -/
def bracedMember : Nat → Reading (Part × Part)
  | 0 => failure
  | fuel + 1 => do
    if ← accept .key then
      let key ← nodeUnless afterBraced false false fuel
      let member ← memberValue afterBraced false fuel
      return (key, member)
    else
      return (← node false false fuel, missing)

end

/-- The directives before a document. There is at most one version, and a namespace
of tags is named once. -/
def directives (versionSeen : Bool) : Nat → Reading Bool
  | 0 => failure
  | fuel + 1 => do
    match ← peek with
    | some (.directive (.version major minor)) =>
      if versionSeen || major != 1 || (minor != 1 && minor != 2) then failure
      else
        skip
        directives true fuel
    | some (.directive (.tagStart handle start)) =>
      let stream ← get
      if (stream.handles.lookup handle).isSome then failure
      else
        set { stream with handles := (handle, start) :: stream.handles }
        skip
        let _ ← directives versionSeen fuel
        return true
    | _ => return versionSeen

/-- Read past the marks after a document. -/
def documentEnds : Nat → Reading Unit
  | 0 => failure
  | fuel + 1 => do if ← accept .documentEnd then documentEnds fuel else return

/-- What may follow the mark of a document that has no node. -/
def afterDocumentStart : List Token := [.documentStart, .documentEnd]

/-- The one document of a text, of at most that many parts. -/
def document (fuel : Nat) : Reading Part := do
  let directed ← directives false fuel
  let data ←
    if ← accept .documentStart then
      if (← peek).isNone then pure missing
      else nodeUnless afterDocumentStart true false fuel
    else if directed then failure
    else if (← peek).isNone then pure missing
    else node true false fuel
  documentEnds fuel
  if (← peek).isSome then failure else return data

end Reading

/-- What the numbers of names stand for: the last node that began under each. -/
def Stream.places (stream : Stream) : List (Nat × Part) :=
  (List.range stream.names.size.succ).filterMap fun number => do
    let fromEnd ← stream.begun.idxOf? number
    let part ← stream.ended.lookup (stream.begun.length - 1 - fromEnd)
    return (number, part)

/-- How deep lists and members may nest where they are read. -/
def usualDepth : Nat := 128

/-- How often references may be followed, for each mark of a document. -/
def referencesPerMark : Nat := 100

/-- The document that a text holds. -/
def read? (text : String) : Option Document :=
  (tokens? text).bind fun tokens =>
    ((Reading.document (4 * tokens.length + 4)).run ⟨tokens, .empty, [], [], []⟩).map
      fun (root, stream) =>
        ⟨root, stream.places, usualDepth, root.marks * referencesPerMark⟩

end Dataflow.Yaml
