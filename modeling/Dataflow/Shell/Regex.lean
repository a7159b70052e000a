/-
# Regular expressions

An expression describes parts of a text. A search tries the places of a text from the
left, and at each place the longer repetitions first. What the groups of an expression
found is kept.
-/

import Dataflow.Shell.CharSet
import Dataflow.Shell.Chars

namespace Dataflow.Shell

/-- A regular expression. -/
inductive Regex where
  | empty
  | oneOf (set : CharSet)
  | start
  | finish
  | wordEdge
  | sequence (first second : Regex)
  | either (first second : Regex)
  | repeated (body : Regex) (least : Nat) (most : Option Nat)
  | group (number : Nat) (body : Regex)
  /-- What a group has found. -/
  | found (number : Nat)
deriving DecidableEq, Repr

/-- A part of a text: where it starts, and where it ends. -/
structure Span where
  start : Nat
  finish : Nat
deriving DecidableEq, Repr

/-- The characters of a part of a text. -/
def Span.of (span : Span) (text : List Char) : List Char :=
  (text.take span.finish).drop span.start

namespace Regex

/-- What remains to be found. -/
inductive Task where
  | find (regex : Regex)
  /-- The end of a group that started here. -/
  | close (number start : Nat)
  /-- Something since this place. -/
  | progress (place : Nat)

/-- A place in a text, and what groups have found before it. -/
structure Progress where
  place : Nat
  /-- The groups, the last first. -/
  groups : List (Nat × Span)

/-- The steps that a search may take at one place of a text. -/
def stepLimit (text : List Char) : Nat := 200 * (text.length + 50)

/-- Whether a word starts or ends at a place. -/
def isWordEdge (text : Array Char) (place : Nat) : Bool :=
  let isPart (place : Nat) : Bool := text[place]?.any isNameChar
  (place > 0 && isPart (place - 1)) != isPart place

/-- Find what remains to be found from a place on, in so many steps. -/
def search (text : Array Char) (ignoreCase : Bool) :
    Nat → List Task → Progress → Option Progress
  | 0, _, _ => none
  | _ + 1, [], at' => some at'
  | fuel + 1, task :: rest, at' =>
    let go := search text ignoreCase fuel
    match task with
    | .progress place => if at'.place == place then none else go rest at'
    | .close number opened =>
      go rest { at' with groups := (number, ⟨opened, at'.place⟩) :: at'.groups }
    | .find regex =>
      match regex with
      | .empty => go rest at'
      | .start => if at'.place == 0 then go rest at' else none
      | .finish => if at'.place == text.size then go rest at' else none
      | .wordEdge => if isWordEdge text at'.place then go rest at' else none
      | .oneOf set =>
        match text[at'.place]? with
        | some c =>
          if set.contains c || (ignoreCase && (set.contains c.toLower || set.contains c.toUpper)) then
            go rest { at' with place := at'.place + 1 }
          else none
        | none => none
      | .sequence first second => go (.find first :: .find second :: rest) at'
      | .either first second => (go (.find first :: rest) at').or (go (.find second :: rest) at')
      | .repeated body (least + 1) most =>
        go (.find body :: .find (.repeated body least (most.map (· - 1))) :: rest) at'
      | .repeated body 0 most =>
        let further : Option Progress :=
          if most == some 0 then none
          else
            go (.find body :: .progress at'.place ::
              .find (.repeated body 0 (most.map (· - 1))) :: rest) at'
        further.or (go rest at')
      | .group number body => go (.find body :: .close number at'.place :: rest) at'
      | .found number =>
        let part := ((at'.groups.lookup number).getD ⟨0, 0⟩).of text.toList
        if part.isPrefixOf (text.toList.drop at'.place) then
          go rest { at' with place := at'.place + part.length }
        else none

/-- The first part of a text at or after a place that an expression describes, and what
its groups found. -/
def find? (regex : Regex) (ignoreCase : Bool) (text : List Char) (place : Nat) :
    Option (Span × List (Nat × Span)) :=
  (List.range (text.length + 1 - place)).findSome? fun offset =>
    let start := place + offset
    (search text.toArray ignoreCase (stepLimit text) [.find regex] ⟨start, []⟩).map fun at' =>
      (⟨start, at'.place⟩, at'.groups)

/-- The characters of words. -/
def wordChars : List CharRange := CharSet.lower ++ CharSet.upper ++ CharSet.digits ++ [('_', '_')]

/-- The characters that leave room. -/
def spaceChars : List CharRange := [(' ', ' '), ('\t', '\x0d')]

/-- What is read of an expression: its groups so far, and what is left. -/
structure Notation where
  /-- The number of groups so far. -/
  groups : Nat
  /-- What is left. -/
  chars : List Char

/-- Reading of an expression. -/
abbrev Reader := StateT Notation Option

/-- The signs that have a meaning with a backslash in one way of writing, and without
it in the other. -/
def signs : List Char := ['(', ')', '\x7b', '\x7d', '+', '?', '|']

/-- A sign at the start of characters, and what comes after it. -/
def signAt? (isExtended : Bool) : List Char → Option (Char × List Char)
  | '\\' :: c :: rest => if !isExtended && signs.contains c then some (c, rest) else none
  | c :: rest => if isExtended && signs.contains c then some (c, rest) else none
  | [] => none

/-- How often something is repeated, as it is written between braces, and what comes
after them. -/
def readCounts? (isExtended : Bool) (chars : List Char) : Option (Nat × Option Nat × List Char) :=
  let least := chars.takeWhile Char.isDigit
  let (most, rest) :=
    match chars.drop least.length with
    | ',' :: rest =>
      let most := rest.takeWhile Char.isDigit
      (natural? most, rest.drop most.length)
    | rest => (natural? least, rest)
  match signAt? isExtended rest with
  | some ('\x7d', after) => some ((natural? least).getD 0, most, after)
  | _ => none

/-- The characters of a set as they are marked in a pattern. -/
def unmarked (chars : List Char) : List Marked := chars.map fun c => (c, false)

/-- What a single character describes after a backslash, if that is a set. -/
def escapedSet? (c : Char) : Option CharSet :=
  match c with
  | 'w' => some ⟨false, wordChars⟩
  | 'W' => some ⟨true, wordChars⟩
  | 's' => some ⟨false, spaceChars⟩
  | 'S' => some ⟨true, spaceChars⟩
  | 'n' => some ⟨false, [('\n', '\n')]⟩
  | 't' => some ⟨false, [('\t', '\t')]⟩
  | _ => none

/-- A character by itself. -/
def only (c : Char) : Regex := .oneOf ⟨false, [(c, c)]⟩

/-- Repetitions after an expression. -/
def readRepetitions (isExtended : Bool) (body : Regex) : Nat → Reader Regex
  | 0 => failure
  | fuel + 1 => do
    let written ← get
    let again (least : Nat) (most : Option Nat) (rest : List Char) : Reader Regex := do
      set { written with chars := rest }
      readRepetitions isExtended (.repeated body least most) fuel
    match written.chars with
    | '*' :: rest => again 0 none rest
    | chars =>
      match signAt? isExtended chars with
      | some ('+', rest) => again 1 none rest
      | some ('?', rest) => again 0 (some 1) rest
      | some ('\x7b', rest) =>
        match readCounts? isExtended rest with
        | some (least, most, after) => again least most after
        | none => failure
      | _ => return body

mutual

/-- An expression up to the end of its group. -/
def readAll (isExtended : Bool) : Nat → Reader Regex
  | 0 => failure
  | fuel + 1 => do
    let first ← readSequence isExtended true fuel
    match signAt? isExtended (← get).chars with
    | some ('|', rest) =>
      modify fun written => { written with chars := rest }
      return .either first (← readAll isExtended fuel)
    | _ => return first

/-- Expressions one after the other. -/
def readSequence (isExtended isFirst : Bool) : Nat → Reader Regex
  | 0 => failure
  | fuel + 1 => do
    let written ← get
    match signAt? isExtended written.chars with
    | some ('|', _) | some (')', _) => return .empty
    | _ =>
      if written.chars.isEmpty then return .empty
      else
        let item ← readItem isExtended isFirst fuel
        let stays := isFirst && item == .start
        return .sequence item (← readSequence isExtended stays fuel)

/-- An expression that others may follow. -/
def readItem (isExtended isFirst : Bool) : Nat → Reader Regex
  | 0 => failure
  | fuel + 1 => do
    let written ← get
    let take (regex : Regex) (rest : List Char) : Reader Regex := do
      set { written with chars := rest }
      readRepetitions isExtended regex fuel
    match signAt? isExtended written.chars, written.chars with
    | some ('(', rest), _ =>
      let number := written.groups + 1
      set (⟨number, rest⟩ : Notation)
      let body ← readAll isExtended fuel
      match signAt? isExtended (← get).chars with
      | some (')', rest) =>
        modify fun written => { written with chars := rest }
        readRepetitions isExtended (.group number body) fuel
      | _ => failure
    | some (c, rest), _ => if isFirst then take (only c) rest else failure
    | none, '\\' :: c :: rest =>
      if c.isDigit && c != '0' then take (.found (c.toNat - '0'.toNat)) rest
      else if c == 'b' || c == '<' || c == '>' then take .wordEdge rest
      else take (((escapedSet? c).map .oneOf).getD (only c)) rest
    | none, '^' :: rest =>
      if isExtended || isFirst then
        set { written with chars := rest }
        return .start
      else take (only '^') rest
    | none, '$' :: rest =>
      let endsHere := rest.isEmpty ||
        match signAt? isExtended rest with
        | some (c, _) => c == '|' || c == ')'
        | none => false
      if isExtended || endsHere then
        set { written with chars := rest }
        return .finish
      else take (only '$') rest
    | none, '.' :: rest => take (.oneOf ⟨true, []⟩) rest
    | none, '[' :: rest =>
      match CharSet.read? ['^'] (unmarked rest) with
      | some (set, after) => take (.oneOf set) (after.map Prod.fst)
      | none => failure
    | none, c :: rest => if c == '*' && !isFirst then failure else take (only c) rest
    | none, [] => return .empty

end

/-- The expression that characters spell. Extended ones give signs their meaning
without a backslash. -/
def read? (isExtended : Bool) (chars : List Char) : Option Regex :=
  match (readAll isExtended (8 * chars.length + 8)).run ⟨0, chars⟩ with
  | some (regex, ⟨_, []⟩) => some regex
  | _ => none

end Regex

end Dataflow.Shell
