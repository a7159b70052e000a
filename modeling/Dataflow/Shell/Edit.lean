/-
# Editing lines

A script of edits is run on each line of a text. An edit may stand under addresses,
which say to which lines it applies. A line that is edited is written at the end,
unless it was deleted or nothing is to be written by itself.
-/

import Dataflow.Json.Writer
import Dataflow.Shell.Regex

namespace Dataflow.Shell

/-- A change of the case of letters. -/
inductive Casing where
  | kept
  | raised
  | lowered
deriving DecidableEq, Repr

/-- A character with its case changed. -/
def Casing.apply (casing : Casing) (c : Char) : Char :=
  match casing with
  | .kept => c
  | .raised => c.toUpper
  | .lowered => c.toLower

/-- A part of what replaces a part of a line. -/
inductive Replacement where
  | text (chars : List Char)
  /-- What a group has found; group zero is all that was found. -/
  | group (number : Nat)
  | casing (casing : Casing)
  | nextCasing (casing : Casing)
deriving DecidableEq, Repr

/-- What parts of a line look like. -/
structure Sought where
  regex : Regex
  /-- Whether capital and small letters are the same. -/
  ignoreCase : Bool
deriving DecidableEq, Repr

/-- A substitution of parts of a line. -/
structure Substitution where
  sought : Sought
  replacement : List Replacement
  /-- Which part is the first to be replaced, counted from one. -/
  first : Nat
  /-- Whether the parts after it are replaced as well. -/
  isGlobal : Bool
  /-- Whether a line is written at once if it was changed. -/
  isWritten : Bool
deriving DecidableEq, Repr

namespace Substitution

/-- The characters of a replacement of a part of a line. -/
def replace (text : List Char) (whole : Span) (groups : List (Nat × Span)) :
    Casing → Casing → List Replacement → List Char
  | _, _, [] => []
  | _, next, .casing other :: rest => replace text whole groups other next rest
  | casing, _, .nextCasing other :: rest => replace text whole groups casing other rest
  | casing, next, part :: rest =>
    let chars : List Char :=
      match part with
      | .text chars => chars
      | .group 0 => whole.of text
      | .group number => ((groups.lookup number).map fun (span : Span) => span.of text).getD []
      | _ => []
    match chars with
    | [] => replace text whole groups casing next rest
    | c :: chars =>
      (if next == Casing.kept then casing.apply c else next.apply c) ::
        chars.map casing.apply ++ replace text whole groups casing Casing.kept rest

/-- A line from a place on with parts replaced, so many parts having been found before,
and whether there was any to replace. Nothing is not found again where something else
has just ended. -/
def applyFrom (s : Substitution) (text : List Char) :
    Nat → Nat → Nat → Option Nat → List Char × Bool
  | 0, place, _, _ => (text.drop place, false)
  | fuel + 1, place, count, ended =>
    match s.sought.regex.find? s.sought.ignoreCase text place with
    | none => (text.drop place, false)
    | some (span, groups) =>
      let before := (text.take span.start).drop place
      let isEmpty := span.start == span.finish
      let next := if isEmpty then (text.drop span.start).take 1 else []
      let further := span.finish + next.length
      if isEmpty && ended == some span.start then
        if next.isEmpty then (before, false)
        else
          let (after, isChanged) := s.applyFrom text fuel further count none
          (before ++ next ++ after, isChanged)
      else
        let isReplaced := s.first ≤ count + 1
        let made :=
          if isReplaced then replace text span groups .kept .kept s.replacement else span.of text
        if (isReplaced && !s.isGlobal) || (isEmpty && next.isEmpty) then
          (before ++ made ++ text.drop span.finish, isReplaced)
        else
          let (after, isChanged) :=
            s.applyFrom text fuel further (count + 1) (if isEmpty then none else some span.finish)
          (before ++ made ++ next ++ after, isReplaced || isChanged)

/-- A line with parts replaced, and whether there was any to replace. -/
def apply (s : Substitution) (text : List Char) : List Char × Bool :=
  s.applyFrom text (2 * text.length + 2) 0 0 none

end Substitution

/-- Which lines are meant. -/
inductive LineAddress where
  | number (n : Nat)
  | last
  | having (sought : Sought)
deriving DecidableEq, Repr

/-- What an edit does. -/
inductive EditAction where
  | substitute (substitution : Substitution)
  | exchange (pairs : List (Char × Char))
  /-- It puts a text before, after or in place of a line, as its letter says. -/
  | insert (letter : Char) (text : List Char)
  | label (name : List Char)
  /-- It goes to a place, always or after a substitution. -/
  | branch (isConditional : Bool) (name : List Char)
  | letter (letter : Char)
deriving DecidableEq, Repr

/-- An edit. -/
structure Edit where
  /-- The line from which on it applies, or the only ones to which it does. -/
  start : Option LineAddress
  /-- The line up to which it applies. -/
  finish : Option LineAddress
  /-- Whether it applies to the other lines instead. -/
  isNegated : Bool
  action : EditAction
deriving DecidableEq, Repr

/-- Why a text is no script of edits. -/
inductive EditFault where
  | unknownCommand (letter : Char)
  | openSubstitution
  | unknownOption
  | noCommand
  | openAddress
  | noRegex
deriving DecidableEq, Repr

def EditFault.message : EditFault → String
  | .unknownCommand letter => "unknown command: \x60" ++ String.ofList [letter] ++ "'"
  | .openSubstitution => "unterminated \x60s' command"
  | .unknownOption => "unknown option to \x60s'"
  | .noCommand => "missing command"
  | .openAddress => "unterminated address regex"
  | .noRegex => "Invalid preceding regular expression"

namespace Edit

/-- Reading of a script of edits. A fault comes with what is left. -/
abbrev Reader := StateT (List Char) (Except (EditFault × List Char))

/-- Give up. -/
def fail {α : Type} (fault : EditFault) : Reader α := do throw (fault, ← get)

/-- The characters up to a mark, and what comes after it. A mark after a backslash
stands for itself, and within brackets if they have a meaning. -/
def splitPart? (mark : Char) (hasBrackets : Bool) :
    Nat → List Char → Option (List Char × List Char)
  | 0, _ | _, [] => none
  | fuel + 1, '\\' :: c :: rest =>
    (splitPart? mark hasBrackets fuel rest).map fun (text, after) =>
      (if c == mark then c :: text else '\\' :: c :: text, after)
  | fuel + 1, c :: rest =>
    let bracket :=
      if c == '[' && hasBrackets then CharSet.read? ['^'] (Regex.unmarked rest) else none
    if c == mark then some ([], rest)
    else
      let count := match bracket with
        | some (_, after) => rest.length - after.length
        | none => 0
      (splitPart? mark hasBrackets fuel (rest.drop count)).map fun (text, after) =>
        (c :: rest.take count ++ text, after)

/-- The characters up to a mark, which are left out of what is left. -/
def part (mark : Char) (hasBrackets : Bool) (fault : EditFault) : Reader (List Char) := do
  let chars ← get
  match splitPart? mark hasBrackets (chars.length + 1) chars with
  | some (text, after) =>
    set after
    return text
  | none =>
    set ([] : List Char)
    fail fault

/-- The parts of a replacement that characters spell. -/
def replacementOf : List Char → List Replacement
  | '\\' :: c :: rest =>
    let part : Replacement :=
      if c.isDigit then .group (c.toNat - '0'.toNat)
      else
        match c with
        | 'n' => .text ['\n']
        | 't' => .text ['\t']
        | 'U' => .casing .raised
        | 'L' => .casing .lowered
        | 'E' => .casing .kept
        | 'u' => .nextCasing .raised
        | 'l' => .nextCasing .lowered
        | _ => .text [c]
    part :: replacementOf rest
  | '&' :: rest => .group 0 :: replacementOf rest
  | c :: rest => .text [c] :: replacementOf rest
  | [] => []

/-- What characters describe. -/
def soughtOf (isExtended ignoreCase : Bool) (chars : List Char) : Reader Sought :=
  match Regex.read? isExtended chars with
  | some regex => return ⟨regex, ignoreCase⟩
  | none => fail .noRegex

/-- A substitution after its letter. -/
def readSubstitution (isExtended : Bool) : Reader EditAction := do
  match ← get with
  | [] => fail .openSubstitution
  | mark :: rest =>
    set rest
    let pattern ← part mark true .openSubstitution
    let replacement ← part mark false .openSubstitution
    let chars ← get
    let flags := chars.takeWhile fun c => c.isDigit || ['g', 'p', 'i', 'I'].contains c
    set (chars.drop flags.length)
    match chars.drop flags.length with
    | c :: rest =>
      if !(isGap c || c == ';' || c == '\x7d' || c == '#') then
        set rest
        fail .unknownOption
    | [] => pure ()
    let ignoreCase := flags.contains 'i' || flags.contains 'I'
    let sought ← soughtOf isExtended ignoreCase pattern
    return .substitute ⟨sought, replacementOf replacement,
      (natural? (flags.filter Char.isDigit)).getD 1, flags.contains 'g', flags.contains 'p'⟩

/-- An address, if there is one. -/
def readAddress? (isExtended : Bool) : Reader (Option LineAddress) := do
  match ← get with
  | '$' :: rest =>
    set rest
    return some .last
  | '/' :: rest =>
    set rest
    let pattern ← part '/' true .openAddress
    match ← get with
    | 'I' :: rest =>
      set rest
      return some (.having (← soughtOf isExtended true pattern))
    | _ => return some (.having (← soughtOf isExtended false pattern))
  | chars =>
    let digits := chars.takeWhile Char.isDigit
    set (chars.drop digits.length)
    return (natural? digits).map .number

/-- Characters with their backslashes taken away. -/
def plain : List Char → List Char
  | '\\' :: 'n' :: rest => '\n' :: plain rest
  | '\\' :: c :: rest => c :: plain rest
  | c :: rest => c :: plain rest
  | [] => []

/-- Go past blanks. -/
def skipBlanks : Reader Unit := modify fun chars => chars.dropWhile fun c => c == ' ' || c == '\t'

/-- The rest of the line. -/
def restOfLine : Reader (List Char) := do
  let chars ← get
  let line := chars.takeWhile (· != '\n')
  set (chars.drop line.length)
  return line

def readLabel : Reader (List Char) := do
  skipBlanks
  let chars ← get
  let name := chars.takeWhile fun c => !(isGap c || c == ';')
  set (chars.drop name.length)
  return name

/-- What an edit does. -/
def readAction (isExtended : Bool) : Reader EditAction := do
  match ← get with
  | [] => fail .noCommand
  | c :: rest =>
    set rest
    match c with
    | 's' => readSubstitution isExtended
    | 'y' =>
      let mark := rest.headD '/'
      set (rest.drop 1)
      let old ← part mark false .openSubstitution
      let new ← part mark false .openSubstitution
      return .exchange ((plain old).zip (plain new))
    | ':' => return .label (← readLabel)
    | 'b' => return .branch false (← readLabel)
    | 't' => return .branch true (← readLabel)
    | _ =>
      if ['a', 'i', 'c'].contains c then
        skipBlanks
        modify fun chars =>
          match chars with
          | '\\' :: rest => (rest.dropWhile isGap)
          | chars => chars
        return .insert c (plain (← restOfLine))
      else if ['p', 'P', 'd', 'D', 'q', '=', 'n', 'N', 'g', 'G', 'h', 'H', 'x', '\x7b',
          '\x7d'].contains c then return .letter c
      else fail (.unknownCommand c)

/-- Edits up to the end of a script. -/
def readAll (isExtended : Bool) : Nat → Reader (List Edit)
  | 0 => return []
  | fuel + 1 => do
    modify fun chars => chars.dropWhile fun c => isGap c || c == ';'
    match ← get with
    | [] => return []
    | '#' :: rest =>
      set (rest.dropWhile (· != '\n'))
      readAll isExtended fuel
    | _ =>
      let start ← readAddress? isExtended
      skipBlanks
      let finish ←
        match start, ← get with
        | some _, ',' :: rest => do
          set rest
          skipBlanks
          readAddress? isExtended
        | _, _ => pure none
      skipBlanks
      let chars ← get
      let isNegated := chars.head? == some '!'
      set (chars.dropWhile fun c => c == '!' || c == ' ')
      let action ← readAction isExtended
      return ⟨start, finish, isNegated, action⟩ :: (← readAll isExtended fuel)

/-- The edits of a script. A fault comes with the number of characters up to it. -/
def read? (isExtended : Bool) (script : List Char) : Except (EditFault × Nat) (List Edit) :=
  match (readAll isExtended (script.length + 1)).run script with
  | .ok (edits, _) => .ok edits
  | .error (fault, left) => .error (fault, script.length - left.length)

end Edit

/-- Lines that are being edited. -/
structure Editing where
  /-- The line at hand. -/
  line : List Char
  /-- The line that is held. -/
  held : List Char
  /-- The number of the line at hand. -/
  number : Nat
  /-- The lines after it. -/
  rest : List (List Char)
  /-- The lines that have been written, last first. -/
  written : List (List Char)
  /-- The lines that are written after the line at hand, last first. -/
  appended : List (List Char)
  /-- The edits that have begun to apply. -/
  begun : List Nat
  /-- Whether something was replaced in the line at hand. -/
  isChanged : Bool
  /-- Whether what was written last is the last line. -/
  endsLast : Bool

namespace Editing

/-- With a line written. -/
def write (e : Editing) (line : List Char) : Editing :=
  { e with written := line :: e.written, endsLast := false }

/-- With the line at hand written. -/
def writeLine (e : Editing) : Editing :=
  { e.write e.line with endsLast := e.rest.isEmpty }

/-- At the end of the line at hand. -/
def finish (e : Editing) (isWritten : Bool) : Editing :=
  let e := if isWritten then e.writeLine else e
  if e.appended.isEmpty then e
  else { e with written := e.appended ++ e.written, appended := [], endsLast := false }

/-- Whether an address means the line at hand. -/
def isAt (e : Editing) : LineAddress → Bool
  | .number n => e.number == n
  | .last => e.rest.isEmpty
  | .having sought => (sought.regex.find? sought.ignoreCase e.line 0).isSome

/-- Whether an edit at a position applies to the line at hand, and the lines after
that was asked. -/
def applies (e : Editing) (position : Nat) (edit : Edit) : Bool × Editing :=
  let (applies, e) :=
    match edit.start, edit.finish with
    | none, _ => (true, e)
    | some start, none => (e.isAt start, e)
    | some start, some finish =>
      let isOver : Bool :=
        match finish with
        | .number n => n ≤ e.number
        | _ => e.isAt finish
      if e.begun.contains position then
        (true, if isOver then { e with begun := e.begun.erase position } else e)
      else if e.isAt start then
        let isSingle : Bool :=
          match finish with
          | .number n => n ≤ e.number
          | _ => false
        (true, if isSingle then e else { e with begun := position :: e.begun })
      else (false, e)
  (applies != edit.isNegated, e)

/-- The position after the brace that closes the one before some edits, counted from
a position. -/
def afterBrace : Nat → Nat → List Edit → Nat
  | _, position, [] => position
  | depth, position, edit :: rest =>
    match edit.action, depth with
    | .letter '\x7b', _ => afterBrace (depth + 1) (position + 1) rest
    | .letter '\x7d', 0 => position + 1
    | .letter '\x7d', depth + 1 => afterBrace depth (position + 1) rest
    | _, _ => afterBrace depth (position + 1) rest

/-- The position of a place, or the end. -/
def placeOf (script : List Edit) (name : List Char) : Nat :=
  if name.isEmpty then script.length
  else (script.findIdx? fun edit => edit.action == .label name).getD script.length

/-- The line up to its first line end, and what comes after that. -/
def splitFirst (line : List Char) : List Char × List Char :=
  let first := line.takeWhile (· != '\n')
  (first, line.drop (first.length + 1))

/-- Run edits from a position on, in so many steps. -/
def run (script : List Edit) (isQuiet : Bool) : Nat → Nat → Editing → Editing
  | 0, _, e => e
  | fuel + 1, position, e =>
    let nextLine (e : Editing) : Editing :=
      match e.rest with
      | [] => e
      | line :: rest =>
        run script isQuiet fuel 0
          { e with line := line, number := e.number + 1, rest := rest, isChanged := false }
    match script[position]? with
    | none => nextLine (e.finish (!isQuiet))
    | some edit =>
      let (applies, e) := e.applies position edit
      let go := run script isQuiet fuel (position + 1)
      if !applies then
        if edit.action == .letter '\x7b' then
          run script isQuiet fuel
            (afterBrace 0 (position + 1) (script.drop (position + 1))) e
        else go e
      else
        match edit.action with
        | .substitute s =>
          let (line, isChanged) := s.apply e.line
          let e := { e with line := line, isChanged := e.isChanged || isChanged }
          go (if isChanged && s.isWritten then e.writeLine else e)
        | .exchange pairs =>
          go { e with line := e.line.map fun c => (pairs.lookup c).getD c }
        | .insert 'a' text => go { e with appended := text :: e.appended }
        | .insert 'i' text => go (e.write text)
        | .insert _ text => nextLine ((e.write text).finish false)
        | .label _ => go e
        | .branch isConditional name =>
          if isConditional && !e.isChanged then go e
          else
            run script isQuiet fuel (placeOf script name)
              (if isConditional then { e with isChanged := false } else e)
        | .letter letter =>
          match letter with
          | 'p' => go e.writeLine
          | 'P' => go (e.write (splitFirst e.line).1)
          | 'd' => nextLine (e.finish false)
          | 'D' =>
            if e.line.contains '\n' then
              run script isQuiet fuel 0 { e.finish false with line := (splitFirst e.line).2 }
            else nextLine (e.finish false)
          | 'q' => e.finish (!isQuiet)
          | '=' => go (e.write (Json.integerText e.number).toList)
          | 'n' =>
            match e.rest with
            | [] => e.finish (!isQuiet)
            | line :: rest =>
              go { e.finish (!isQuiet) with line := line, number := e.number + 1, rest := rest }
          | 'N' =>
            match e.rest with
            | [] => e.finish (!isQuiet)
            | line :: rest =>
              go { e with line := e.line ++ '\n' :: line, number := e.number + 1, rest := rest }
          | 'g' => go { e with line := e.held }
          | 'G' => go { e with line := e.line ++ '\n' :: e.held }
          | 'h' => go { e with held := e.line }
          | 'H' => go { e with held := e.held ++ '\n' :: e.line }
          | 'x' => go { e with line := e.held, held := e.line }
          | _ => go e

end Editing

/-- A text with a script of edits run on each of its lines. The last line ends as it did
in the text. -/
def edited (script : List Edit) (isQuiet : Bool) (text : List Char) : List Char :=
  match linesOf text with
  | [] => []
  | line :: rest =>
    let steps := 20 * (text.length + 4) * (script.length + 4)
    let e := Editing.run script isQuiet steps 0 ⟨line, [], 1, rest, [], [], [], false, false⟩
    let chars := unlines e.written.reverse
    if e.endsLast && isCutOff text then chars.dropLast else chars

end Dataflow.Shell
