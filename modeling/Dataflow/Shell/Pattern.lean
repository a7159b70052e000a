/-
# Patterns of shell scripts

A pattern describes texts: an asterisk stands for any characters, a question mark
for any one, brackets for one of a set, and every other character for itself. What
fits a pattern can be cut off at either end of a text.
-/

import Dataflow.Shell.CharSet

namespace Dataflow.Shell

/-- A part of a pattern. -/
inductive PatternPart where
  | anyRun
  | anyOne
  | oneOf (set : CharSet)
  | only (c : Char)
deriving DecidableEq, Repr

/-- A description of texts. -/
abbrev Pattern := List PatternPart

namespace Pattern

/-- The pattern that characters spell, given at least as much fuel as there are
characters. A character that is quoted or follows a backslash stands for itself, and
so does a bracket that is not closed. -/
def ofMarkedWithin : Nat → List Marked → Pattern
  | 0, _ | _, [] => []
  | fuel + 1, (c, true) :: rest => .only c :: ofMarkedWithin fuel rest
  | fuel + 1, ('*', false) :: rest => .anyRun :: ofMarkedWithin fuel rest
  | fuel + 1, ('?', false) :: rest => .anyOne :: ofMarkedWithin fuel rest
  | fuel + 1, ('\\', false) :: (c, _) :: rest => .only c :: ofMarkedWithin fuel rest
  | fuel + 1, ('[', false) :: rest =>
    match CharSet.read? ['!'] rest with
    | some (set, after) => .oneOf set :: ofMarkedWithin fuel after
    | none => .only '[' :: ofMarkedWithin fuel rest
  | fuel + 1, (c, false) :: rest => .only c :: ofMarkedWithin fuel rest

/-- The pattern that characters spell. -/
def ofMarked (chars : List Marked) : Pattern := ofMarkedWithin chars.length chars

/-- Whether a text fits a pattern. -/
def fits : Pattern → List Char → Bool
  | [], text => text.isEmpty
  | .only c :: rest, text =>
    match text with
    | found :: text => c == found && fits rest text
    | [] => false
  | .oneOf set :: rest, text =>
    match text with
    | found :: text => set.contains found && fits rest text
    | [] => false
  | .anyOne :: rest, text =>
    match text with
    | _ :: text => fits rest text
    | [] => false
  | .anyRun :: rest, text => (List.range (text.length + 1)).any fun count =>
      fits rest (text.drop count)

/-- A text without its shortest or longest start that fits. -/
def cutStart (pattern : Pattern) (longest : Bool) (text : List Char) : List Char :=
  let counts := List.range (text.length + 1)
  match (if longest then counts.reverse else counts).find? fun count =>
      pattern.fits (text.take count) with
  | some count => text.drop count
  | none => text

/-- A text without its shortest or longest end that fits. -/
def cutEnd (pattern : Pattern) (longest : Bool) (text : List Char) : List Char :=
  let counts := List.range (text.length + 1)
  match (if longest then counts else counts.reverse).find? fun count =>
      pattern.fits (text.drop count) with
  | some count => text.take count
  | none => text

end Pattern

end Dataflow.Shell
