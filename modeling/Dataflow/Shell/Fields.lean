/-
# Words after their expansion

What the pieces of a word become is a list of segments, which remember what may be cut
into several words and what may be a part of a pattern.
-/

import Dataflow.Shell.Chars
import Dataflow.Shell.Pattern

namespace Dataflow.Shell

/-- A part of what a word becomes. -/
inductive Segment where
  /-- Quoted characters, which stand for themselves. -/
  | fixed (chars : List Char)
  /-- Characters of the script, which may be a part of a pattern. -/
  | loose (chars : List Char)
  /-- A value, which may also be cut into words. -/
  | value (chars : List Char)
  | cut
deriving DecidableEq, Repr

namespace Segment

/-- The characters of segments with whether they stand for themselves. -/
def marked : List Segment → List Marked
  | [] => []
  | .fixed chars :: rest => chars.map (fun c => (c, true)) ++ marked rest
  | .loose chars :: rest | .value chars :: rest => chars.map (fun c => (c, false)) ++ marked rest
  | .cut :: rest => (' ', true) :: marked rest

/-- The characters of segments. -/
def chars (segments : List Segment) : List Char := (marked segments).map Prod.fst

/-- The text of segments. -/
def text (segments : List Segment) : String := String.ofList (chars segments)

/-- The pattern of segments. -/
def pattern (segments : List Segment) : Pattern := .ofMarked (marked segments)

/-- A segment of the script where values may be cut. -/
def loosened : Segment → Segment
  | .loose chars => .value chars
  | segment => segment

end Segment

/-- Words that are being put together. -/
structure Fields where
  /-- The complete words, last first. -/
  complete : List (List Marked)
  /-- The word that has begun. -/
  begun : Option (List Marked)
  /-- Whether a blank has ended the word before. -/
  isAfterBlank : Bool

namespace Fields

/-- No words. -/
def none : Fields := ⟨[], Option.none, false⟩

/-- With characters at the end of the last word. -/
def add (fields : Fields) (chars : List Marked) : Fields :=
  { fields with begun := some (fields.begun.getD [] ++ chars), isAfterBlank := false }

/-- With the last word complete, if it has begun. -/
def finish (fields : Fields) : Fields :=
  match fields.begun with
  | some word => ⟨word :: fields.complete, Option.none, false⟩
  | Option.none => fields

/-- After a character of a value. Blanks among the marks end a word that has begun; any
other mark ends a word even if nothing is in it, but only one of them does so together
with the blanks around it. -/
def read (marks : List Char) (fields : Fields) (c : Char) : Fields :=
  if !marks.contains c then fields.add [(c, false)]
  else if isGap c then
    match fields.begun with
    | some _ => { fields.finish with isAfterBlank := true }
    | Option.none => fields
  else if fields.begun.isNone && fields.isAfterBlank then { fields with isAfterBlank := false }
  else { fields.add [] |>.finish with isAfterBlank := false }

/-- With the words of segments. -/
def addSegments (marks : List Char) (fields : Fields) (segments : List Segment) : Fields :=
  segments.foldl
    (fun fields segment =>
      match segment with
      | .fixed chars => fields.add (chars.map fun c => (c, true))
      | .loose chars => if chars.isEmpty then fields else fields.add (chars.map fun c => (c, false))
      | .value chars => chars.foldl (read marks) fields
      | .cut => fields.finish)
    fields

end Fields

/-- The words that segments become. -/
def fieldsOf (marks : List Char) (segments : List Segment) : List (List Marked) :=
  (Fields.none.addSegments marks segments).finish.complete.reverse

/-- Characters without the blanks among marks at their start. -/
def withoutBlanks (marks : List Char) (chars : List Marked) : List Marked :=
  chars.dropWhile fun (c, isQuoted) => isGap c && marks.contains c && !isQuoted

/-- The first of some words and what comes after it. -/
def firstWord (marks : List Char) (chars : List Marked) : List Char × List Marked :=
  let isMark : Marked → Bool := fun (c, isQuoted) => marks.contains c && !isQuoted
  let word := chars.takeWhile (!isMark ·)
  let rest := withoutBlanks marks (chars.drop word.length)
  let rest :=
    match rest with
    | next :: after => if isMark next then withoutBlanks marks after else rest
    | [] => []
  (word.map Prod.fst, rest)

/-- A line cut into so many words, the last of which holds all that is left. -/
def lineFields (marks : List Char) : Nat → List Marked → List String
  | 0, _ => []
  | 1, chars =>
    let chars := (withoutBlanks marks chars.reverse).reverse
    let (single, rest) := firstWord marks chars
    [String.ofList (if rest.isEmpty then single else chars.map Prod.fst)]
  | count + 2, chars =>
    let (word, rest) := firstWord marks chars
    String.ofList word :: lineFields marks (count + 1) rest

/-- The words that a line is read as. -/
def readFields (marks : List Char) (count : Nat) (chars : List Marked) : List String :=
  lineFields marks count (withoutBlanks marks chars)

end Dataflow.Shell
