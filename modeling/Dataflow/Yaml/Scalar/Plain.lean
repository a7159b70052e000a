/-
# Reading plain scalars

A scalar without quotes ends before a comment, before a colon that ends a key,
before a line that is not indented far enough, and inside brackets also before
what separates or closes.
-/

import Dataflow.Yaml.Scalar.Gap

namespace Dataflow.Yaml

/-- The marks that open, separate and close inside brackets. -/
def flowMarks : List Char := [',', '[', ']', '\x7b', '\x7d']

structure PlainScalar where
  /-- Its text. -/
  text : List Char
  /-- Whether a line has ended after it. -/
  endsLine : Bool
  rest : List Char

/-- Whether a character after white space cannot belong to the scalar. -/
def endsPlainAfterGap (inFlow : Bool) (indent column : Nat) (chars : List Char) : Bool :=
  (!inFlow && column < indent) || (column == 0 && atBound chars) || chars.head? == some '#'

/-- Whether a character cannot belong to the scalar. -/
def endsPlain (inFlow : Bool) (c : Char) (rest : List Char) : Bool :=
  (c == ':' && atWordEnd rest) || (inFlow && flowMarks.contains c)

/-- Whether a colon stands before a mark inside brackets, where it has no meaning. -/
def isStrayColon (inFlow : Bool) (c : Char) (rest : List Char) : Bool :=
  inFlow && c == ':' && rest.head?.any fun next => next == '?' || flowMarks.contains next

/-- The plain scalar that goes on here. What has been read of it is given last
character first, with the white space after that. -/
def readPlain? (inFlow : Bool) (indent column : Nat) (read : List Char) (gap : Gap) :
    List Char → Option PlainScalar
  | [] => some ⟨read.reverse, gap.endsLine, []⟩
  | c :: rest =>
    if isWhite c then
      if gap.endsLine && column < indent && c == '\t' then none
      else readPlain? inFlow indent (column + 1) read (gap.addBlank c) rest
    else if isBreak c then readPlain? inFlow indent 0 read (gap.addBreak c) rest
    else if !gap.isEmpty && endsPlainAfterGap inFlow indent column (c :: rest) then
      some ⟨read.reverse, gap.endsLine, c :: rest⟩
    else if isStrayColon inFlow c rest then none
    else if endsPlain inFlow c rest then some ⟨read.reverse, gap.endsLine, c :: rest⟩
    else readPlain? inFlow indent (column + 1) (c :: (gap.text.reverse ++ read)) .empty rest

end Dataflow.Yaml
