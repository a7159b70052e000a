/-
# Places in a YAML text

The characters of a document and the place that reading has reached. Line ends of
every kind but the two separators of Unicode are made one character first.
-/

import Dataflow.Yaml.Style

namespace Dataflow.Yaml

/-- Whether a character may occur in a document at all. -/
def isReadable (c : Char) : Bool :=
  isPrintable c || c == '\t' || c == '\r' || c == '\u0085' || c == '\ufeff'

/-- Whether a character separates words on a line. -/
def isWhite (c : Char) : Bool := c == ' ' || c == '\t'

/-- Whether a word ends here: at white space, a line end or the end of the text. -/
def atWordEnd : List Char → Bool
  | [] => true
  | c :: _ => isWhite c || isBreak c

/-- Whether what marks a bound of a document stands here. -/
def atBound (chars : List Char) : Bool :=
  startsLikeBound chars && atWordEnd (chars.drop 3)

/-- Every line end as one character. -/
def unifyBreaks : List Char → List Char
  | '\r' :: '\n' :: rest => '\n' :: unifyBreaks rest
  | c :: rest => (if c = '\r' || c = '\u0085' then '\n' else c) :: unifyBreaks rest
  | [] => []

/-- The characters of a document; none if one of them may not occur. -/
def documentChars? (text : String) : Option (List Char) :=
  if text.toList.all isReadable then some (unifyBreaks text.toList) else none

/-- A place in a text. -/
structure Cursor where
  /-- What is still to be read. -/
  rest : List Char
  /-- How many bytes the characters have that have been read. -/
  index : Nat
  /-- How many lines have ended. -/
  line : Nat
  /-- How many characters of this line have been read. -/
  column : Nat

namespace Cursor

def start (chars : List Char) : Cursor := ⟨chars, 0, 0, 0⟩

/-- The place that many characters further on. -/
def skip : Nat → Cursor → Cursor
  | 0, cursor => cursor
  | count + 1, ⟨c :: rest, index, line, column⟩ =>
    if isBreak c then skip count ⟨rest, index + c.utf8Size, line + 1, 0⟩
    else skip count ⟨rest, index + c.utf8Size, line, column + 1⟩
  | _ + 1, cursor => cursor

/-- The place where only this is still to be read. -/
def moveTo (cursor : Cursor) (rest : List Char) : Cursor :=
  cursor.skip (cursor.rest.length - rest.length)

end Cursor

end Dataflow.Yaml
