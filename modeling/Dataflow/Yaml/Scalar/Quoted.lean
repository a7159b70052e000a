/-
# Reading quoted scalars

Between single quotes only the quote itself is special, and it is doubled. Between
double quotes a backslash starts an escape; before a line end it joins the lines.
-/

import Dataflow.Yaml.Scalar.Gap

namespace Dataflow.Yaml

/-- The text of a quoted scalar, and what is still to be read after it. -/
structure QuotedScalar where
  text : List Char
  rest : List Char

/-- Whether a bound of the document stands at the start of a line here. -/
def crossesBound (lineStart : Bool) (chars : List Char) : Bool := lineStart && atBound chars

/-- The scalar between single quotes that goes on here. What has been read of it is
given last character first, with the white space after that. -/
def readSingleQuoted? (lineStart : Bool) (read : List Char) (gap : Gap) :
    List Char → Option QuotedScalar
  | [] => none
  | '\'' :: '\'' :: rest =>
    readSingleQuoted? false ('\'' :: (gap.text.reverse ++ read)) .empty rest
  | '\'' :: rest => some ⟨(gap.text.reverse ++ read).reverse, rest⟩
  | c :: rest =>
    if isWhite c then readSingleQuoted? false read (gap.addBlank c) rest
    else if isBreak c then readSingleQuoted? true read (gap.addBreak c) rest
    else if crossesBound lineStart (c :: rest) then none
    else readSingleQuoted? false (c :: (gap.text.reverse ++ read)) .empty rest

/-- The character that an escape of one letter stands for. -/
def escaped? (c : Char) : Option Char :=
  [('0', '\x00'), ('a', '\x07'), ('b', '\x08'), ('t', '\t'), ('\t', '\t'), ('n', '\n'),
    ('v', '\x0b'), ('f', '\x0c'), ('r', '\r'), ('e', '\x1b'), (' ', ' '), ('"', '"'),
    ('/', '/'), ('\\', '\\'), ('N', '\u0085'), ('_', '\u00a0'), ('L', '\u2028'),
    ('P', '\u2029')].lookup c

/-- The character that hexadecimal digits name. -/
def namedChar? (digits : List Char) : Option Char :=
  (numeralIn? 16 digits).bind fun code =>
    if code < 0xD800 || (0xDFFF < code && code ≤ 0x10FFFF) then some (Char.ofNat code) else none

/-- The scalar between double quotes that goes on here. What has been read of it is
given last character first, with the white space after that. -/
def readDoubleQuoted? (lineStart : Bool) (read : List Char) (gap : Gap) :
    List Char → Option QuotedScalar
  | [] => none
  | '"' :: rest => some ⟨(gap.text.reverse ++ read).reverse, rest⟩
  | '\\' :: 'x' :: a :: b :: rest =>
    match namedChar? [a, b] with
    | some c => readDoubleQuoted? false (c :: (gap.text.reverse ++ read)) .empty rest
    | none => none
  | '\\' :: 'u' :: a :: b :: c :: d :: rest =>
    match namedChar? [a, b, c, d] with
    | some c => readDoubleQuoted? false (c :: (gap.text.reverse ++ read)) .empty rest
    | none => none
  | '\\' :: 'U' :: a :: b :: c :: d :: e :: f :: g :: h :: rest =>
    match namedChar? [a, b, c, d, e, f, g, h] with
    | some c => readDoubleQuoted? false (c :: (gap.text.reverse ++ read)) .empty rest
    | none => none
  | '\\' :: c :: rest =>
    if isBreak c then readDoubleQuoted? true (gap.text.reverse ++ read) (.joined []) rest
    else
      match escaped? c with
      | some meant => readDoubleQuoted? false (meant :: (gap.text.reverse ++ read)) .empty rest
      | none => none
  | c :: rest =>
    if isWhite c then readDoubleQuoted? false read (gap.addBlank c) rest
    else if isBreak c then readDoubleQuoted? true read (gap.addBreak c) rest
    else if crossesBound lineStart (c :: rest) then none
    else readDoubleQuoted? false (c :: (gap.text.reverse ++ read)) .empty rest

end Dataflow.Yaml
