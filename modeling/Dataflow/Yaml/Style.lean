/-
# Styles of YAML scalars

How a text is written as a YAML scalar. Without quotes where nothing in it could
be read as something else, between single quotes where it could, between double
quotes where a character has to be escaped, and as a literal block where it has
several lines.
-/

import Dataflow.Yaml.Scalar

namespace Dataflow.Yaml

/-- A way to write a text. -/
inductive Style where
  | plain
  | singleQuoted
  | doubleQuoted
  | literal
deriving DecidableEq, Repr

/-- Whether a character ends a line. -/
def isBreak (c : Char) : Bool :=
  c = '\n' || c = '\r' || c = '\u0085' || c = '\u2028' || c = '\u2029'

/-- Whether a character may stand in a document without an escape. -/
def isPrintable (c : Char) : Bool :=
  let code := c.toNat
  code == 0x0A || (0x20 ≤ code && code ≤ 0x7E) || (0xA0 ≤ code && code ≤ 0xD7FF) ||
    (0xE000 ≤ code && code ≤ 0xFFFD && code != 0xFEFF) || 0x10000 ≤ code

/-- Whether two neighbours have these properties. -/
def hasNeighbours (first second : Char → Bool) (chars : List Char) : Bool :=
  (chars.zip (chars.drop 1)).any fun (c, next) => first c && second next

/-- Whether a text starts with what marks the bounds of a document. -/
def startsLikeBound (chars : List Char) : Bool :=
  ['-', '-', '-'].isPrefixOf chars || ['.', '.', '.'].isPrefixOf chars

/-- The characters that begin something other than a plain scalar. -/
def indicators : List Char :=
  ['#', ',', '[', ']', '\x7b', '\x7d', '&', '*', '!', '|', '>', '\'', '"', '%', '@', '\x60']

/-- Whether a text starts with an indicator; a question mark, a colon or a dash is
one before a space and at the end. -/
def startsWithIndicator : List Char → Bool
  | [] => false
  | c :: rest =>
    indicators.contains c ||
      (['?', ':', '-'].contains c && (rest.isEmpty || rest.head? == some ' '))

/-- Whether a text holds what separates a key from its value, or begins a comment. -/
def hasSeparator (chars : List Char) : Bool :=
  hasNeighbours (· == ':') (· == ' ') chars || chars.getLast? == some ':' ||
    hasNeighbours (· == ' ') (· == '#') chars

/-- Whether a space stands at an end of the text. -/
def hasOuterSpace (chars : List Char) : Bool :=
  chars.head? == some ' ' || chars.getLast? == some ' '

/-- Whether a text keeps its lines and spaces between single quotes. -/
def admitsSingleQuotes (chars : List Char) : Bool :=
  chars.all isPrintable && !hasNeighbours isBreak (· == ' ') chars &&
    !hasNeighbours (· == ' ') isBreak chars

/-- Whether a text keeps its lines and spaces in a literal block. -/
def admitsLiteral (chars : List Char) : Bool :=
  chars.all isPrintable && chars.getLast? != some ' ' && !hasNeighbours (· == ' ') isBreak chars

/-- Whether a text without quotes is one scalar. -/
def admitsPlain (chars : List Char) : Bool :=
  admitsSingleQuotes chars && !chars.any isBreak && !hasOuterSpace chars &&
    !startsLikeBound chars && !startsWithIndicator chars && !hasSeparator chars

/-- Whether a text without quotes would be read as itself, also by readers that
take padded numerals for numbers. -/
def readsAsText (text : String) : Bool :=
  Scalar.read text == .text && !isPaddedNumeral text

/-- The style in which a text is written. -/
def Style.ofText (text : String) : Style :=
  let chars := text.toList
  if chars.contains '\n' then
    if admitsLiteral chars then .literal else .doubleQuoted
  else if readsAsText text && admitsPlain chars then .plain
  else if admitsSingleQuotes chars then .singleQuoted
  else .doubleQuoted

end Dataflow.Yaml
