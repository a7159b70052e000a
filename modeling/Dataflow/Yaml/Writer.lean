/-
# Writing YAML

The text of structured data in block style. Members stand under each other, two
spaces further in than the member that holds them; the items of a list are not
moved in. Empty lists and members are written as brackets. Lines are never folded.
-/

import Dataflow.Data
import Dataflow.Decimal.Layout
import Dataflow.Json.Writer
import Dataflow.Yaml.Style

namespace Dataflow.Yaml

/-- Positional from `1e-5` up to `1e16`, always with a point; beyond that with an
exponent that has a sign only when negative. -/
def numberLayout : Decimal.Layout where
  tie := .toEven
  positional := some (-5, 16)
  wholeSuffix := ".0"
  exponentMark := "e"
  nan := ".nan"
  infinity := ".inf"
  negativeInfinity := "-.inf"

def spaces (count : Nat) : List Char := List.replicate count ' '

/-- Hexadecimal digits in upper case, padded with zeros. -/
def paddedHex (width n : Nat) : List Char :=
  let digits := (Nat.toDigits 16 n).map Char.toUpper
  List.replicate (width - digits.length) '0' ++ digits

/-- The escape of a character that has a name. -/
def namedEscape? (c : Char) : Option Char :=
  [('\x00', '0'), ('\x07', 'a'), ('\x08', 'b'), ('\t', 't'), ('\n', 'n'), ('\x0b', 'v'),
    ('\x0c', 'f'), ('\r', 'r'), ('\x1b', 'e'), ('"', '"'), ('\\', '\\'), ('\u0085', 'N'),
    ('\u2028', 'L'), ('\u2029', 'P')].lookup c

/-- One character as it stands between double quotes. -/
def doubleQuotedChar (c : Char) : List Char :=
  match namedEscape? c with
  | some name => ['\\', name]
  | none =>
    if isPrintable c then [c]
    else if c.toNat ≤ 0xFF then ['\\', 'x'] ++ paddedHex 2 c.toNat
    else if c.toNat ≤ 0xFFFF then ['\\', 'u'] ++ paddedHex 4 c.toNat
    else ['\\', 'U'] ++ paddedHex 8 c.toNat

/-- Lines with an indentation: what follows a line end starts that far in, unless
it is a line end again. The flag says whether a line has just ended. -/
def indented (indent : Nat) : Bool → List Char → List Char
  | _, [] => []
  | atStart, c :: rest =>
    if isBreak c then c :: indented indent true rest
    else if atStart then spaces indent ++ c :: indented indent false rest
    else c :: indented indent false rest

/-- A text between single quotes. -/
def singleQuotedText (indent : Nat) (chars : List Char) : List Char :=
  let body := indented indent false (chars.flatMap fun c => if c = '\'' then [c, c] else [c])
  let closing := if chars.getLast?.any isBreak then spaces indent else []
  '\'' :: body ++ closing ++ ['\'']

/-- How the end of a literal block is marked: whether its last line ends, and
whether empty lines follow it. -/
def chomping (chars : List Char) : List Char :=
  match chars.reverse with
  | last :: before =>
    if !isBreak last then ['-']
    else if before.head?.all isBreak then ['+']
    else []
  | [] => ['-']

/-- A text as a literal block. Where its first line does not show the indentation,
the indentation is stated. -/
def literalText (indent : Nat) (chars : List Char) : List Char :=
  let stated := if chars.head?.any fun c => c == ' ' || isBreak c then ['2'] else []
  '|' :: stated ++ chomping chars ++ '\n' :: indented indent true chars

/-- A text as a scalar; its further lines have an indentation. -/
def scalarText (indent : Nat) (text : String) : List Char :=
  let chars := text.toList
  match Style.ofText text with
  | .plain => chars
  | .singleQuoted => singleQuotedText indent chars
  | .doubleQuoted => '"' :: chars.flatMap doubleQuotedChar ++ ['"']
  | .literal => literalText indent chars

/-- Whether a key stands on one line before its colon. -/
def isSimpleKey (key : String) : Bool :=
  !key.toList.any isBreak && key.utf8ByteSize ≤ 128

/-- Where a node stands. -/
structure Place where
  /-- The indentation of the list or members that hold the node, if any do. -/
  level : Option Nat
  /-- What separates the node from what is before it on the line. -/
  gap : List Char
  /-- Whether a list or members may start on this line. -/
  inline : Bool

namespace Place

/-- At the start of a document. -/
def document : Place := ⟨none, [], true⟩

/-- After a key and its colon. -/
def value (level : Nat) : Place := ⟨some level, [' '], false⟩

/-- After the mark of an item, of a key or of a value. -/
def marked (level : Nat) : Place := ⟨some level, [' '], true⟩

/-- After a tag. -/
def tagged (place : Place) : Place := ⟨place.level, [' '], false⟩

/-- The indentation of the further lines of a scalar. -/
def scalarIndent (place : Place) : Nat := place.level.getD 0 + 2

/-- The indentation of members. -/
def memberIndent (place : Place) : Nat :=
  match place.level with
  | some level => level + 2
  | none => 0

/-- The indentation of items. -/
def itemIndent (place : Place) : Nat :=
  if place.inline then place.memberIndent else place.level.getD 0

/-- What comes before the first of several lines at an indentation. -/
def opening (place : Place) (indent : Nat) : List Char :=
  if place.inline then place.gap else '\n' :: spaces indent

end Place

/-- A text with its last line ended. -/
def lineEnded (chars : List Char) : List Char :=
  if chars.getLast?.any isBreak then chars else chars ++ ['\n']

/-- Entries under each other at an indentation; the first line is already
indented. -/
def stacked (indent : Nat) : List (List Char) → List Char
  | [] => []
  | [entry] => entry
  | entry :: rest => lineEnded entry ++ spaces indent ++ stacked indent rest

/-- The text of a list at a place, given the texts of its items. -/
def listText (place : Place) (items : List (List Char)) : List Char :=
  if items.isEmpty then place.gap ++ ['[', ']']
  else place.opening place.itemIndent ++ stacked place.itemIndent items

/-- The text of named members at a place, given the texts of the members. -/
def objectText (place : Place) (members : List (List Char)) : List Char :=
  if members.isEmpty then place.gap ++ ['\x7b', '\x7d']
  else place.opening place.memberIndent ++ stacked place.memberIndent members

mutual

/-- The text of a node at a place. -/
def nodeText (place : Place) : Data → List Char
  | .null => place.gap ++ "null".toList
  | .boolean b => place.gap ++ (if b then "true" else "false").toList
  | .integer n => place.gap ++ (Json.integerText n).toList
  | .float x => place.gap ++ (numberLayout.text x).toList
  | .string s => place.gap ++ scalarText place.scalarIndent s
  | .variant name content => place.gap ++ '!' :: name.toList ++ nodeText place.tagged content
  | .array items => listText place (itemTexts place.itemIndent items)
  | .object ⟨members⟩ => objectText place (memberTexts place.memberIndent members)

def itemTexts (indent : Nat) : List Data → List (List Char)
  | [] => []
  | item :: rest => ('-' :: nodeText (.marked indent) item) :: itemTexts indent rest

def memberTexts (indent : Nat) : List (String × Data) → List (List Char)
  | [] => []
  | (key, member) :: rest =>
    let entry :=
      if isSimpleKey key then
        scalarText (indent + 2) key ++ ':' :: nodeText (.value indent) member
      else
        lineEnded ('?' :: ' ' :: scalarText (indent + 2) key) ++ spaces indent ++
          ':' :: nodeText (.marked indent) member
    entry :: memberTexts indent rest

end

/-- The document that holds data. -/
def write (data : Data) : String :=
  String.ofList (lineEnded (nodeText .document data))

end Dataflow.Yaml
