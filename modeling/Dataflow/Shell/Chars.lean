/-
# Bytes in shell scripts

A shell works on bytes. They are written here as characters, each the one whose code
is the byte, so a text within a shell holds only characters below 256.
-/

import Dataflow.Decimal.Reader
import Dataflow.Text.Blank
import Dataflow.Text.Utf8

namespace Dataflow.Shell

open Text (Byte)

/-- Bytes as characters. -/
def charsOfBytes (bytes : List Byte) : List Char :=
  bytes.map fun byte => Char.ofNat byte.toNat

/-- The bytes that characters below 256 stand for. -/
def bytesOfChars (chars : List Char) : List Byte :=
  chars.map fun c => UInt8.ofNat c.toNat

/-- The bytes of a text as characters. -/
def charsOf (text : String) : List Char := charsOfBytes (Text.encode text)

/-- The bytes of a text as a text. -/
def narrow (text : String) : String := String.ofList (charsOf text)

/-- Whether a character may occur in the name of a variable. -/
def isNameChar (c : Char) : Bool := c.isAlphanum || c == '_'

/-- Whether characters are the name of a variable. -/
def isName (chars : List Char) : Bool :=
  match chars with
  | c :: _ => !c.isDigit && chars.all isNameChar
  | [] => false

/-- Whether a character separates words. -/
def isGap (c : Char) : Bool := c == ' ' || c == '\t' || c == '\n'

/-- The lines of a text without their ends. A line that is begun counts. -/
def linesOf (chars : List Char) : List (List Char) :=
  match (Text.splitAt (· == '\n') chars).reverse with
  | [] :: complete => complete.reverse
  | lines => lines.reverse

/-- Whether the last line of a text is without an end. -/
def isCutOff (chars : List Char) : Bool :=
  match chars.getLast? with
  | some c => c != '\n'
  | none => false

/-- Lines with their ends. -/
def unlines (lines : List (List Char)) : List Char :=
  lines.flatMap fun line => line ++ ['\n']

/-- Characters without the line ends at their end. -/
def withoutLineEnds (chars : List Char) : List Char :=
  Text.trimEnd (· == '\n') chars

/-- The natural number that digits spell, if characters are digits. -/
def natural? (chars : List Char) : Option Nat := (String.ofList chars).toNat?

/-- The integer that a text spells between blanks. -/
def decimal? (text : String) : Option Int :=
  let chars := Text.trimBoth isGap text.toList
  let (isNegative, digits) := Decimal.readSign chars
  if digits.isEmpty || !digits.all Char.isDigit then none
  else
    let n : Int := Decimal.spelled 0 digits
    some (if isNegative then -n else n)

end Dataflow.Shell
