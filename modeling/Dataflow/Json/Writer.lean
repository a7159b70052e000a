/-
# Writing JSON

The text of a JSON tree, either without any white space or indented by two
spaces a level. Numbers that JSON cannot hold are written as `null`.
-/

import Dataflow.Decimal.Layout
import Dataflow.Json

namespace Dataflow.Json

/-- Positional from `1e-5` up to `1e16`, always with a point; beyond that with a
signed exponent. What is no number is `null`. -/
def numberLayout : Decimal.Layout where
  tie := .toEven
  positional := some (-5, 16)
  wholeSuffix := ".0"
  exponentMark := "e+"
  nan := "null"
  infinity := "null"
  negativeInfinity := "null"

/-- A hexadecimal digit. -/
def hexDigit (n : Nat) : Char := Nat.digitChar (n % 16)

/-- One character as it stands in a JSON string. -/
def escapedChar (c : Char) : List Char :=
  if c = '"' then ['\\', '"']
  else if c = '\\' then ['\\', '\\']
  else if c = '\x08' then ['\\', 'b']
  else if c = '\x0c' then ['\\', 'f']
  else if c = '\n' then ['\\', 'n']
  else if c = '\r' then ['\\', 'r']
  else if c = '\t' then ['\\', 't']
  else if c.toNat < 0x20 then ['\\', 'u', '0', '0', hexDigit (c.toNat / 16), hexDigit c.toNat]
  else [c]

def quotedText (s : String) : String :=
  String.ofList ('"' :: s.toList.flatMap escapedChar ++ ['"'])

def integerText (n : Int) : String :=
  if n < 0 then "-" ++ numeral n.natAbs else numeral n.natAbs

mutual

/-- The text without white space. -/
def compact : Json → String
  | .null => "null"
  | .boolean b => if b then "true" else "false"
  | .integer n => integerText n
  | .float x => numberLayout.text x
  | .string s => quotedText s
  | .array items => "[" ++ String.intercalate "," (compactItems items) ++ "]"
  | .object ⟨members⟩ => "\x7b" ++ String.intercalate "," (compactMembers members) ++ "\x7d"

/-- The texts of the items of an array. -/
def compactItems : List Json → List String
  | [] => []
  | item :: rest => compact item :: compactItems rest

/-- The texts of the members of an object. -/
def compactMembers : List (String × Json) → List String
  | [] => []
  | (name, member) :: rest =>
    (quotedText name ++ ":" ++ compact member) :: compactMembers rest

end

/-- The start of a line at a level. -/
def indentation (level : Nat) : String :=
  String.ofList (List.replicate (2 * level) ' ')

/-- A bracketed list of parts, each on a line of its own one level further in. -/
def bracketed (opening closing : String) (level : Nat) (parts : List String) : String :=
  if parts.isEmpty then opening ++ closing
  else
    let inner := "\n" ++ indentation (level + 1)
    opening ++ inner ++ String.intercalate ("," ++ inner) parts ++ "\n" ++
      indentation level ++ closing

mutual

/-- The indented text at a level. -/
def prettyAt (level : Nat) : Json → String
  | .array items => bracketed "[" "]" level (prettyItems (level + 1) items)
  | .object ⟨members⟩ => bracketed "\x7b" "\x7d" level (prettyMembers (level + 1) members)
  | scalar => compact scalar

/-- The indented texts of the items of an array. -/
def prettyItems (level : Nat) : List Json → List String
  | [] => []
  | item :: rest => prettyAt level item :: prettyItems level rest

/-- The indented texts of the members of an object. -/
def prettyMembers (level : Nat) : List (String × Json) → List String
  | [] => []
  | (name, member) :: rest =>
    (quotedText name ++ ": " ++ prettyAt level member) :: prettyMembers level rest

end

/-- The indented text. -/
def pretty (json : Json) : String := prettyAt 0 json

end Dataflow.Json
