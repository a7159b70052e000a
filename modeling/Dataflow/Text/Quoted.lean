/-
# Quoted text

A text between double quotes in which every character can be seen: quotes and
backslashes are escaped, and so are characters that have no visible form or that
would merge with the character before them.
-/

import Dataflow.Text.Ranges

namespace Dataflow.Text

/-- The hexadecimal digits of a natural number, in lower case. -/
def hexDigits (n : Nat) : List Char := Nat.toDigits 16 n

/-- Whether a character is shown as it is between quotes. -/
def isShown (c : Char) : Bool :=
  !inRanges c.toNat unprintableRanges && !inRanges c.toNat graphemeExtenderRanges

/-- One character as it stands between quotes. -/
def quotedChar (c : Char) : List Char :=
  if c = '"' then ['\\', '"']
  else if c = '\\' then ['\\', '\\']
  else if c = '\n' then ['\\', 'n']
  else if c = '\t' then ['\\', 't']
  else if c = '\r' then ['\\', 'r']
  else if c = '\x00' then ['\\', '0']
  else if isShown c then [c]
  else ['\\', 'u', '\x7b'] ++ hexDigits c.toNat ++ ['\x7d']

/-- A text between double quotes. -/
def quoted (text : String) : String :=
  String.ofList ('"' :: text.toList.flatMap quotedChar ++ ['"'])

end Dataflow.Text
