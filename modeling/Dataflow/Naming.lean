/-
# Node names

Names of nodes are keys of value tables and names of compiled tasks, so they are
held to lower-case ASCII letters, digits and dashes, with no dash at either end.
`normalize` brings any text into this form. Generated names add a random suffix
of hexadecimal digits, read from a stream of random bytes.
-/

import Dataflow.Text.Blank

namespace Dataflow

/-- Whether a character may stand in a node name. -/
def isNameChar (c : Char) : Bool := c.isLower || c.isDigit || c == '-'

/-- A character made fit for a node name: ASCII letters in lower case, and a dash
for whatever may not stand there. -/
def nameChar (c : Char) : Char :=
  if isNameChar c.toLower then c.toLower else '-'

/-- The node name that a text stands for: every character made fit, without the
dashes at the ends; `node` if nothing is left. -/
def normalize (text : String) : String :=
  let kept := Text.trimBoth (· == '-') (text.toList.map nameChar)
  if kept.isEmpty then "node" else String.ofList kept

/-- An endless stream of random bytes, and how many of them have been used. -/
structure Entropy where
  /-- The byte at a position of the stream. -/
  byte : Nat → UInt8
  /-- The position of the next byte. -/
  used : Nat

/-- The two hexadecimal digits of a byte. -/
def byteDigits (byte : UInt8) : List Char :=
  [Nat.digitChar (byte.toNat / 16), Nat.digitChar (byte.toNat % 16)]

namespace Entropy

/-- The next bytes of the stream. -/
def take (entropy : Entropy) (count : Nat) : List UInt8 × Entropy :=
  ((List.range count).map fun offset => entropy.byte (entropy.used + offset),
    { entropy with used := entropy.used + count })

/-- A random suffix of hexadecimal digits. An odd length leaves the last digit of
the last byte unused. -/
def suffix (entropy : Entropy) (length : Nat) : String × Entropy :=
  let (bytes, rest) := entropy.take ((length + 1) / 2)
  (String.ofList ((bytes.flatMap byteDigits).take length), rest)

/-- A name generated from a base: normalized, with a dash and a random suffix
unless the suffix has no length. -/
def generateName (entropy : Entropy) (base : String) (length : Nat) : String × Entropy :=
  if length = 0 then (normalize base, entropy)
  else
    let (digits, rest) := entropy.suffix length
    (normalize base ++ "-" ++ digits, rest)

end Entropy

end Dataflow
