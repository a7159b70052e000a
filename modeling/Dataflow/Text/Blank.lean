/-
# Blank characters

The characters with the White_Space property, trimming of texts, and the cut of
a text into lines.
-/

namespace Dataflow.Text

/-- Whether a character has the White_Space property: 25 characters, of which six
are ASCII. -/
def isBlank (c : Char) : Bool :=
  let code := c.toNat
  (0x09 ≤ code && code ≤ 0x0d) || code == 0x20 || code == 0x85 || code == 0xa0 ||
    code == 0x1680 || (0x2000 ≤ code && code ≤ 0x200a) || code == 0x2028 ||
    code == 0x2029 || code == 0x202f || code == 0x205f || code == 0x3000

/-- Characters without the leading ones that satisfy a test. -/
def trimStart (test : Char → Bool) (chars : List Char) : List Char :=
  chars.dropWhile test

/-- Characters without the trailing ones that satisfy a test. -/
def trimEnd (test : Char → Bool) (chars : List Char) : List Char :=
  (chars.reverse.dropWhile test).reverse

/-- Characters without those at either end that satisfy a test. -/
def trimBoth (test : Char → Bool) (chars : List Char) : List Char :=
  trimEnd test (trimStart test chars)

/-- A text without blank characters at its ends. -/
def trim (text : String) : String :=
  String.ofList (trimBoth isBlank text.toList)

/-- Whether a text holds only blank characters. -/
def isBlankText (text : String) : Bool :=
  text.toList.all isBlank

/-- The pieces of a list between the members that satisfy a test; one more than there
are such members. -/
def splitAt {α : Type} (test : α → Bool) : List α → List (List α)
  | [] => [[]]
  | c :: rest =>
    if test c then [] :: splitAt test rest
    else
      match splitAt test rest with
      | [] => [[c]]
      | piece :: pieces => (c :: piece) :: pieces

/-- The lines of a text, cut at its newlines. -/
def lines (text : String) : List String :=
  (splitAt (· == '\n') text.toList).map String.ofList

/-- The last line that is not blank, without the blanks at its ends. -/
def lastLine? (text : String) : Option String :=
  ((lines text).map trim).reverse.find? fun line => !line.isEmpty

/-- Join texts with a separator. -/
def join (separator : String) (texts : List String) : String :=
  String.intercalate separator texts

end Dataflow.Text
