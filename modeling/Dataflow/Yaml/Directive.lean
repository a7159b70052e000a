/-
# YAML directives

The lines before a document that instruct its reader: the version of the format, and
namespaces of tags.
-/

import Dataflow.Yaml.Cursor
import Dataflow.Yaml.Tag

namespace Dataflow.Yaml

/-- An instruction to the reader of a document. -/
inductive Directive where
  | version (major minor : Nat)
  | tagStart (handle : String) (start : List Text.Byte)
deriving DecidableEq, Repr

/-- How many digits a part of a version may have. -/
def versionDigits : Nat := 9

/-- A part of a version, and what comes after it. -/
def readVersionPart? (chars : List Char) : Option (Nat × List Char) :=
  let digits := chars.takeWhile Char.isDigit
  if digits.isEmpty || versionDigits < digits.length then none
  else some (digits.foldl (fun n c => n * 10 + (c.toNat - '0'.toNat)) 0, chars.drop digits.length)

/-- A version, and what comes after it. -/
def readVersion? (chars : List Char) : Option (Directive × List Char) := do
  let (major, rest) ← readVersionPart? chars
  match rest with
  | '.' :: rest => do
    let (minor, rest) ← readVersionPart? rest
    return (.version major minor, rest)
  | _ => none

/-- The name of a namespace with the marks around it, and what comes after it. -/
def readHandle? (chars : List Char) : Option (String × List Char) :=
  match chars with
  | '!' :: rest =>
    let name := rest.takeWhile isNameChar
    match rest.drop name.length with
    | '!' :: after => some (String.ofList ('!' :: name ++ ['!']), after)
    | after => if name.isEmpty then some ("!", after) else none
  | _ => none

/-- A namespace of tags, and what comes after it. -/
def readNamespace? (chars : List Char) : Option (Directive × List Char) := do
  let (handle, rest) ← readHandle? chars
  if !rest.head?.any isWhite then none
  else
    let rest := rest.dropWhile isWhite
    let (start, after) ← readTagBytes? true rest
    if after.length == rest.length || !atWordEnd after then none
    else return (.tagStart handle start, after)

/-- What comes after the end of a line that holds nothing but a comment. -/
def afterDirective? (chars : List Char) : Option (List Char) :=
  match chars.dropWhile isWhite with
  | '#' :: comment => some ((comment.dropWhile fun c => !isBreak c).drop 1)
  | rest => if rest.isEmpty || rest.head?.any isBreak then some (rest.drop 1) else none

/-- A directive after its mark, and what comes after its line. -/
def readDirective? (chars : List Char) : Option (Directive × List Char) := do
  let name := chars.takeWhile isNameChar
  let rest := chars.drop name.length
  if !atWordEnd rest then none
  else
    let rest := rest.dropWhile isWhite
    let (directive, rest) ←
      if name == "YAML".toList then readVersion? rest
      else if name == "TAG".toList then readNamespace? rest
      else none
    return (directive, ← afterDirective? rest)

end Dataflow.Yaml
