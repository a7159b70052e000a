/-
# Reading block scalars

A block scalar is the lines that are indented further than what holds it. A
literal block keeps its line ends; in a folded block single line ends between
lines that do not start with white space become spaces. The header says what
becomes of the line ends after the last line.
-/

import Dataflow.Yaml.Scalar.Gap

namespace Dataflow.Yaml

/-- What becomes of the line ends after the last line of a block. -/
inductive Chomping where
  | strip
  /-- The first is kept. -/
  | clip
  | keep
deriving DecidableEq, Repr

/-- What the header of a block says. -/
structure BlockHeader where
  /-- What becomes of the last line ends. -/
  chomping : Chomping
  /-- How far the lines are indented, if that is stated. -/
  indent : Option Nat

/-- A mark of chomping at the start of a text. -/
def readChomping : List Char → Chomping × List Char
  | '+' :: rest => (.keep, rest)
  | '-' :: rest => (.strip, rest)
  | chars => (.clip, chars)

/-- A stated indentation at the start of a text; it cannot be zero. -/
def readIndent? : List Char → Option (Option Nat × List Char)
  | c :: rest =>
    if c = '0' then none
    else if c.isDigit then some (some (c.toNat - '0'.toNat), rest)
    else some (none, c :: rest)
  | [] => some (none, [])

/-- The header after the mark of a block, its two parts in either order, and what
comes after it. -/
def readHeader? (chars : List Char) : Option (BlockHeader × List Char) :=
  match readChomping chars with
  | (.clip, rest) => do
    let (indent, rest) ← readIndent? rest
    let (chomping, rest) := if indent.isSome then readChomping rest else (.clip, rest)
    return (⟨chomping, indent⟩, rest)
  | (chomping, rest) => do
    let (indent, rest) ← readIndent? rest
    return (⟨chomping, indent⟩, rest)

/-- What comes after the line of the header, on which only a comment may follow. -/
def afterHeaderLine? (chars : List Char) : Option (List Char) :=
  match chars.dropWhile isWhite with
  | '#' :: rest => some ((rest.dropWhile fun c => !isBreak c).drop 1)
  | c :: rest => if isBreak c then some rest else none
  | [] => some []

/-- Line ends before the next line of a block, and that line. -/
structure BlockBreaks where
  breaks : List Char
  /-- How many spaces stand before the next line, at most as many as the block is
  indented. -/
  column : Nat
  /-- The greatest number of spaces before a line end or the next line. -/
  widest : Nat
  rest : List Char

/-- Skip lines that hold only spaces. Where the indentation is known, further
spaces belong to a line; a tab cannot stand for the spaces that are missing. -/
def readBreaks? (indent : Option Nat) (read : List Char) (column widest : Nat) :
    List Char → Option BlockBreaks
  | [] => some ⟨read.reverse, column, max widest column, []⟩
  | c :: rest =>
    let missing := indent.all (column < ·)
    if missing && c == ' ' then readBreaks? indent read (column + 1) widest rest
    else if missing && c == '\t' then none
    else if isBreak c then readBreaks? indent (c :: read) 0 (max widest column) rest
    else some ⟨read.reverse, column, max widest column, c :: rest⟩

/-- A block scalar that is being read. -/
structure BlockText where
  /-- Its text before the last line end, last character first. -/
  read : List Char
  /-- The end of the last line, unless the text ended there. -/
  lineEnd : List Char
  /-- The line ends after that. -/
  further : List Char
  /-- Whether the last line started with white space. -/
  startedWhite : Bool

/-- The text with what stands between its last line and a next one. A folded line
end between two lines that do not start with white space is a space, or nothing if
further line ends follow. -/
def BlockText.bridged (isFolded nextStartsWhite : Bool) (block : BlockText) : List Char :=
  let between :=
    if isFolded && block.lineEnd == ['\n'] && !block.startedWhite && !nextStartsWhite then
      if block.further.isEmpty then [' '] else block.further
    else block.lineEnd ++ block.further
  between.reverse ++ block.read

/-- The text when no further line follows. -/
def BlockText.finished (chomping : Chomping) (block : BlockText) : List Char :=
  let kept :=
    match chomping with
    | .strip => []
    | .clip => block.lineEnd
    | .keep => block.lineEnd ++ block.further
  block.read.reverse ++ kept

/-- The lines of a block with an indentation, read one after the other. -/
def readLines? (isFolded : Bool) (chomping : Chomping) (indent : Nat) :
    Nat → BlockText → BlockBreaks → Option (List Char × List Char)
  | 0, _, _ => none
  | fuel + 1, block, ⟨_, column, _, rest⟩ =>
    if column == indent && !rest.isEmpty then do
      let startsWhite := rest.head?.any isWhite
      let line := rest.takeWhile fun c => !isBreak c
      let after := rest.dropWhile fun c => !isBreak c
      let next ← readBreaks? (some indent) [] 0 0 (after.drop 1)
      readLines? isFolded chomping indent fuel
        ⟨line.reverse ++ block.bridged isFolded startsWhite, after.take 1, next.breaks,
          startsWhite⟩ next
    else some (block.finished chomping, rest)

/-- The block scalar after its mark, with the indentation of what holds it, and
what comes after it. -/
def readBlock? (isFolded : Bool) (outer : Int) (chars : List Char) :
    Option (List Char × List Char) := do
  let (header, rest) ← readHeader? chars
  let rest ← afterHeaderLine? rest
  let stated := header.indent.map fun increment => (max outer 0).toNat + increment
  let first ← readBreaks? stated [] 0 0 rest
  let indent := stated.getD (max (max first.widest (outer + 1).toNat) 1)
  readLines? isFolded header.chomping indent (rest.length + 1)
    ⟨[], [], first.breaks, false⟩ first

end Dataflow.Yaml
