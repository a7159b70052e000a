/-
# Sets of characters between brackets

A set lists characters, ranges of characters, and classes of characters by their
names. It may mean the characters that it does not list.
-/

namespace Dataflow.Shell

/-- A range of characters, both ends included. -/
abbrev CharRange := Char × Char

/-- A set of characters. -/
structure CharSet where
  /-- Whether the characters outside the ranges are meant. -/
  isNegated : Bool
  ranges : List CharRange
deriving DecidableEq, Repr

/-- A character that was written, and whether it was quoted. -/
abbrev Marked := Char × Bool

namespace CharSet

/-- Whether a set holds a character. -/
def contains (set : CharSet) (c : Char) : Bool :=
  set.isNegated != set.ranges.any fun (first, last) => first ≤ c && c ≤ last

/-- The lower case letters. -/
def lower : List CharRange := [('a', 'z')]

/-- The upper case letters. -/
def upper : List CharRange := [('A', 'Z')]

/-- The digits. -/
def digits : List CharRange := [('0', '9')]

/-- The marks: what is printed and neither a letter nor a digit. -/
def marks : List CharRange := [('!', '/'), (':', '@'), ('[', '\x60'), ('\x7b', '~')]

/-- The ranges of a class of characters. -/
def ofClass? (name : List Char) : Option (List CharRange) :=
  match String.ofList name with
  | "lower" => some lower
  | "upper" => some upper
  | "digit" => some digits
  | "alpha" => some (lower ++ upper)
  | "alnum" => some (lower ++ upper ++ digits)
  | "xdigit" => some (digits ++ [('a', 'f'), ('A', 'F')])
  | "blank" => some [(' ', ' '), ('\t', '\t')]
  | "space" => some [(' ', ' '), ('\t', '\x0d')]
  | "punct" => some marks
  | "graph" => some [('!', '~')]
  | "print" => some [(' ', '~')]
  | "cntrl" => some [('\x00', '\x1f'), ('\x7f', '\x7f')]
  | _ => none

/-- The class that is named here up to its closing mark, and what comes after it. -/
def readClass? (chars : List Marked) : Option (List CharRange × List Marked) :=
  let name := (chars.map Prod.fst).takeWhile fun c => c.isAlpha
  match chars.drop name.length with
  | (':', _) :: (']', _) :: rest => (ofClass? name).map fun ranges => (ranges, rest)
  | _ => none

/-- The ranges up to the closing bracket, and what comes after it, given at least as
much fuel as there are characters. A bracket that is quoted or stands first closes
nothing. -/
def readRanges? (isFirst : Bool) : Nat → List Marked → Option (List CharRange × List Marked)
  | 0, _ | _, [] => none
  | fuel + 1, (c, isQuoted) :: rest =>
    let single : Option (List CharRange × List Marked) :=
      match rest with
      | ('-', false) :: (last, isLastQuoted) :: after =>
        if last == ']' && !isLastQuoted then
          (readRanges? false fuel rest).map fun (ranges, after) => ((c, c) :: ranges, after)
        else (readRanges? false fuel after).map fun (ranges, after) => ((c, last) :: ranges, after)
      | _ => (readRanges? false fuel rest).map fun (ranges, after) => ((c, c) :: ranges, after)
    if c == ']' && !isQuoted && !isFirst then some ([], rest)
    else
      match c, rest with
      | '[', (':', false) :: name =>
        match readClass? name with
        | some (ranges, after) =>
          (readRanges? false fuel after).map fun (further, after) => (ranges ++ further, after)
        | none => single
      | _, _ => single

/-- The set after an opening bracket, and what comes after it. Certain signs at its
start mean the characters that it does not list. -/
def read? (negations : List Char) (chars : List Marked) : Option (CharSet × List Marked) :=
  let isNegated := chars.head?.any fun (c, isQuoted) => negations.contains c && !isQuoted
  (readRanges? true chars.length (if isNegated then chars.drop 1 else chars)).map
    fun (ranges, after) => (⟨isNegated, ranges⟩, after)

end CharSet

end Dataflow.Shell
