/-
# Paths that fit patterns

A word with signs of patterns stands for the paths that fit it, in order. Each step of
a path is a pattern of its own: no sign stands for a slash, nor for a dot at the start
of a name. A word that no path fits stands for itself.
-/

import Dataflow.FileTree
import Dataflow.Shell.Pattern

namespace Dataflow

/-- The names in a directory, and those of the directory itself and of the one above. -/
def FileTree.namesIn (tree : FileTree) (place : Place) : List String :=
  let below := tree.entries.filterMap fun (other, _) =>
    if place.isPrefixOf other then other[place.length]? else none
  "." :: ".." :: below.eraseDups

namespace Shell

/-- The characters of a word without the marks. -/
def plainText (word : List Marked) : String := String.ofList (word.map Prod.fst)

/-- Whether a word has a sign of patterns. -/
def hasSign (word : List Marked) : Bool :=
  word.any fun (c, isQuoted) => !isQuoted && (c == '*' || c == '?' || c == '[')

/-- The names in a directory that a step may stand for. -/
def namesFor (files : FileTree) (place : Place) (step : List Marked) : List String :=
  if hasSign step then
    let startsWithDot := step.head?.any fun (c, _) => c == '.'
    (files.namesIn place).filter fun name =>
      (startsWithDot || name.toList.head? != some '.') &&
        (Pattern.ofMarked step).fits name.toList
  else [plainText step]

/-- The paths that steps stand for after a path that leads to a place. -/
def pathsAfter (files : FileTree) : List (List Marked) → String → Place → List String
  | [], path, _ => [path]
  | step :: rest, path, place =>
    if files.entryOf? place == some .directory then
      (namesFor files place step).flatMap fun name =>
        if (files.entryOf? (place.after name)).isSome then
          pathsAfter files rest (path ++ name ++ if rest.isEmpty then "" else "/")
            (place.after name)
        else []
    else []

/-- The paths that a word stands for in a directory, or the word itself. -/
def pathsFor (files : FileTree) (directory : Place) (word : List Marked) : List String :=
  let text := plainText word
  let steps := Text.splitAt (fun (mark : Marked) => mark.1 == '/') word
  let paths := if hasSign word then pathsAfter files steps "" (directory.start text) else []
  if paths.isEmpty then [text] else paths.mergeSort (· ≤ ·)

end Shell

end Dataflow
