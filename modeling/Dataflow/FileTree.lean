/-
# Files and directories

A tree of files and directories, and the places that paths lead to. A path is a list
of steps, which are taken one after the other. A step can be taken only from a
directory and only to what is there, so a path through something that is missing
leads nowhere, even where a later step goes back.
-/

import Dataflow.Text.Blank
import Dataflow.Text.Utf8

namespace Dataflow

/-- What is at a place. -/
inductive FileEntry where
  | file (content : List Text.Byte)
  | directory
deriving DecidableEq, Repr

/-- A place in a tree: the names on the way to it from the top. -/
abbrev Place := List String

/-- Files and directories by their places. Of two at one place the first counts. -/
structure FileTree where
  entries : List (Place × FileEntry)

/-- The steps of a path. -/
def stepsOf (path : String) : List String :=
  (Text.splitAt (· == '/') path.toList).map String.ofList

namespace Place

/-- Where a step leads from a place. Above the top there is only the top. -/
def after (place : Place) (step : String) : Place :=
  if step == "" || step == "." then place
  else if step == ".." then place.dropLast
  else place ++ [step]

/-- The place that a path starts at, given the one that it starts at unless it starts
at the top. -/
def start (place : Place) (path : String) : Place :=
  if path.toList.head? == some '/' then [] else place

/-- The path from the top to a place. -/
def path (place : Place) : String :=
  "/" ++ Text.join "/" place

end Place

namespace FileTree

/-- What is at a place. Whatever holds something is a directory, and so is the top. -/
def entryOf? (tree : FileTree) (place : Place) : Option FileEntry :=
  match tree.entries.lookup place with
  | some entry => some entry
  | none =>
    if place.isEmpty || tree.entries.any fun entry => place.isPrefixOf entry.1 then
      some .directory
    else none

/-- Where steps lead from a place. -/
def walk? (tree : FileTree) : Place → List String → Option Place
  | place, [] => some place
  | place, step :: rest =>
    if tree.entryOf? place == some .directory && (tree.entryOf? (place.after step)).isSome then
      tree.walk? (place.after step) rest
    else none

/-- The place that a path leads to from another. -/
def placeOf? (tree : FileTree) (home : Place) (path : String) : Option Place :=
  if path.isEmpty then none else tree.walk? (home.start path) (stepsOf path)

/-- What a path leads to from a place. -/
def entryFrom? (tree : FileTree) (home : Place) (path : String) : Option FileEntry :=
  (tree.placeOf? home path).bind tree.entryOf?

/-- What a path leads to from the top. -/
def entryAt? (tree : FileTree) (path : String) : Option FileEntry :=
  tree.entryFrom? [] path

/-- Whether a path leads through a file, from another place. -/
def isBlocked (tree : FileTree) (home : Place) (path : String) : Bool :=
  let steps := stepsOf path
  (List.range steps.length).any fun count =>
    match (tree.walk? (home.start path) (steps.take count)).bind tree.entryOf? with
    | some (.file _) => true
    | _ => false

/-- Where a file at a path belongs: its last step is new or leads to a file, and the
steps before it lead to a directory. -/
def filePlace? (tree : FileTree) (home : Place) (path : String) : Option Place :=
  match tree.placeOf? home path with
  | some place => if tree.entryOf? place == some .directory then none else some place
  | none => do
    let steps := stepsOf path
    let parent ← tree.walk? (home.start path) steps.dropLast
    let place := parent.after (steps.getLastD "")
    if tree.entryOf? parent == some .directory && parent.isPrefixOf place && place != parent then
      some place
    else none

/-- With a file or directory at a place. -/
def putAt (tree : FileTree) (place : Place) (entry : FileEntry) : FileTree :=
  ⟨(place, entry) :: tree.entries⟩

/-- The place at the end of steps, in a tree with directories at every place on the
way that held nothing. -/
def makeWay (tree : FileTree) : Place → List String → FileTree × Place
  | place, [] => (tree, place)
  | place, step :: rest =>
    let next := place.after step
    let tree := if (tree.entryOf? next).isSome then tree else tree.putAt next .directory
    tree.makeWay next rest

/-- With a file or directory at the end of a path, and directories on the way. -/
def put (tree : FileTree) (path : String) (entry : FileEntry) : FileTree :=
  let steps := stepsOf path
  let (tree, place) := tree.makeWay [] steps.dropLast
  tree.putAt (place.after (steps.getLastD "")) entry

end FileTree

end Dataflow
