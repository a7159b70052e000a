/-
# Documents and their readers

A document is a part with what its references stand for, and with two bounds: how
deep lists and members may nest where a reader looks, and how often references may
be followed. A reader is a function on a part. It goes into lists and members with
`Reading.within`, follows references with `Part.follow`, and never looks at what it
has no use for, so that only what is read counts.
-/

import Dataflow.Document.Part

namespace Dataflow

/-- A document that is to be read. -/
structure Document where
  root : Document.Part
  /-- What references stand for, each place once. -/
  places : List (Nat × Document.Part)
  /-- How deep lists and members may nest. -/
  depth : Nat
  /-- How often references may be followed. -/
  references : Nat

namespace Document

/-- What a reader knows where it is. -/
structure Scope where
  /-- What references stand for. -/
  places : List (Nat × Part)
  /-- How deep lists and members may nest from here. -/
  depth : Nat

/-- A reader, which knows its scope and how often references may still be followed. -/
abbrev Reading := ReaderT Scope (StateT Nat Option)

/-- Read in lists or members, which is one step deeper. -/
def Reading.within {α : Type} (reading : Reading α) : Reading α := fun scope =>
  if scope.depth = 0 then failure else reading { scope with depth := scope.depth - 1 }

/-- How often a reader may go deeper, where it is. -/
def Reading.depthLeft : Reading Nat := do return (← read).depth

/-- The part itself, or what it stands for. -/
def Part.follow (part : Part) : Reading Part :=
  match part with
  | .reference place => do
    let left ← get
    if left = 0 then failure
    set (left - 1)
    match (← read).places.lookup place with
    | some found => return found
    | none => failure
  | _ => return part

/-- The document of a part without references, which may nest as deep as it does. -/
def ofPart (root : Part) : Document := ⟨root, [], root.depth, 0⟩

/-- The document of a JSON tree. -/
def ofJson (json : Json) : Document := ofPart (.ofJson json)

/-- What a reader finds in a document. -/
def read? {α : Type} (reader : Part → Reading α) (document : Document) : Option α :=
  ((reader document.root ⟨document.places, document.depth⟩).run document.references).map
    Prod.fst

end Document

end Dataflow
