/-
# YAML scalars as they are written

A scalar keeps its text, the form that it has in the document and its tag until a
reader says what it wants. `Written.settled?` decides without a reader: the tag
decides first, then the form, and a plain scalar without a tag is what it looks like.
-/

import Dataflow.Yaml.Scalar
import Dataflow.Yaml.Tag

namespace Dataflow.Yaml

/-- The form of a scalar in a document. -/
inductive Form where
  | plain
  | literal
  /-- Between quotes, or as a block whose lines are joined. -/
  | other
deriving DecidableEq, Repr

/-- A scalar as it is written. -/
structure Written where
  text : String
  form : Form
  tag : Tag
deriving DecidableEq, Repr

namespace Written

/-- A node that is left out. -/
def missing (tag : Tag) : Written := ⟨"", .plain, tag⟩

/-- Whether the scalar has neither characters nor quotes. -/
def isEmpty (written : Written) : Bool := written.form == .plain && written.text.isEmpty

/-- Whether the scalar stands for nothing, when its tag has been read already. -/
def isNothing (written : Written) : Bool :=
  written.form == .plain && (written.text.isEmpty || isNullName written.text)

/-- Whether the scalar stands for something absent; undecided where its tag says so
and its text does not. -/
def isAbsent? (written : Written) : Option Bool :=
  if written.form != .plain then some false
  else
    match written.tag with
    | .absent => some (written.text.isEmpty || isNullName written.text)
    | .null => if isNullName written.text then some true else none
    | _ => some false

/-- The natural number that the scalar spells. A block spells one only under the tag of
integers, and a sign below zero is refused even before zero. -/
def natural? (written : Written) : Option Nat :=
  if written.form == .plain || (written.form == .literal && written.tag == .integer) then
    match integer? written.text.toList with
    | some n => if written.text.toList.head? == some '-' then none else some n.toNat
    | none => none
  else none

/-- What the scalar is when no reader says what it wants. The name of an alternative
needs a reader, and an integer has to fit 64 bits, signed or unsigned. -/
def settled? (written : Written) : Option Scalar :=
  let fitting (scalar : Scalar) : Option Scalar :=
    match scalar with
    | .integer n =>
      if Int64.minValue.toInt ≤ n ∧ n < UInt64.size then some scalar else none
    | decided => some decided
  match written.tag with
  | .alternative _ => none
  | .boolean => (boolean? written.text).map .boolean
  | .integer => (integer? written.text.toList).bind fun n => fitting (.integer n)
  | .float => (float? written.text).map .float
  | .null => if isNullName written.text then some .null else none
  | .absent | .unnamed =>
    if written.form == .plain then fitting (Scalar.read written.text) else some .text
  | .other => some .text

end Written

end Dataflow.Yaml
