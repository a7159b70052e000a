/-
# White space inside scalars

White space inside a scalar belongs to its text only if more text follows. On one
line it is kept; across lines it folds: one line end becomes a space, and of
several the first is dropped.
-/

import Dataflow.Yaml.Cursor

namespace Dataflow.Yaml

/-- White space that has been read inside a scalar, last character first. -/
inductive Gap where
  | within (blanks : List Char)
  | between (breaks : List Char)
  /-- Line ends after one that was escaped. -/
  | joined (breaks : List Char)

namespace Gap

/-- No white space. -/
def empty : Gap := .within []

def isEmpty : Gap → Bool
  | .within [] => true
  | _ => false

/-- Whether a line has ended. -/
def endsLine : Gap → Bool
  | .within _ => false
  | _ => true

/-- One more blank: it counts only where no line has ended. -/
def addBlank (c : Char) : Gap → Gap
  | .within blanks => .within (c :: blanks)
  | gap => gap

/-- One more line end: white space before it does not count. -/
def addBreak (c : Char) : Gap → Gap
  | .within _ => .between [c]
  | .between breaks => .between (c :: breaks)
  | .joined breaks => .joined (c :: breaks)

/-- Line ends as they stand in the text. -/
def folded : List Char → List Char
  | ['\n'] => [' ']
  | '\n' :: further => further
  | breaks => breaks

/-- The text that white space stands for when more text follows. -/
def text : Gap → List Char
  | .within blanks => blanks.reverse
  | .between breaks => folded breaks.reverse
  | .joined breaks => breaks.reverse

end Gap

end Dataflow.Yaml
