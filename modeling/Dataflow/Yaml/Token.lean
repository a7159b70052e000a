/-
# YAML tokens

The parts of a YAML text. Indentation opens and closes blocks, and these are
tokens like the brackets that the text has. A key is announced before it is read.
-/

import Dataflow.Yaml.Directive
import Dataflow.Yaml.Written

namespace Dataflow.Yaml

/-- A part of a YAML text. -/
inductive Token where
  | directive (instruction : Directive)
  | documentStart
  | documentEnd
  | itemsOpen
  | membersOpen
  | blockClose
  | bracketOpen
  | bracketClose
  | braceOpen
  | braceClose
  | separator
  | item
  | key
  | value
  | anchor (name : String)
  | alias (name : String)
  | tag (spelling : TagSpelling)
  | scalar (form : Form) (text : String)
deriving DecidableEq, Repr

end Dataflow.Yaml
