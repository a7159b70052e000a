/-
# Finding settings

Settings are read from a file, or looked for at two places under a root, of which
the first that exists counts. Where there is none the default settings hold.
-/

import Dataflow.Error
import Dataflow.FileTree
import Dataflow.Settings.Document
import Dataflow.Yaml.Reader

namespace Dataflow

namespace Settings

/-- The settings of a YAML document; a blank one says nothing. -/
def ofYaml? (text : String) : Option Settings :=
  if Text.isBlankText text then some default else (Yaml.read? text).bind (Document.read? read)

/-- The settings in a file. -/
def load (tree : FileTree) (path : String) : Except GraphError Settings :=
  match tree.entryAt? path with
  | none => .error (.settingsNotFound path)
  | some .directory => .error (.unreadable .directory)
  | some (.file content) =>
    match Text.decode? content with
    | none => .error (.unreadable .notText)
    | some text =>
      match ofYaml? text with
      | none => .error (.settingsMalformed path)
      | some settings => .ok settings

/-- The paths under a root where settings may be, the first that counts first. -/
def candidates (root : String) : List String :=
  [root ++ "/.tracegraph.yml", root ++ "/.tracegraph/config.yml"]

/-- The settings that hold under a root. -/
def discover (tree : FileTree) (root : String) : Except GraphError Settings :=
  match (candidates root).find? fun path => (tree.entryAt? path).isSome with
  | some path => load tree path
  | none => .ok default

end Settings

end Dataflow
