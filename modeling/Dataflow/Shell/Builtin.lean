/-
# Built-in tools

The tools that a shell has itself, as far as they run nothing else. Some of them end a
script where they fail.
-/

import Dataflow.Shell.Fields
import Dataflow.Shell.Format
import Dataflow.Shell.Session
import Dataflow.Shell.Test

namespace Dataflow.Shell

/-- A tool that is built in. -/
abbrev Builtin := Session → List String → Session

namespace Builtin

/-- A number among the arguments of a tool. -/
def withNumber (tool text : String) (s : Session) (run : Nat → Session) : Session :=
  match natural? text.toList with
  | some n => run n
  | none => s.abort 2 (tool ++ ": Illegal number: " ++ text)

/-- Write a format with arguments. -/
def formatted : Builtin := fun s words =>
  let words := if words.head? == some "--" then words.drop 1 else words
  match words with
  | [] => s.complain 2 "printf: usage: printf format [arg ...]"
  | format :: arguments =>
    match format.toList with
    | '-' :: letter :: _ =>
      s.complain 2 ("printf: Illegal option -" ++ String.ofList [letter])
    | _ =>
      let made := printf false format arguments
      let s := s.writeTo 1 made.output
      let s := made.faults.foldl (fun s fault => s.complain 1 ("printf: " ++ fault.message)) s
      s.withStatus
        (if made.faults.any FormatFault.isFinal then 2 else if made.faults.isEmpty then 0 else 1)

/-- Make a test. -/
def tested (tool : String) : Builtin := fun s words =>
  let isBracket := tool == "["
  if isBracket && words.getLast? != some "]" then s.complain 2 "[: missing ]"
  else
    match test s.lookup (if isBracket then words.dropLast else words) with
    | .ok holds => s.withStatus (if holds then 0 else 1)
    | .error fault => s.complain 2 (tool ++ ": " ++ fault.message)

/-- Go to a directory. -/
def changeDirectory : Builtin := fun s words =>
  let words := if words.head? == some "--" || words.head? == some "-P" || words.head? == some "-L"
    then words.drop 1 else words
  let isBack := words.head? == some "-"
  let path :=
    if isBack then (s.bindings.get? "OLDPWD").getD ""
    else words.headD ((s.bindings.get? "HOME").getD "")
  if path.isEmpty then s.withStatus 0
  else
    match s.files.placeOf? s.directory path with
    | some place =>
      if s.files.entryOf? place == some .directory then
        let s := (s.assign "OLDPWD" s.directory.path).assign "PWD" place.path
        let s := { s with directory := place }.withStatus 0
        if isBack then s.write (place.path ++ "\n").toList else s
      else s.complain 2 ("cd: can't cd to " ++ path)
    | none => s.complain 2 ("cd: can't cd to " ++ path)

/-- A line at the start of what is given, whether it is ended, and what comes after it.
A backslash keeps the character after it and joins a line with the next one, unless it
has no meaning. -/
def takeLine (isRaw : Bool) : List Char → List Marked × Bool × List Char
  | [] => ([], false, [])
  | '\n' :: rest => ([], true, rest)
  | '\\' :: c :: rest =>
    if isRaw then
      if c == '\n' then ([('\\', false)], true, rest)
      else
        let (line, isEnded, after) := takeLine isRaw rest
        (('\\', false) :: (c, false) :: line, isEnded, after)
    else
      let (line, isEnded, after) := takeLine isRaw rest
      (if c == '\n' then line else (c, true) :: line, isEnded, after)
  | c :: rest =>
    let (line, isEnded, after) := takeLine isRaw rest
    ((c, false) :: line, isEnded, after)

/-- Read a line into variables. -/
def readLine : Builtin := fun s words =>
  let isRaw := words.head? == some "-r"
  let names := if isRaw then words.drop 1 else words
  if names.isEmpty then s.complain 2 "read: arg count"
  else
    let (line, isEnded, after) := takeLine isRaw s.input
    let values := readFields s.marks names.length line
    let s := { s with input := after }
    ((names.zip values).foldl (fun s (name, value) => s.assign name value) s).withStatus
      (if isEnded then 0 else 1)

/-- Leave out arguments. -/
def shift : Builtin := fun s words =>
  withNumber "shift" (words.headD "1") s fun n =>
    if n > s.arguments.length then s.abort 2 "shift: can't shift that many"
    else { s with arguments := s.arguments.drop n }.withStatus 0

/-- The options that can be set, with their names. -/
def optionNames : List (String × Char) :=
  [("allexport", 'a'), ("notify", 'b'), ("noclobber", 'C'), ("errexit", 'e'), ("noglob", 'f'),
    ("ignoreeof", 'I'), ("interactive", 'i'), ("monitor", 'm'), ("noexec", 'n'), ("stdin", 's'),
    ("nounset", 'u'), ("verbose", 'v'), ("vi", 'V'), ("emacs", 'E'), ("xtrace", 'x')]

/-- With an option set or not. -/
def withOption (s : Session) (isSet : Bool) (letter : Char) : Session :=
  let others := s.options.filter (· != letter)
  { s with options := if isSet then others ++ [letter] else others }

/-- Set options and arguments. -/
def setOptions : Nat → Builtin
  | 0, s, _ => s
  | fuel + 1, s, words =>
    match words with
    | [] => s
    | "--" :: rest => { s with arguments := rest }
    | "-" :: rest => if rest.isEmpty then s else { s with arguments := rest }
    | word :: rest =>
      match word.toList with
      | sign :: letters =>
        let isSet := sign == '-'
        if sign != '-' && sign != '+' then { s with arguments := word :: rest }
        else if letters == ['o'] then
          match rest with
          | [] => s
          | name :: rest =>
            match optionNames.lookup name with
            | some letter => setOptions fuel (withOption s isSet letter) rest
            | none => s.abort 2 ("set: Illegal option " ++ word ++ " " ++ name)
        else
          match letters.find? fun letter => !optionNames.any fun option => option.2 == letter with
          | some letter => s.abort 2 ("set: Illegal option -" ++ String.ofList [letter])
          | none => setOptions fuel (letters.foldl (fun s letter => withOption s isSet letter) s) rest
      | [] => { s with arguments := word :: rest }

/-- The name and the value, if there is one, of an argument that sets a variable. -/
def splitAssignment (word : String) : String × Option String :=
  let name := word.toList.takeWhile (· != '=')
  (String.ofList name,
    if name.length == word.length then none
    else some (String.ofList (word.toList.drop (name.length + 1))))

/-- Do something to variables of which each may get a value. -/
def eachVariable (tool : String) (change : Session → String → Session) : Builtin := fun s words =>
  words.foldl
    (fun s word =>
      let (name, value) := splitAssignment word
      if s.jump.isSome || word == "-p" then s
      else if !isName name.toList then
        s.abort 2 (tool ++ ": " ++ name ++ ": bad variable name")
      else
        match value with
        | some value => change (s.assign name value) name
        | none => change s name)
    (s.withStatus 0)

/-- Let programs see variables. -/
def exportNames : Builtin :=
  eachVariable "export" fun s name => { s with exported := s.exported.insert name }

/-- Let variables keep their values. -/
def fixNames : Builtin :=
  eachVariable "readonly" fun s name => { s with constants := s.constants.insert name }

/-- Let variables have other values within a function. -/
def localNames : Builtin := fun s words =>
  match s.locals with
  | none => s.abort 2 "local: not in a function"
  | some saved =>
    let old := words.filterMap fun word =>
      let name := (splitAssignment word).1
      if saved.any fun entry => entry.1 == name then none else some (name, s.bindings.get? name)
    eachVariable "local" (fun s _ => s) { s with locals := some (old ++ saved) } words

/-- Take away variables or functions. -/
def unsetNames : Builtin := fun s words =>
  let isFunction := words.head? == some "-f"
  let names := if isFunction || words.head? == some "-v" then words.drop 1 else words
  names.foldl
    (fun s name =>
      if s.jump.isSome then s
      else if isFunction then
        { s with functions := s.functions.filter fun entry => entry.1 != name }
      else if !isName name.toList then s.abort 2 ("unset: " ++ name ++ ": bad variable name")
      else if s.constants.contains name then s.abort 2 ("unset: " ++ name ++ ": is read only")
      else { s with bindings := s.bindings.erase name })
    (s.withStatus 0)

/-- Leave loops or go on with the next round. -/
def leaveLoops (tool : String) (jump : Nat → Jump) : Builtin := fun s words =>
  withNumber tool (words.headD "1") s fun n =>
    if s.loops == 0 then s.withStatus 0
    else { s with jump := some (jump (min n s.loops)) }.withStatus 0

/-- End with a status. -/
def leaveWith (tool : String) (jump : Jump) : Builtin := fun s words =>
  match words with
  | [] => { s with jump := some jump }
  | text :: _ =>
    withNumber tool text s fun n => { s with jump := some jump, status := n % 256 }

/-- The name that a signal is kept under. -/
def trapName? (text : String) : Option String :=
  if text == "EXIT" || text == "0" then some "EXIT"
  else
    (signalOf? text).bind fun n => (signals.find? fun signal => signal.2 == n).map Prod.fst

/-- Say what is done on signals and at the end. -/
def setTraps : Builtin := fun s words =>
  let change (text : Option String) (s : Session) (name : String) : Session :=
    match trapName? name with
    | none => s.complain 1 ("trap: " ++ name ++ ": bad trap")
    | some key =>
      let others := s.traps.filter fun entry => entry.1 != key
      { s with
        traps :=
          match text with
          | some text => (key, text) :: others
          | none => others }
  match words with
  | [] => s.withStatus 0
  | [name] => change none (s.withStatus 0) name
  | text :: names =>
    names.foldl (change (if text == "-" then none else some text)) (s.withStatus 0)

/-- The tools that end a script where they fail, and whose variables stay. -/
def special : List String :=
  [":", ".", "break", "continue", "eval", "exec", "exit", "export", "readonly", "return", "set",
    "shift", "times", "trap", "unset"]

/-- The tools that run something else. -/
def running : List String := [".", "command", "eval", "exec", "kill", "type"]

/-- The tool of a name that runs nothing else. -/
def of? (name : String) : Option Builtin :=
  match name with
  | ":" | "true" | "wait" | "times" | "ulimit" => some fun s _ => s.withStatus 0
  | "false" => some fun s _ => s.withStatus 1
  | "echo" => some fun s words => s.write (echo words)
  | "printf" => some formatted
  | "test" | "[" => some (tested name)
  | "cd" => some changeDirectory
  | "pwd" => some fun s _ => s.write (s.directory.path ++ "\n").toList
  | "read" => some readLine
  | "shift" => some shift
  | "set" => some fun s words => setOptions (words.length + 1) (s.withStatus 0) words
  | "export" => some exportNames
  | "readonly" => some fixNames
  | "local" => some localNames
  | "unset" => some unsetNames
  | "break" => some (leaveLoops "break" .left)
  | "continue" => some (leaveLoops "continue" .again)
  | "exit" => some (leaveWith "exit" .ended)
  | "return" => some (leaveWith "return" .returned)
  | "trap" => some setTraps
  | "umask" => some fun s _ => s.write "0022\n".toList
  | _ => none

/-- Whether a tool is built in. -/
def isKnown (name : String) : Bool := (of? name).isSome || running.contains name

end Builtin

end Dataflow.Shell
