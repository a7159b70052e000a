/-
# Programs

The programs of a host and the files that it usually has. A program that runs another
one, or a script, is not among those that are described here.
-/

import Dataflow.Shell.Builtin
import Dataflow.Shell.Evaluation

namespace Dataflow.Shell

/-- A program, as what it leaves of a session in which it is run. -/
abbrev Program := Session → List String → Session

namespace Program

/-- Words without the mark at their start that no options follow. -/
def withoutMark (words : List String) : List String :=
  if words.head? == some "--" then words.drop 1 else words

/-- Write arguments on a line as they are, unless the first ones ask for something
else. -/
def echo : Program := fun s words =>
  match words with
  | "-n" :: rest => s.write (String.intercalate " " rest).toList
  | "-e" :: rest => s.write (Shell.echo rest)
  | "-E" :: rest => s.write (String.intercalate " " rest ++ "\n").toList
  | _ => s.write (String.intercalate " " words ++ "\n").toList

/-- The wording that programs have for a fault of a format. -/
def faultText : FormatFault → String
  | .noNumber argument => "'" ++ argument ++ "': expected a numeric value"
  | .notWhole argument => "'" ++ argument ++ "': value not completely converted"
  | .tooLarge argument => "'" ++ argument ++ "': Numerical result out of range"
  | .noDirective directive => directive ++ ": invalid conversion specification"
  | .noKind => "%: invalid conversion specification"

/-- Write a format with arguments. -/
def formatted : Program := fun s words =>
  match withoutMark words with
  | [] => s.withReport (.misuse 1 "printf" "missing operand")
  | format :: arguments =>
    let made := printf true format arguments
    let complaints := made.faults.flatMap fun fault => ("printf: " ++ faultText fault ++ "\n").toList
    let excess :=
      match if made.isEnded then [] else made.arguments with
      | [] => ""
      | word :: _ =>
        "printf: warning: ignoring excess arguments, starting with '" ++ word ++ "'\n"
    s.withReport ⟨if made.faults.isEmpty then 0 else 1, made.output, complaints ++ excess.toList⟩

/-- The wording that programs have for a fault of a test of some words. -/
def testText (words : List String) : TestFault → String
  | .noNumber word => "invalid integer '" ++ word ++ "'"
  | .unexpected word =>
    match words with
    | [_, last] => "missing argument after '" ++ last ++ "'"
    | [_, middle, _] => "'" ++ middle ++ "': binary operator expected"
    | _ => "extra argument '" ++ word ++ "'"
  | .noArgument _ | .noClose => "missing argument after '" ++ words.getLastD "" ++ "'"

/-- Make a test. -/
def tested (tool : String) : Program := fun s words =>
  if tool == "[" && words.getLast? != some "]" then
    s.withReport (.trouble 2 tool "missing ']'")
  else
    let words := if tool == "[" then words.dropLast else words
    match test s.lookup words with
    | .ok holds => s.withStatus (if holds then 0 else 1)
    | .error fault => s.withReport (.trouble 2 tool (testText words fault))

/-- A program that knows no options. -/
def withoutOptions (tool : String) (status : Nat) (program : Program) : Program := fun s words =>
  match Arguments.read ⟨[], [], longOptions tool, false⟩ words with
  | .ok arguments => program s arguments.operands
  | .error fault => s.withReport (.misuse status tool fault.message)

/-- Write the values of variables. -/
def printVariables : Program := fun s words =>
  let environment := s.environment
  if words.isEmpty then
    s.write (environment.entries.flatMap fun (name, value) => (name ++ "=" ++ value ++ "\n").toList)
  else
    let values := words.filterMap environment.get?
    (s.write (values.flatMap fun value => (value ++ "\n").toList)).withStatus
      (if values.length == words.length then 0 else 1)

/-- Wait for a time. -/
def sleep : Program := fun s words =>
  let isTime (word : String) : Bool :=
    let chars := word.toList
    let chars := if (chars.getLast?.any ['s', 'm', 'h', 'd'].contains) then chars.dropLast else chars
    (Decimal.readNumeral? false chars).isSome
  match words.find? fun word => !isTime word with
  | some word => s.withReport (.misuse 1 "sleep" ("invalid time interval '" ++ word ++ "'"))
  | none =>
    if words.isEmpty then s.withReport (.misuse 1 "sleep" "missing operand") else s.withStatus 0

/-- Write what is read to files as well. -/
def tee : Program := fun s words =>
  match Arguments.read ⟨['a', 'i'], [], longOptions "tee", false⟩ words with
  | .error fault => s.withReport (.misuse 1 "tee" fault.message)
  | .ok arguments =>
    let text := bytesOfChars s.input
    let after := arguments.operands.foldl
      (fun s path =>
        match channelOf? path, s.files.filePlace? s.directory path with
        | some channel, _ => s.writeTo channel s.input
        | none, some place =>
          let before :=
            match s.files.entryOf? place with
            | some (.file content) => if arguments.has 'a' then content else []
            | _ => []
          { s with files := s.files.putAt place (.file (before ++ text)) }
        | none, none =>
          let cause := if s.lookup path == some .directory then FileTrouble.directory else .missing
          s.withReport (.trouble 1 "tee" (path ++ ": " ++ cause.message)))
      (s.write s.input)
    { after with input := [] }

/-- Run a filter. What it reads is gone if it makes a difference. -/
def filtered (filter : Filter) : Program := fun s words =>
  let report := filter s.supply words
  let without := filter { s.supply with input := [] } words
  let isRead := report.output != without.output || report.status != without.status
  { s with input := if isRead then [] else s.input }.withReport report

/-- The programs that run no others. -/
def table : List (String × Program) :=
  [("[", tested "["), ("echo", echo), ("expr", fun s words => s.withReport (evaluation (withoutMark words))),
    ("false", fun s _ => s.withStatus 1), ("printenv", withoutOptions "printenv" 2 printVariables),
    ("printf", formatted),
    ("pwd", withoutOptions "pwd" 1 fun s _ => s.write (s.directory.path ++ "\n").toList),
    ("sleep", withoutOptions "sleep" 1 sleep), ("tee", tee), ("test", tested "test"),
    ("true", fun s _ => s.withStatus 0)]

/-- The program of a name, if it runs no others. -/
def of? (name : String) : Option Program :=
  (table.lookup name).or ((Filter.table.lookup name).map filtered)

/-- The programs that run others. -/
def running : List String := ["dash", "env", "sh"]

/-- The names of all programs. -/
def names : List String := table.map Prod.fst ++ Filter.table.map Prod.fst ++ running

def isKnown (name : String) : Bool := names.contains name

/-- The paths at which programs are looked for where no others are given. -/
def usualPath : String := "/usr/local/sbin:/usr/local/bin:/usr/sbin:/usr/bin:/sbin:/bin"

def isAt (s : Session) (path : String) : Bool :=
  (s.lookup path).any isProgram && isKnown ((stepsOf path).getLastD "")

/-- The path of the program that a command names; otherwise the status and what to
complain about. A name with a slash is a path, any other is looked for. The empty name
is that of the directories themselves. -/
def find (s : Session) (command : String) : Except (Nat × String) String :=
  if command.isEmpty then .error (127, "Permission denied")
  else if command.toList.contains '/' then
    if isAt s command then .ok command
    else if (s.lookup command).isSome then .error (126, "Permission denied")
    else .error (127, "not found")
  else
    let directories := Text.splitAt (· == ':') ((s.bindings.get? "PATH").getD "").toList
    let paths := directories.map fun directory =>
      (if directory.isEmpty then "" else String.ofList directory ++ "/") ++ command
    match paths.find? (isAt s) with
    | some path => .ok path
    | none => .error (127, "not found")

end Program

/-- The directories that a host usually has. -/
def usualDirectories : List String :=
  ["/bin", "/boot", "/dev", "/etc", "/home", "/lib", "/media", "/mnt", "/opt", "/proc", "/root",
    "/run", "/sbin", "/srv", "/sys", "/tmp", "/usr/bin", "/usr/include", "/usr/lib", "/usr/sbin",
    "/usr/share", "/usr/src", "/usr/local/bin", "/usr/local/lib", "/usr/local/share",
    "/var/cache", "/var/lib", "/var/log", "/var/spool", "/var/tmp"]

/-- The files that a host usually has: the programs and one without content. -/
def usualFiles : FileTree :=
  let programs := Program.names.flatMap fun name => ["/bin/" ++ name, "/usr/bin/" ++ name]
  let directories := usualDirectories.foldl
    (fun (tree : FileTree) path => tree.put path .directory) ⟨[]⟩
  (programs.foldl (fun tree path => tree.put path (.file programMark)) directories).put
    "/dev/null" (.file [])

end Dataflow.Shell
