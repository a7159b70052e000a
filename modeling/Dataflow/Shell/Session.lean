/-
# Sessions of shell scripts

A session holds what a script can see and change. What is written to a channel goes to
where the channel leads: into a text that is collected, into a file, or nowhere.
-/

import Dataflow.FileTree
import Dataflow.Named
import Dataflow.Shell.Chars
import Dataflow.Shell.Filter
import Dataflow.Shell.Script

namespace Dataflow.Shell

/-- How a script leaves what it is doing. -/
inductive Jump where
  | ended
  | killed (signal : Nat)
  /-- It leaves some loops. -/
  | left (loops : Nat)
  /-- It goes on with the next round of the last of some loops. -/
  | again (loops : Nat)
  | returned
deriving DecidableEq, Repr

/-- Where what is written goes. -/
inductive Sink where
  | collected (position : Nat)
  | file (place : Place)
  | nowhere
deriving DecidableEq, Repr

/-- What a script can see and change. -/
structure Session where
  /-- The variables. -/
  bindings : Named String
  /-- The names of the variables that programs see. -/
  exported : List String
  /-- The names of the variables that keep their values. -/
  constants : List String
  functions : List (String × Action)
  /-- What is done on signals and at the end. -/
  traps : List (String × String)
  /-- The options that are set. -/
  options : List Char
  name : String
  arguments : List String
  /-- What the variables of the function at hand were before, if there is one. -/
  locals : Option (List (String × Option String))
  /-- How many loops the script is in. -/
  loops : Nat
  files : FileTree
  directory : Place
  /-- The status of the last command; zero means success. -/
  status : Nat
  /-- The status of the last script within a word. -/
  captured : Nat
  /-- How the script leaves what it is doing, if it does. -/
  jump : Option Jump
  line : Nat
  /-- What is there to read. -/
  input : List Char
  /-- Where the channels lead. -/
  sinks : List (Nat × Sink)
  /-- The collected texts. -/
  collected : List (List Char)

/-- The number that a script knows itself by. -/
def ownNumber : String := "1"

/-- The names and numbers of signals. -/
def signals : List (String × Nat) :=
  [("HUP", 1), ("INT", 2), ("QUIT", 3), ("ILL", 4), ("TRAP", 5), ("ABRT", 6), ("BUS", 7),
    ("FPE", 8), ("KILL", 9), ("USR1", 10), ("SEGV", 11), ("USR2", 12), ("PIPE", 13),
    ("ALRM", 14), ("TERM", 15), ("CHLD", 17), ("CONT", 18), ("URG", 23), ("WINCH", 28)]

/-- The signals that do nothing by themselves. -/
def harmlessSignals : List Nat := [0, 17, 18, 23, 28]

/-- The number of a signal that is named or numbered. -/
def signalOf? (text : String) : Option Nat :=
  (signals.lookup text).or
    ((natural? text.toList).filter fun n => n == 0 || signals.any fun signal => signal.2 == n)

/-- The channel that a path stands for. -/
def channelOf? (path : String) : Option Nat :=
  match path with
  | "/dev/stdin" => some 0
  | "/dev/stdout" => some 1
  | "/dev/stderr" => some 2
  | _ => if path.startsWith "/dev/fd/" then natural? (path.toList.drop 8) else none

/-- The characters that separate words where no others are given. -/
def usualMarks : String := " \t\n"

namespace Session

def withStatus (s : Session) (status : Nat) : Session := { s with status := status }

/-- With more written to a channel. -/
def writeTo (s : Session) (channel : Nat) (chars : List Char) : Session :=
  match s.sinks.lookup channel with
  | some (.collected position) =>
    { s with collected := s.collected.modify position (· ++ chars) }
  | some (.file place) =>
    let before :=
      match s.files.entryOf? place with
      | some (.file content) => content
      | _ => []
    { s with files := s.files.putAt place (.file (before ++ bytesOfChars chars)) }
  | _ => s

/-- With more written, and with success. -/
def write (s : Session) (chars : List Char) : Session := (s.writeTo 1 chars).withStatus 0

/-- With a complaint and a status other than zero. -/
def complain (s : Session) (status : Nat) (text : String) : Session :=
  (s.writeTo 2 (s.name ++ ": " ++ numeral s.line ++ ": " ++ text ++ "\n").toList).withStatus status

def leave (s : Session) : Session := { s with jump := some .ended }

/-- With a complaint after which a script ends. -/
def abort (s : Session) (status : Nat) (text : String) : Session := (s.complain status text).leave

/-- With what a tool leaves. -/
def withReport (s : Session) (report : Report) : Session :=
  ((s.writeTo 1 report.output).writeTo 2 report.complaints).withStatus report.status

/-- The characters that separate words. -/
def marks (s : Session) : List Char := ((s.bindings.get? "IFS").getD usualMarks).toList

def allArguments (s : Session) : String :=
  String.intercalate (String.ofList (s.marks.take 1)) s.arguments

/-- The value of a variable, or of one of the names that are set for every script. -/
def value? (s : Session) (name : String) : Option String :=
  match name with
  | "@" => if s.arguments.isEmpty then none else some (String.intercalate " " s.arguments)
  | "*" => if s.arguments.isEmpty then none else some s.allArguments
  | "#" => some (numeral s.arguments.length)
  | "?" => some (numeral s.status)
  | "$" => some ownNumber
  | "!" => none
  | "-" => some (String.ofList s.options)
  | "0" => some s.name
  | _ =>
    match natural? name.toList with
    | some position => s.arguments[position - 1]?
    | none => s.bindings.get? name

/-- With a value for a variable, unless it keeps the one that it has. -/
def assign (s : Session) (name value : String) : Session :=
  if s.constants.contains name then s.abort 2 (name ++ ": is read only")
  else
    { s with
      bindings := s.bindings.insert name value,
      exported := if s.options.contains 'a' then s.exported.insert name else s.exported }

/-- With a variable as it was. -/
def restore (s : Session) (name : String) (value : Option String) : Session :=
  { s with
    bindings :=
      match value with
      | some value => s.bindings.insert name value
      | none => s.bindings.erase name }

/-- The variables that programs see. -/
def environment (s : Session) : Named String :=
  ⟨s.bindings.entries.filter fun (name, _) => s.exported.contains name⟩

/-- What is at a path. -/
def lookup (s : Session) (path : String) : Option FileEntry :=
  match channelOf? path with
  | some channel =>
    if channel == 0 || (s.sinks.lookup channel).isSome then some (.file []) else none
  | none => s.files.entryFrom? s.directory path

/-- What a tool can read. -/
def supply (s : Session) : Supply where
  input := s.input
  read path :=
    match s.lookup path with
    | some (.file content) =>
      .ok (if channelOf? path == some 0 then s.input else charsOfBytes content)
    | some .directory => .error .directory
    | none => .error .missing

/-- After a script of its own has run: what it wrote and read stays, and so does its
status; an end of its own does not reach further. -/
def afterSeparate (s after : Session) : Session :=
  { s with
    status := after.status, input := after.input, files := after.files,
    collected := after.collected,
    jump :=
      match after.jump with
      | some (.killed signal) => some (.killed signal)
      | _ => s.jump }

/-- What an action writes, and the session after it. -/
def collect (s : Session) (run : Session → Session) : List Char × Session :=
  let position := s.collected.length
  let after := run
    { s with
      collected := s.collected ++ [[]],
      sinks := (1, .collected position) :: s.sinks }
  (after.collected.getD position [], { after with collected := after.collected.take position })

/-- With a channel that leads elsewhere. -/
def withSink (s : Session) (channel : Nat) (sink : Sink) : Session :=
  { s with sinks := (channel, sink) :: s.sinks }

/-- With a channel that leads to a file. A file that cannot be used makes a complaint. -/
def openFile (s : Session) (channel : Nat) (use : FileUse) (path : String) : Bool × Session :=
  match use with
  | .read =>
    match s.supply.read path with
    | .ok text => (true, { s with input := text })
    | .error .missing => (false, s.complain 2 ("cannot open " ++ path ++ ": No such file"))
    | .error .directory => (true, { s with input := [] })
  | .write | .append =>
    if path == "/dev/null" then (true, s.withSink channel .nowhere)
    else
      match channelOf? path, s.files.filePlace? s.directory path with
      | some other, _ => (true, s.withSink channel ((s.sinks.lookup other).getD .nowhere))
      | none, some place =>
        let isKept := use == .append && (s.files.entryOf? place).isSome
        let files := if isKept then s.files else s.files.putAt place (.file [])
        (true, { s with files := files }.withSink channel (.file place))
      | none, none =>
        let cause :=
          if s.lookup path == some .directory then "Is a directory" else "Directory nonexistent"
        (false, s.complain 2 ("cannot create " ++ path ++ ": " ++ cause))

/-- With a channel that leads to where another does, or nowhere. -/
def joinChannel (s : Session) (channel : Nat) (target : String) : Bool × Session :=
  if target == "-" then (true, s.withSink channel .nowhere)
  else
    match natural? target.toList with
    | some other =>
      if other == 0 || channel == 0 then (true, s)
      else
        match s.sinks.lookup other with
        | some sink => (true, s.withSink channel sink)
        | none => (false, s.complain 2 (target ++ ": Bad file descriptor"))
    | none => (false, s.abort 2 "Syntax error: Bad fd number")

end Session

end Dataflow.Shell
