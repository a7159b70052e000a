/-
# Running components as commands

The backend that runs the command of a component's deployment. The inputs are given
as arguments, and the last line that the command writes holds the result. How a
command runs is the matter of a host.
-/

import Dataflow.Json.Reader
import Dataflow.Json.Writer
import Dataflow.Run
import Dataflow.Text.Blank
import Dataflow.Text.Utf8
import Dataflow.Value.Json

namespace Dataflow

/-- A command with what it starts from. -/
structure Command where
  program : String
  arguments : List String
  /-- The directory to run in, if it is not that of the host. -/
  directory : Option String
  /-- The variables that are set for it. -/
  environment : Named String
deriving DecidableEq, Repr

/-- What a command left when it ended. -/
structure Finished where
  /-- How it failed, if it did. -/
  failure : Option ExitStatus
  output : List Text.Byte
  /-- What it complained about. -/
  complaints : List Text.Byte

/-- A place where commands run, unless they cannot be started. -/
abbrev Host := Command → Except StartFault Finished

/-- An input as an argument. A record is written as JSON. -/
def argumentText (name : String) : Value → String
  | .record fields => "--" ++ name ++ "=" ++ (Value.record fields).toJson.compact
  | v => "--" ++ name ++ "=" ++ v.text

/-- The result in what a command wrote: the last line that is not blank is an object
with the result as its member `output`. -/
def readOutput (component text : String) : Except GraphError Value :=
  match Text.lastLine? text with
  | none => .error (.backend component .noOutput)
  | some line =>
    match Json.read? line with
    | none => .error (.backend component (.malformedOutput line))
    | some json =>
      match json.member? "output" with
      | none => .error (.backend component (.noResultKey line))
      | some result =>
        (Value.ofJson result).mapError fun violation =>
          .backend component (.unusableResult violation)

/-- The result of a command that has ended. -/
def Finished.result (finished : Finished) (component : String) : Except GraphError Value :=
  match finished.failure with
  | some status =>
    let complaint := Text.trim (Text.decodeLossy finished.complaints)
    .error (.backend component (.exited status complaint))
  | none => readOutput component (Text.decodeLossy finished.output)

/-- The backend that runs commands on a host, in a directory and with variables. -/
def Backend.command (host : Host) (directory : Option String) (environment : Named String) :
    Backend Unit where
  name := "process"
  runComponent := fun c inputs _ =>
    match c.deployment.command with
    | [] => (.error (.backend c.name .noCommand), ())
    | program :: leading =>
      let given := inputs.entries.map fun (name, v) => argumentText name v
      match host ⟨program, leading ++ given, directory, environment⟩ with
      | .error fault => (.error (.backend c.name (.notStarted program fault)), ())
      | .ok finished => (finished.result c.name, ())

end Dataflow
