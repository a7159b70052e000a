/-
# A host with a shell

A host on which shells and some other programs run, with the files that it is given. A
program sees nothing of what others have left there.
-/

import Dataflow.Run.Command
import Dataflow.Shell.Run

namespace Dataflow.Shell

/-- How deep actions may be within each other, and how often loops may go round. -/
def fuelLimit : Nat := 20000

/-- The variables that commands usually see. -/
def usualVariables : Named String :=
  .ofList [("HOME", "/root"), ("PATH", Program.usualPath)]

/-- The session in which a command starts, in a directory of a host with these files. -/
def Session.start (files : FileTree) (directory : Place) (environment : Named String) :
    Session where
  bindings := environment.insert "PWD" directory.path
  exported := environment.names
  constants := []
  functions := []
  traps := []
  options := []
  name := ""
  arguments := []
  locals := none
  loops := 0
  files := files
  directory := directory
  status := 0
  captured := 0
  jump := none
  line := 1
  input := []
  sinks := [(1, .collected 0), (2, .collected 1)]
  collected := [[], []]

/-- What a session leaves when it ends. -/
def Session.finish (s : Session) : Finished :=
  let failure :=
    match s.jump with
    | some (.killed _) => some ExitStatus.signal
    | _ => if s.status = 0 then none else some (.code s.status)
  ⟨failure, bytesOfChars (s.collected.getD 0 []), bytesOfChars (s.collected.getD 1 [])⟩

/-- All texts that belong to a command. -/
def textsOf (command : Command) : List String :=
  command.program :: command.arguments ++ command.directory.toList ++
    command.environment.entries.flatMap fun (name, value) => [name, value]

/-- The fault that lies in a path which leads nowhere. -/
def faultAt (files : FileTree) (home : Place) (path : String) : StartFault :=
  if files.isBlocked home path then .noDirectory else .missing

/-- The directory of a host that a command starts in. -/
def startPlace (files : FileTree) (command : Command) : Except StartFault Place :=
  match command.directory with
  | none => .ok []
  | some path =>
    match files.placeOf? [] path with
    | none => .error (faultAt files [] path)
    | some place =>
      if files.entryOf? place == some .directory then .ok place else .error .noDirectory

/-- A host with these files. Its own directory is at the top. -/
def host (files : FileTree) : Host := fun command => do
  if (textsOf command).any fun text => text.toList.contains '\x00' then .error .zeroCharacter
  else
    let place ← startPlace files command
    let environment := usualVariables.merge (command.environment.map narrow)
    let program := narrow command.program
    let s := Session.start files place environment
    match Program.find s program with
    | .error (126, _) => .error .forbidden
    | .error _ =>
      .error (if program.toList.contains '/' then faultAt files place program else .missing)
    | .ok _ =>
      .ok (runProgram fuelLimit program (command.arguments.map narrow) s).finish

end Dataflow.Shell
