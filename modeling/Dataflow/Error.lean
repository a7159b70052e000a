/-
# Errors

What can go wrong while a pipeline is traced, compiled, run or configured. Each
error is a cause with its data; `GraphError.message` words it.
-/

import Dataflow.Failure
import Dataflow.ValueType

namespace Dataflow

/-- What an argument is given to. -/
inductive Callee where
  | component
  | pipeline
deriving DecidableEq, Repr

def Callee.word : Callee → String
  | .component => "component"
  | .pipeline => "pipeline"

/-- How a pipeline came to violate the rules of graph construction. Expressions
are given by their texts. -/
inductive Violation where
  /-- A violation in the author's own words. -/
  | stated (message : String)
  | nestedRecord (record field : String)
  | repeatedField (record field : String)
  | nullValue
  | noReturnValue (pipeline : String)
  | unknownField (parent : String) (type : ValueType) (field : String)
  | positionOutOfRange (position : Nat) (parent : String) (type : ValueType)
  | fieldOfScalar (parent : String) (type : ValueType)
  | compositeField (field : String) (type : ValueType)
  | unordered (left right : ValueKind) (symbol : String)
  | constantGuard (left symbol right : String)
  | unorderableGuard (symbol : String) (left right : ValueKind)
  /-- The outputs of a component that returns a scalar are asked for. -/
  | noOutputs (component : String) (type : ValueType)
  | argumentNotGiven (pipeline name : String)
  | undeclaredReturn (component : String)
  | unknownParameter (callee : Callee) (function name : String)
  | repeatedArgument (callee : Callee) (function name : String)
  | missingArgument (component name : String)
  | argumentType (callee : Callee) (function name : String) (declared found : ValueType)
  | tooManyArguments (component : String) (parameters arguments : Nat)
  | constantDependency (text : String)
  | noDependency
  | returnType (pipeline : String) (declared found : ValueType)
  | returnsNothing (pipeline : String) (declared : ValueType)
  | nameTaken (pipeline name : String)
  /-- A field of a task output is taken whose type is no record. -/
  | outputNotRecord (parent : String) (type : ValueType)
  | noField (parent field : String)
  | noElement (parent : String) (position : Nat)
deriving DecidableEq

def Violation.message : Violation → String
  | .stated message => message
  | .nestedRecord record field =>
    s!"record '{record}' field '{field}' must be a string, integer, float or boolean"
  | .repeatedField record field => s!"record '{record}' declares field '{field}' twice"
  | .nullValue =>
    "null is not a valid value; expected string, integer, float, boolean or record"
  | .noReturnValue pipeline =>
    s!"pipeline '{pipeline}' has no return value and cannot be used as an input"
  | .unknownField parent type field => s!"'{parent}' of type {type.text} has no field '{field}'"
  | .positionOutOfRange position parent type =>
    s!"index {numeral position} is out of range for '{parent}' of type {type.text}"
  | .fieldOfScalar parent type =>
    s!"'{parent}' has type {type.text}; only record outputs have fields"
  | .compositeField field type =>
    s!"record field '{field}' must be a scalar, found {type.text}"
  | .unordered left right symbol =>
    s!"cannot order {left.name} and {right.name} with '{symbol}'"
  | .constantGuard left symbol right =>
    s!"condition {left} {symbol} {right} has no traceable operand"
  | .unorderableGuard symbol left right =>
    s!"'{symbol}' needs two numeric or two string operands, found {left.name} and {right.name}"
  | .noOutputs component type =>
    s!"component '{component}' returns {type.text} and has no outputs to unpack"
  | .argumentNotGiven pipeline name =>
    s!"pipeline '{pipeline}' was not given an argument named '{name}'"
  | .undeclaredReturn component => s!"component '{component}' has no return type declaration"
  | .unknownParameter callee function name =>
    s!"{callee.word} '{function}' has no parameter named '{name}'"
  | .repeatedArgument callee function name =>
    s!"argument '{name}' of {callee.word} '{function}' was given twice"
  | .missingArgument component name => s!"component '{component}' is missing argument '{name}'"
  | .argumentType callee function name declared found =>
    s!"argument '{name}' of {callee.word} '{function}' expects {declared.text}, found {found.text}"
  | .tooManyArguments component parameters arguments =>
    s!"component '{component}' takes {numeral parameters} arguments but {numeral arguments} were given"
  | .constantDependency text => s!"depends_on needs node references, found literal {text}"
  | .noDependency => "depends_on needs at least one node reference"
  | .returnType pipeline declared found =>
    s!"pipeline '{pipeline}' declares {declared.text} but returns {found.text}"
  | .returnsNothing pipeline declared =>
    s!"pipeline '{pipeline}' declares {declared.text} but returns nothing"
  | .nameTaken pipeline name => s!"pipeline '{pipeline}' already has a node named '{name}'"
  | .outputNotRecord parent type => s!"'{parent}' of type {type.text} is not a record"
  | .noField parent field => s!"'{parent}' has no field '{field}'"
  | .noElement parent position => s!"'{parent}' has no element {numeral position}"

/-- How a child process ended that did not succeed: with a code other than zero, or by
a signal. -/
inductive ExitStatus where
  | code (number : Nat)
  | signal
deriving DecidableEq, Repr

def ExitStatus.text : ExitStatus → String
  | .code number => numeral number
  | .signal => "signal"

/-- Why a command could not be started. -/
inductive StartFault where
  /-- The program or its directory is not there. -/
  | missing
  | forbidden
  | noDirectory
  | zeroCharacter
deriving DecidableEq, Repr

def StartFault.message : StartFault → String
  | .missing => "No such file or directory (os error 2)"
  | .forbidden => "Permission denied (os error 13)"
  | .noDirectory => "Not a directory (os error 20)"
  | .zeroCharacter => "nul byte found in provided data"

/-- How a backend failed to run a component. -/
inductive BackendFault where
  /-- A fault in the author's own words. -/
  | stated (message : String)
  | noBody
  | bodyFailed (failure : Failure)
  | noCommand
  | notStarted (program : String) (fault : StartFault)
  /-- The process failed; its complaint may be empty. -/
  | exited (status : ExitStatus) (complaint : String)
  | noOutput
  | malformedOutput (line : String)
  | noResultKey (line : String)
  | unusableResult (violation : Violation)
deriving DecidableEq

def Violation.report (violation : Violation) : String :=
  "Trace contract violated: " ++ violation.message

def BackendFault.message : BackendFault → String
  | .stated message => message
  | .noBody => "no in-process body is defined"
  | .bodyFailed failure => failure.message
  | .noCommand => "no command is configured"
  | .notStarted program fault => s!"failed to spawn '{program}': {fault.message}"
  | .exited status complaint =>
    let summary := s!"process exited with code {status.text}"
    if complaint.isEmpty then summary else summary ++ ": " ++ complaint
  | .noOutput => "process produced no output"
  | .malformedOutput line => s!"malformed output {Text.quoted line}"
  | .noResultKey line => s!"no 'output' key in {line}"
  | .unusableResult violation => violation.report

/-- What a component produced instead of its declared type. -/
inductive Produced where
  | ofKind (kind : ValueKind)
  | recordOfSize (size : Nat)
  | recordWithField (field : String)
deriving DecidableEq, Repr

def Produced.phrase : Produced → String
  | .ofKind kind => kind.name
  | .recordOfSize size => s!"a record with {numeral size} fields"
  | .recordWithField field => s!"a record with field '{field}'"

/-- Why the content of a file could not be read. -/
inductive FileFault where
  | notText
  | directory
deriving DecidableEq, Repr

def FileFault.message : FileFault → String
  | .notText => "stream did not contain valid UTF-8"
  | .directory => "Is a directory (os error 21)"

/-- What can go wrong while a pipeline is traced, compiled, run or configured. -/
inductive GraphError where
  | contract (violation : Violation)
  | nameNotProduced (name : String)
  | noOverload (operator : String) (attempted : List ValueKind)
      (available : List (List ValueKind))
  | backend (component : String) (fault : BackendFault)
  | output (component : String) (declared : ValueType) (produced : Produced)
  | settingsNotFound (path : String)
  | settingsMalformed (path : String)
  | unreadable (fault : FileFault)
  | other (failure : Failure)
deriving DecidableEq

/-- Kinds in parentheses, as the parameters of an overload are shown. -/
def kindsText (kinds : List ValueKind) : String :=
  "(" ++ String.intercalate ", " (kinds.map ValueKind.name) ++ ")"

namespace GraphError

def message : GraphError → String
  | .contract violation => violation.report
  | .nameNotProduced name => s!"Name '{name}' was referenced but never produced in this scope"
  | .noOverload operator attempted available =>
    let signatures := String.intercalate ", " (available.map kindsText)
    s!"No overload of '{operator}' matches signature {kindsText attempted}. " ++
      s!"Registered signatures: [{signatures}]"
  | .backend component fault => s!"Component '{component}' failed: {fault.message}"
  | .output component declared produced =>
    s!"Component '{component}' declared {declared.text} but produced {produced.phrase}"
  | .settingsNotFound path => s!"Configuration not found: {path}"
  | .settingsMalformed path => s!"Failed to parse config at {path}"
  | .unreadable fault => s!"IO error: {fault.message}"
  | .other failure => failure.headline

end GraphError

end Dataflow
