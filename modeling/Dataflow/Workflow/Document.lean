/-
# Workflows as documents

Workflows as structured data. An argument says its kind and has its content under
`value`; a task says its type among its own fields. Lists, maps and guards that
are empty are not written.

The fields that depend on the type of a task are read once the type is known, and
so is the content of an argument that comes before its kind. Until then they are
decided without a reader.
-/

import Dataflow.Deployment.Document
import Dataflow.ValueType.Document
import Dataflow.Workflow

namespace Dataflow

open Document

/-- Named data that is left out when there is none. -/
def membersUnlessEmpty (name : String) (members : List (String × Data)) :
    List (String × Data) :=
  if members.isEmpty then [] else [(name, .ofMembers members)]

namespace Argument

mutual

def toData : Argument → Data
  | .literal v => .ofMembers [("kind", .string "literal"), ("value", v.toData)]
  | .output task field =>
    .ofMembers
      [("kind", .string "task_output"),
        ("value", .ofMembers (("task", .string task) :: Data.optional "field" .string field))]
  | .record ⟨fields⟩ =>
    .ofMembers [("kind", .string "record"), ("value", .ofMembers (fieldsToData fields))]

def fieldsToData : List (String × Argument) → List (String × Data)
  | [] => []
  | (name, argument) :: rest => (name, toData argument) :: fieldsToData rest

end

/-- The kinds of arguments. -/
def kinds : List String := ["literal", "task_output", "record"]

/-- The output of a task that a part of a document names; a list names none. -/
def readOutput (given : Part) : Reading Argument := do
  match ← given.follow with
  | .mapping (.alternative _) _ => failure
  | found =>
    found.withNamedFields ["task", "field"] fun fields => do
      let task ← fields.required Part.asText 0
      let field ← fields.optional Part.asText 1
      return .output task field

/-- The argument that a part of a document describes, its records nesting less than
that deep. -/
def readWithin : Nat → Part → Reading Argument
  | 0, _ => failure
  | fuel + 1, given =>
    given.withFields ["kind", "value"] fun fields => do
      let kind ← fields.required (Part.asAlternative kinds) 0
      let contentFirst := (fields.map Prod.fst).head? == some 1
      let content ← fields.required (if contentFirst then Part.settled else pure) 1
      if kind = "literal" then return .literal (← Value.read content)
      else if kind = "task_output" then readOutput content
      else return .record (← content.asNamed (readWithin fuel))

/-- The argument that a part of a document describes. -/
def read (given : Part) : Reading Argument := do readWithin ((← Reading.depthLeft) + 1) given

end Argument

/-- The comparator that a part of a document names. -/
def Comparator.read (given : Part) : Reading Comparator := do
  Comparator.ofName? (← given.asAlternative (Comparator.all.map Comparator.name))

namespace WhenClause

def toData (clause : WhenClause) : Data :=
  .ofMembers
    [("left", clause.left.toData), ("operator", .string clause.comparator.name),
      ("right", clause.right.toData)]

/-- The guard that a part of a document describes. -/
def read (given : Part) : Reading WhenClause :=
  given.withFields ["left", "operator", "right"] fun fields => do
    let left ← fields.required Argument.read 0
    let comparator ← fields.required Comparator.read 1
    let right ← fields.required Argument.read 2
    return ⟨left, comparator, right⟩

end WhenClause

namespace Container

/-- The fields of a container as members. -/
def toMembers (spec : Container) : List (String × Data) :=
  [("component", .string spec.component)] ++
    Data.optional "image" .string spec.image ++
    Data.texts "packages" spec.packages ++
    spec.resources.toMember "resources" ++
    Data.texts "command" spec.command ++
    [("outputs", .array (ValueType.fieldsToData spec.outputs))]

/-- The container that members describe. -/
def read (members : List (Key × Part)) : Reading Container := do
  let fields ←
    Fields.ofMembers? ["component", "image", "packages", "resources", "command", "outputs"] members
  let component ← fields.required Part.asText 0
  let image ← fields.optional Part.asText 1
  let packages ← fields.field (some []) (Part.asList Part.asText) 2
  let resources ← fields.field (some .none) Hardware.read 3
  let command ← fields.field (some []) (Part.asList Part.asText) 4
  let outputs ← fields.required (Part.asList (ValueType.readField ValueType.read)) 5
  return ⟨component, image, packages, resources, command, outputs⟩

end Container

namespace Task

mutual

def toData : Task → Data
  | ⟨name, kind, arguments, dependencies, guard⟩ =>
    .ofMembers
      ([("name", .string name)] ++ kindMembers kind ++
        membersUnlessEmpty "arguments" (Argument.fieldsToData arguments.entries) ++
        Data.texts "dependencies" dependencies ++
        Data.optional "when" WhenClause.toData guard)

/-- The type of a task and the fields that depend on it, as members. -/
def kindMembers : TaskKind → List (String × Data)
  | .container spec => ("type", .string "container") :: spec.toMembers
  | .dag tasks output =>
    [("type", .string "dag"), ("tasks", .array (listToData tasks))] ++
      Data.optional "output" Argument.toData output

def listToData : List Task → List Data
  | [] => []
  | task :: rest => toData task :: listToData rest

end

/-- The fields of a task that do not depend on its type. -/
def commonFields : List String := ["name", "arguments", "dependencies", "when"]

/-- Whether a key is the name of a field that does not depend on the type. -/
def isCommon : Key → Bool
  | .name s => commonFields.contains s
  | _ => false

/-- Whether a decided part names the type of a task, by its name or by its place among
the types. -/
def isType (name : String) (place : Nat) : Part → Bool
  | .text s => s == name
  | .integer n => n == (place : Int)
  | _ => false

/-- The type among the members that depend on it, and these members without it. -/
def splitType? (members : List (Key × Part)) : Option (Part × List (Key × Part)) :=
  let isTypeKey (member : Key × Part) : Bool := member.1 == .name "type"
  if members.any fun member => member.1 == .other then none
  else
    match members.filter isTypeKey with
    | [(_, type)] => some (type, members.filter fun member => !isTypeKey member)
    | _ => none

/-- The task that a part of a document describes, its own tasks nesting less than that
deep. -/
def readWithin : Nat → Part → Reading Task
  | 0, _ => failure
  | fuel + 1, given =>
    given.withMembers fun members => do
      let common ← Fields.ofMembers? commonFields (members.filter fun member => isCommon member.1)
      let name ← common.required Part.asText 0
      let arguments ← common.field (some .empty) (Part.asNamed Argument.read) 1
      let dependencies ← common.field (some []) (Part.asList Part.asText) 2
      let guard ← common.optional WhenClause.read 3
      let further ← (members.filter fun member => !isCommon member.1).mapM
        fun (key, member) => do return (key, ← member.settled)
      let (type, further) ← splitType? further
      if isType "container" 0 type then
        return ⟨name, .container (← Container.read further), arguments, dependencies, guard⟩
      else if isType "dag" 1 type then do
        let fields ← Fields.ofMembers? ["tasks", "output"] further
        let tasks ← fields.required (Part.asList (readWithin fuel)) 0
        let output ← fields.optional Argument.read 1
        return ⟨name, .dag tasks output, arguments, dependencies, guard⟩
      else failure

/-- The task that a part of a document describes. -/
def read (given : Part) : Reading Task := do readWithin ((← Reading.depthLeft) + 1) given

end Task

namespace Workflow

def toData (workflow : Workflow) : Data :=
  .ofMembers
    ([("name", .string workflow.name)] ++
      membersUnlessEmpty "inputs" (Argument.fieldsToData workflow.inputs.entries) ++
      [("tasks", .array (Task.listToData workflow.tasks))] ++
      Data.optional "output" Argument.toData workflow.output)

/-- The workflow that a part of a document describes. -/
def read (given : Part) : Reading Workflow :=
  given.withFields ["name", "inputs", "tasks", "output"] fun fields => do
    let name ← fields.required Part.asText 0
    let inputs ← fields.field (some .empty) (Part.asNamed Argument.read) 1
    let tasks ← fields.required (Part.asList Task.read) 2
    let output ← fields.optional Argument.read 3
    return ⟨name, inputs, tasks, output⟩

end Workflow

end Dataflow
