/-
# Workflows read back

The document of a workflow is read as the same workflow. The reader of a task takes the fields
that every task has where they stand, and decides the others before it knows the type of the
task; what has been decided is read as it would have been, so the fields of a container and
the tasks of a dag come back as they were. Tasks nest, and the induction is on how deep a
document may nest.

A collection under names has each name once, and the number of accelerators is of 32 bits: a
workflow is well formed if this holds of it, at every depth.
-/

import Dataflow.Proofs.Document.Arguments

namespace Dataflow

open Document Document.Reading

namespace Container

theorem namedIn_toMembers (spec : Container) : Data.NamedIn spec.toMembers
    ["component", "image", "packages", "resources", "command", "outputs"] :=
  (((((Data.namedIn_nil.cons ..).append (Data.namedIn_optional ..)).append
    (Data.namedIn_texts ..)).append (Data.namedIn_toMember ..)).append
    (Data.namedIn_texts ..)).append (Data.namedIn_nil.cons ..)

/-- A container is read back from its members. -/
theorem gives_read {spec : Container} (h : spec.resources.Countable) (decided : Bool)
    {scope : Scope}
    (hroom : Json.nestingOfMembers (Data.membersToJson spec.toMembers) ≤ scope.depth) :
    (read (Json.keyed decided (Data.membersToJson spec.toMembers))).Gives scope spec := by
  refine (Gives.of_eq_some (Json.ofMembers?_keyed decided
    (spec.namedIn_toMembers.nodup (by decide)))).bind ?_
  have hoffered : Offered ["component", "image", "packages", "resources", "command", "outputs"]
      (Data.membersToJson spec.toMembers) _ scope := ⟨⟨decided, rfl⟩, hroom⟩
  have houtputs : Reads (Part.asList (ValueType.readField ValueType.read))
      (Data.array (ValueType.fieldsToData spec.outputs)).toJson spec.outputs := by
    rw [ValueType.fieldsToData_eq_map]
    exact .array fun field _ => ValueType.reads_field (ValueType.reads field.2)
  refine (hoffered.required "component" (.string spec.component) rfl
    (by simp [toMembers, Named.find]) (.asText spec.component)).bind ?_
  refine (hoffered.optional "image" .string spec.image rfl (by simp [toMembers, Named.find])
    (fun image _ => .asText image) Data.toJson_string_ne_null).bind ?_
  refine (hoffered.texts "packages" spec.packages rfl (by simp [toMembers, Named.find])).bind ?_
  refine (Hardware.gives_member hoffered "resources" rfl (by simp [toMembers, Named.find])
    h).bind ?_
  refine (hoffered.texts "command" spec.command rfl (by simp [toMembers, Named.find])).bind ?_
  refine (hoffered.required "outputs" _ rfl (by simp [toMembers, Named.find]) houtputs).bind ?_
  exact .pure _ scope

end Container

/-- The container that a task runs, if it runs one. -/
def TaskKind.container? : TaskKind → Option Container
  | .container spec => some spec
  | .dag _ _ => none

/-- The output of the tasks that a task runs, if there is one. -/
def TaskKind.output? : TaskKind → Option Argument
  | .container _ => none
  | .dag _ output => output

namespace Task

mutual

/-- A task and all tasks inside it. -/
def withInner : Task → List Task
  | task@⟨_, kind, _, _, _⟩ => task :: innerTasks kind

/-- All tasks inside what a task runs. -/
def innerTasks : TaskKind → List Task
  | .container _ => []
  | .dag tasks _ => allWithInner tasks

/-- Tasks and all tasks inside them. -/
def allWithInner : List Task → List Task
  | [] => []
  | task :: rest => withInner task ++ allWithInner rest

end

theorem withInner_subset_allWithInner {task : Task} {tasks : List Task} (htask : task ∈ tasks) :
    withInner task ⊆ allWithInner tasks := by
  induction tasks with
  | nil => cases htask
  | cons first rest ih =>
    rw [allWithInner]
    rcases List.mem_cons.mp htask with rfl | hrest
    · exact List.subset_append_left _ _
    · exact List.subset_append_of_subset_right _ (ih hrest)

/-- The arguments that stand in a task itself, and not in a task inside it. -/
def ownArguments (task : Task) : List Argument := task.given ++ task.kind.output?.toList

/-- The names of the arguments are distinct, and a container asks for a number of accelerators
of 32 bits. -/
structure WellFormed (task : Task) : Prop where
  /-- The names of the arguments are distinct. -/
  distinct : task.arguments.Distinct
  /-- The number of accelerators is one that a document may ask for. -/
  countable : ∀ spec ∈ task.kind.container?, spec.resources.Countable

instance (task : Task) : Decidable task.WellFormed :=
  decidable_of_iff (task.arguments.Distinct ∧
      ∀ spec ∈ task.kind.container?, spec.resources.Countable)
    ⟨fun h => ⟨h.1, h.2⟩, fun h => ⟨h.distinct, h.countable⟩⟩

/-- A document can hold the task, apart from the tasks inside it. -/
structure Readable (task : Task) : Prop extends WellFormed task where
  /-- A document can hold its arguments. -/
  arguments : ∀ argument ∈ task.ownArguments, argument.Readable

/-- The members of a task after those that depend on its type. -/
def laterMembers (task : Task) : List (String × Data) :=
  membersUnlessEmpty "arguments" (Argument.fieldsToData task.arguments.entries) ++
    Data.texts "dependencies" task.dependencies ++
    Data.optional "when" WhenClause.toData task.guard

/-- The members of a task in the document. -/
def members (task : Task) : List (String × Data) :=
  ("name", .string task.name) :: (kindMembers task.kind ++ task.laterMembers)

/-- The members of a task that do not depend on its type. -/
def commonMembers (task : Task) : List (String × Data) :=
  ("name", .string task.name) :: task.laterMembers

theorem toData_eq (task : Task) : task.toData = .ofMembers task.members := by
  cases task
  simp [toData, members, laterMembers]

theorem namedIn_laterMembers (task : Task) :
    Data.NamedIn task.laterMembers ["arguments", "dependencies", "when"] :=
  ((Data.namedIn_membersUnlessEmpty ..).append (Data.namedIn_texts ..)).append
    (Data.namedIn_optional ..)

theorem namedIn_commonMembers (task : Task) : Data.NamedIn task.commonMembers commonFields :=
  task.namedIn_laterMembers.cons ..

theorem namedIn_dagMembers (tasks : List Task) (output : Option Argument) :
    Data.NamedIn (("tasks", .array (listToData tasks)) ::
      Data.optional "output" Argument.toData output) ["tasks", "output"] :=
  (Data.namedIn_optional ..).cons ..

/-- The names of the fields that depend on the type. -/
def kindFields : TaskKind → List String
  | .container _ =>
    ["type", "component", "image", "packages", "resources", "command", "outputs"]
  | .dag _ _ => ["type", "tasks", "output"]

theorem namedIn_kindMembers : ∀ kind, Data.NamedIn (kindMembers kind) (kindFields kind)
  | .container spec => spec.namedIn_toMembers.cons ..
  | .dag tasks output => (namedIn_dagMembers tasks output).cons ..

/-- No field that depends on the type has the name of one that does not. -/
theorem not_contains_kindFields (kind : TaskKind) :
    ∀ name ∈ kindFields kind, (!commonFields.contains name) = true :=
  List.all_eq_true.mp (by cases kind <;> rfl)

/-- The members of a task that do not depend on its type are those with common names. -/
theorem filter_members (task : Task) :
    task.members.filter (fun member => commonFields.contains member.1) = task.commonMembers := by
  have hkind : (kindMembers task.kind).filter
      (fun member => commonFields.contains member.1) = [] :=
    (namedIn_kindMembers task.kind).filter_eq_nil (p := commonFields.contains)
      fun name hname => by simpa using not_contains_kindFields task.kind name hname
  have hlater : task.laterMembers.filter (fun member => commonFields.contains member.1) =
      task.laterMembers :=
    task.namedIn_laterMembers.filter_eq_self (p := commonFields.contains) (by decide)
  rw [members, List.filter_cons_of_pos rfl, List.filter_append, hkind, hlater, List.nil_append]
  rfl

/-- The other members are those that depend on the type. -/
theorem filter_not_members (task : Task) :
    task.members.filter (fun member => !commonFields.contains member.1) =
      kindMembers task.kind := by
  have hkind : (kindMembers task.kind).filter
      (fun member => !commonFields.contains member.1) = kindMembers task.kind :=
    (namedIn_kindMembers task.kind).filter_eq_self (p := fun name => !commonFields.contains name)
      (not_contains_kindFields task.kind)
  have hlater : task.laterMembers.filter (fun member => !commonFields.contains member.1) = [] :=
    task.namedIn_laterMembers.filter_eq_nil (p := fun name => !commonFields.contains name)
      (by decide)
  rw [members, List.filter_cons_of_neg Bool.false_ne_true, List.filter_append, hkind, hlater,
    List.append_nil]

/-- Members are filtered by their names alike in a document. -/
theorem filter_keyed (decided : Bool) {p : Key → Bool} (members : List (String × Data)) :
    (Json.keyed decided (Data.membersToJson members)).filter (fun member => p member.1) =
      Json.keyed decided
        (Data.membersToJson (members.filter fun member => p (.name member.1))) := by
  rw [Json.keyed, Json.keyed, Data.membersToJson_eq_map, Data.membersToJson_eq_map, List.map_map,
    List.map_map, List.filter_map]
  rfl

theorem filter_isCommon (task : Task) (decided : Bool) :
    (Json.keyed decided (Data.membersToJson task.members)).filter
        (fun member => isCommon member.1) =
      Json.keyed decided (Data.membersToJson task.commonMembers) := by
  rw [filter_keyed, ← filter_members]
  rfl

theorem filter_not_isCommon (task : Task) (decided : Bool) :
    (Json.keyed decided (Data.membersToJson task.members)).filter
        (fun member => !isCommon member.1) =
      Json.keyed decided (Data.membersToJson (kindMembers task.kind)) := by
  rw [filter_keyed decided (p := fun key => !isCommon key), ← filter_not_members]
  rfl

/-- The type stands among the members once, and is taken from them. -/
theorem splitType?_keyed {type : Json} {members : List (String × Json)}
    (hmembers : "type" ∉ members.map Prod.fst) :
    splitType? (Json.keyed true (("type", type) :: members)) =
      some (type.part true, Json.keyed true members) := by
  have hname {member : Key × Part} (hmember : member ∈ Json.keyed true members) :
      ∃ name ≠ "type", member.1 = .name name := by
    obtain ⟨found, hfound, rfl⟩ := List.mem_map.mp hmember
    refine ⟨found.1, ?_, rfl⟩
    rintro heq
    exact hmembers (heq ▸ List.mem_map_of_mem hfound)
  have hkeyed : Json.keyed true (("type", type) :: members) =
      (.name "type", type.part true) :: Json.keyed true members := rfl
  have hnone : (Json.keyed true members).filter (fun member => member.1 == .name "type") = [] :=
    List.filter_eq_nil_iff.mpr fun member hmember => by
      obtain ⟨name, hne, heq⟩ := hname hmember
      simp [heq, hne]
  have hall : (Json.keyed true members).filter (fun member => !(member.1 == .name "type")) =
      Json.keyed true members :=
    List.filter_eq_self.mpr fun member hmember => by
      obtain ⟨name, hne, heq⟩ := hname hmember
      simp [heq, hne]
  have hother : (Json.keyed true members).any (fun member => member.1 == .other) = false :=
    List.any_eq_false.mpr fun member hmember => by
      obtain ⟨name, -, heq⟩ := hname hmember
      simp [heq]
  rw [hkeyed, splitType?]
  simp [hother, hnone, hall]

/-- The members that some names choose nest no deeper than the document. -/
theorem nestingOfMembers_filter_le {members : List (String × Data)} {p : String × Data → Bool}
    {depth : Nat} (hroom : Json.nestingOfMembers (Data.membersToJson members) ≤ depth) :
    Json.nestingOfMembers (Data.membersToJson (members.filter p)) ≤ depth := by
  refine Nat.le_trans (Json.nestingOfMembers_mono ?_) hroom
  rw [Data.membersToJson_eq_map, Data.membersToJson_eq_map]
  exact List.map_subset _ (List.filter_subset_self _)

theorem listToData_eq_map (tasks : List Task) : listToData tasks = tasks.map toData := by
  induction tasks with
  | nil => rfl
  | cons task rest ih => rw [listToData, ih, List.map_cons]

/-- The tasks that a task runs nest less deep than the task. -/
theorem nesting_lt_of_mem {task inner : Task} {tasks : List Task} {output : Option Argument}
    (hkind : task.kind = .dag tasks output) (hinner : inner ∈ tasks) :
    inner.toData.toJson.nesting < task.toData.toJson.nesting := by
  have hlist : inner.toData.toJson.nesting < (Data.array (listToData tasks)).toJson.nesting :=
    Data.nesting_lt_of_mem (listToData_eq_map tasks ▸ List.mem_map_of_mem hinner)
  rw [toData_eq task]
  refine Nat.lt_trans hlist (Data.nesting_lt_of_mem_members "tasks" ?_)
  simp [members, hkind, kindMembers]

/-- The fields that every task has are read back before the others. -/
theorem gives_common {α : Type} {a : α} {task : Task} {fields : Fields} {scope : Scope}
    {next : String → Named Argument → List String → Option WhenClause → Reading α}
    (h : task.Readable)
    (hoffered : Offered commonFields (Data.membersToJson task.commonMembers) fields scope)
    (hnext : (next task.name task.arguments task.dependencies task.guard).Gives scope a) :
    Gives (do
      let name ← fields.required Part.asText 0
      let arguments ← fields.field (some .empty) (Part.asNamed Argument.read) 1
      let dependencies ← fields.field (some []) (Part.asList Part.asText) 2
      let guard ← fields.optional WhenClause.read 3
      next name arguments dependencies guard) scope a := by
  have hguard {clause : WhenClause} (hclause : task.guard = some clause) :
      Reads WhenClause.read clause.toData.toJson clause :=
    WhenClause.reads fun argument hargument =>
      h.arguments argument (by simp [ownArguments, given, hclause, hargument])
  refine (hoffered.required "name" (.string task.name) rfl
    (by simp [commonMembers, Named.find]) (.asText task.name)).bind ?_
  refine (Argument.gives_named hoffered "arguments" rfl
    (by simp [commonMembers, laterMembers, Named.find]) h.distinct fun argument hargument =>
      h.arguments argument (by simp [ownArguments, given, hargument])).bind ?_
  refine (hoffered.texts "dependencies" task.dependencies rfl
    (by simp [commonMembers, laterMembers, Named.find])).bind ?_
  exact (hoffered.optional "when" WhenClause.toData task.guard rfl
    (by simp [commonMembers, laterMembers, Named.find]) (fun _ => hguard)
    fun _ => Data.toJson_ofMembers_ne_null _).bind hnext

/-- The tasks and the output of a dag are read back from its members. -/
theorem gives_dag {fuel : Nat} {tasks : List Task} {output : Option Argument} {scope : Scope}
    (make : TaskKind → Task) (htasks : ∀ task ∈ tasks,
      Reads (readWithin fuel) task.toData.toJson task)
    (houtput : ∀ argument ∈ output, argument.Readable) (decided : Bool)
    (hroom : Json.nestingOfMembers (Data.membersToJson (("tasks", .array (listToData tasks)) ::
      Data.optional "output" Argument.toData output)) ≤ scope.depth) :
    Gives (do
      let fields ← Fields.ofMembers? ["tasks", "output"]
        (Json.keyed decided (Data.membersToJson (("tasks", .array (listToData tasks)) ::
          Data.optional "output" Argument.toData output)))
      let tasks ← fields.required (Part.asList (readWithin fuel)) 0
      let output ← fields.optional Argument.read 1
      return make (.dag tasks output)) scope (make (.dag tasks output)) := by
  refine (Gives.of_eq_some (Json.ofMembers?_keyed decided
    ((namedIn_dagMembers tasks output).nodup (by decide)))).bind ?_
  have hoffered : Offered ["tasks", "output"] (Data.membersToJson
      (("tasks", .array (listToData tasks)) :: Data.optional "output" Argument.toData output))
      _ scope := ⟨⟨decided, rfl⟩, hroom⟩
  have hlist : Reads (Part.asList (readWithin fuel)) (Data.array (listToData tasks)).toJson
      tasks := by
    rw [listToData_eq_map]
    exact .array htasks
  refine (hoffered.required "tasks" _ rfl rfl hlist).bind ?_
  exact (hoffered.optional "output" Argument.toData output rfl (by simp [Named.find])
    (fun argument hargument => Argument.reads (houtput argument hargument))
    Argument.toData_ne_null).bind (.pure _ scope)

/-- A task is read back, given enough fuel, if a document can hold it and all tasks inside
it. -/
theorem reads_within {task : Task} {fuel : Nat} (h : ∀ inner ∈ task.withInner, inner.Readable)
    (hfuel : task.toData.toJson.nesting < fuel) :
    Reads (readWithin fuel) task.toData.toJson task := by
  -- The induction is on the fuel, since a task inside nests less deep than the task.
  induction fuel generalizing task with
  | zero => exact absurd hfuel (Nat.not_lt_zero _)
  | succ fuel ih =>
    have hown : task.Readable := h task (by cases task; exact List.mem_cons_self)
    rw [toData_eq]
    refine .withMembers fun decided scope hroom => ?_
    rw [filter_isCommon, filter_not_isCommon]
    have hcommonroom : Json.nestingOfMembers (Data.membersToJson task.commonMembers) ≤
        scope.depth := task.filter_members ▸ nestingOfMembers_filter_le hroom
    have hkindroom : Json.nestingOfMembers (Data.membersToJson (kindMembers task.kind)) ≤
        scope.depth := task.filter_not_members ▸ nestingOfMembers_filter_le hroom
    refine (Gives.of_eq_some (Json.ofMembers?_keyed decided
      (task.namedIn_commonMembers.nodup (by decide)))).bind ?_
    refine gives_common hown ⟨⟨decided, rfl⟩, hcommonroom⟩ ?_
    refine (Json.settled_members decided hkindroom).bind ?_
    obtain ⟨name, kind, arguments, dependencies, guard⟩ := task
    -- The type stands first among what has been decided, and says how to read the rest.
    cases kind with
    | container spec =>
      refine (Gives.of_eq_some (splitType?_keyed
        (spec.namedIn_toMembers.not_mem (by decide)))).bind ?_
      exact (Container.gives_read (hown.countable spec rfl) true
        (Nat.le_trans (Nat.le_max_right _ _) hkindroom)).bind (.pure _ scope)
    | dag tasks output =>
      refine (Gives.of_eq_some (splitType?_keyed
        ((namedIn_dagMembers tasks output).not_mem (by decide)))).bind ?_
      refine gives_dag (fun kind => ⟨name, kind, arguments, dependencies, guard⟩)
        (fun inner hinner => ih (fun task htask => h task ?_) ?_)
        (fun argument hargument => hown.arguments argument ?_) true
        (Nat.le_trans (Nat.le_max_right _ _) hkindroom)
      · exact List.mem_cons_of_mem _ (withInner_subset_allWithInner hinner htask)
      · exact Nat.lt_of_lt_of_le (nesting_lt_of_mem rfl hinner) (Nat.lt_succ_iff.mp hfuel)
      · have houtput : output = some argument := hargument
        simp [ownArguments, TaskKind.output?, houtput]

end Task

namespace Workflow

/-- All tasks of a workflow, at every depth. -/
def allTasks (w : Workflow) : List Task := Task.allWithInner w.tasks

/-- All arguments of a workflow, those of its tasks at every depth among them. -/
def arguments (w : Workflow) : List Argument :=
  w.inputs.values ++ w.allTasks.flatMap Task.ownArguments ++ w.output.toList

/-- The floats in the literals of a workflow. -/
def floats (w : Workflow) : List Binary64 := w.arguments.flatMap Argument.floats

/-- The collections of a workflow have each name once, and its containers ask for numbers of
accelerators of 32 bits. -/
structure WellFormed (w : Workflow) : Prop where
  /-- The names of the inputs are distinct. -/
  inputs : w.inputs.Distinct
  /-- Every task is well formed. -/
  tasks : ∀ task ∈ w.allTasks, task.WellFormed
  /-- Every argument is well formed. -/
  arguments : ∀ argument ∈ w.arguments, argument.WellFormed

instance (w : Workflow) : Decidable w.WellFormed :=
  decidable_of_iff (w.inputs.Distinct ∧ (∀ task ∈ w.allTasks, task.WellFormed) ∧
      ∀ argument ∈ w.arguments, argument.WellFormed)
    ⟨fun h => ⟨h.1, h.2.1, h.2.2⟩, fun h => ⟨h.inputs, h.tasks, h.arguments⟩⟩

theorem WellFormed.readable {w : Workflow} (hw : w.WellFormed)
    (hfinite : ∀ x ∈ w.floats, x.isFinite = true) {argument : Argument}
    (hargument : argument ∈ w.arguments) : argument.Readable :=
  ⟨hw.arguments argument hargument, fun x hx =>
    hfinite x (List.mem_flatMap_of_mem hargument hx)⟩

theorem reads {w : Workflow} (hw : w.WellFormed) (hfinite : ∀ x ∈ w.floats, x.isFinite = true) :
    Reads read w.toData.toJson w := by
  have htasks : Reads (Part.asList Task.read) (Data.array (Task.listToData w.tasks)).toJson
      w.tasks := by
    rw [Task.listToData_eq_map]
    refine .array fun task htask => .of_fuel fun fuel => Task.reads_within fun inner hinner => ?_
    have hmem : inner ∈ w.allTasks := Task.withInner_subset_allWithInner htask hinner
    refine ⟨hw.tasks inner hmem, fun argument hargument => hw.readable hfinite ?_⟩
    simp only [arguments, List.mem_append, List.mem_flatMap]
    exact .inl (.inr ⟨inner, hmem, hargument⟩)
  refine .ofMembers ((((Data.namedIn_nil.cons ..).append
    (Data.namedIn_membersUnlessEmpty ..)).append (Data.namedIn_nil.cons ..)).append
    (Data.namedIn_optional ..)) (by decide) fun fields scope hoffered => ?_
  refine (hoffered.required "name" (.string w.name) rfl (by simp [Named.find])
    (.asText w.name)).bind ?_
  refine (Argument.gives_named hoffered "inputs" rfl (by simp [Named.find]) hw.inputs
    fun argument hargument => hw.readable hfinite (by simp [arguments, hargument])).bind ?_
  refine (hoffered.required "tasks" _ rfl (by simp [Named.find]) htasks).bind ?_
  refine (hoffered.optional "output" Argument.toData w.output rfl (by simp [Named.find])
    (fun argument hargument => Argument.reads (hw.readable hfinite ?_))
    Argument.toData_ne_null).bind (.pure _ scope)
  have houtput : w.output = some argument := hargument
  simp [arguments, houtput]

/-- The JSON tree of a workflow is read as the same workflow, if the floats in its literals are
finite: with every task, name and field in its place, and every literal of its kind. -/
theorem read?_ofJson_toData (w : Workflow) (hw : w.WellFormed)
    (hfinite : ∀ x ∈ w.floats, x.isFinite = true) :
    Document.read? Workflow.read (.ofJson w.toData.toJson) = some w := by
  have hdepth : w.toData.toJson.nesting ≤ (Part.ofJson w.toData.toJson).depth :=
    Nat.le_of_eq (Json.depth_ofJson _).symm
  have hgives := reads hw hfinite false ⟨[], (Part.ofJson w.toData.toJson).depth⟩ hdepth
  rw [Json.part_false] at hgives
  have hread : Document.read? Workflow.read (.ofJson w.toData.toJson) =
      ((read (Part.ofJson w.toData.toJson) ⟨[], (Part.ofJson w.toData.toJson).depth⟩).run 0).map
        Prod.fst := rfl
  rw [hread, hgives 0, Option.map_some]

end Workflow

namespace Station

/-- The float one. -/
def one : Binary64 := ⟨false, 0x3ff0000000000000, by decide⟩

/-- A container with outputs of a scalar and a record type, which asks for accelerators of any
model. -/
def reading : Task where
  name := "reading"
  kind := .container
    { component := "read"
      image := some "station"
      packages := []
      resources := ⟨none, some "2G", some ⟨some 2, none⟩⟩
      command := ["measure"]
      outputs := [("value", .float),
        ("place", .record ⟨"Place", [("row", .integer), ("column", .integer)]⟩)] }
  arguments := ⟨[("start", .literal (.record ⟨[("1", .integer 1), ("0", .float one)]⟩))]⟩
  dependencies := []
  guard := none

/-- A container inside a dag, given a record of arguments, that leaves out what it can. -/
def inner : Task where
  name := "report"
  kind := .container ⟨"report", none, [], .none, [], []⟩
  arguments := ⟨[("about", .record ⟨[("value", .output "reading" (some "value")),
    ("urgent", .literal (.boolean true))]⟩)]⟩
  dependencies := []
  guard := none

/-- A guarded dag. -/
def low : Task where
  name := "low"
  kind := .dag [inner] (some (.output "report" none))
  arguments := .empty
  dependencies := ["reading"]
  guard := some ⟨.output "reading" (some "value"), .less, .literal (.float one)⟩

/-- A workflow of both. -/
def workflow : Workflow := ⟨"main", .empty, [reading, low], some (.literal (.string "done"))⟩

end Station

/-- A workflow with a guarded dag, a record type, accelerators, and literals of every kind is
read back. -/
theorem Workflow.read?_ofJson_toData_station :
    Station.workflow.WellFormed ∧ (∀ x ∈ Station.workflow.floats, x.isFinite = true) ∧
      Document.read? Workflow.read (.ofJson Station.workflow.toData.toJson) =
        some Station.workflow := by
  have hw : Station.workflow.WellFormed := by decide
  have hfinite : ∀ x ∈ Station.workflow.floats, x.isFinite = true := by decide
  exact ⟨hw, hfinite, Workflow.read?_ofJson_toData _ hw hfinite⟩

end Dataflow
