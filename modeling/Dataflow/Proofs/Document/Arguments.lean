/-
# Arguments and guards read back

An argument is written with its kind before its content, so the content is read where it
stands, and the reader of the kind reads it back. Records of arguments nest, and each of them
must have distinct names, as must the records of the values in them.
-/

import Dataflow.Proofs.Document.Values
import Dataflow.Proofs.Workflow.Places

namespace Dataflow

open Document Document.Reading

namespace Argument

mutual

/-- Whether the names of every record in an argument are distinct. -/
def isWellFormed : Argument → Bool
  | .literal v => v.isWellFormed
  | .output _ _ => true
  | .record ⟨fields⟩ => decide (fields.map Prod.fst).Nodup && areWellFormed fields

/-- Whether all arguments under names are well formed. -/
def areWellFormed : List (String × Argument) → Bool
  | [] => true
  | (_, argument) :: rest => isWellFormed argument && areWellFormed rest

end

/-- Every record in the argument, at any depth, has distinct names. -/
def WellFormed (argument : Argument) : Prop := argument.isWellFormed = true

instance (argument : Argument) : Decidable argument.WellFormed :=
  inferInstanceAs (Decidable (_ = true))

mutual

/-- The floats in the literals of an argument. -/
def floats : Argument → List Binary64
  | .literal v => v.floats
  | .output _ _ => []
  | .record ⟨fields⟩ => floatsOfFields fields

/-- The floats in the literals of arguments under names. -/
def floatsOfFields : List (String × Argument) → List Binary64
  | [] => []
  | (_, argument) :: rest => floats argument ++ floatsOfFields rest

end

theorem wellFormed_of_mem {fields : List (String × Argument)} (h : areWellFormed fields = true)
    {field : String × Argument} (hfield : field ∈ fields) : field.2.WellFormed := by
  induction fields with
  | nil => cases hfield
  | cons first rest ih =>
    rw [areWellFormed, Bool.and_eq_true] at h
    rcases List.mem_cons.mp hfield with rfl | hrest
    · exact h.1
    · exact ih h.2 hrest

theorem floatsOfFields_eq_flatMap (fields : List (String × Argument)) :
    floatsOfFields fields = fields.flatMap fun field => floats field.2 := by
  induction fields with
  | nil => rfl
  | cons field rest ih => rw [floatsOfFields, ih, List.flatMap_cons]

theorem fieldsToData_eq_map (fields : List (String × Argument)) :
    fieldsToData fields = fields.map fun field => (field.1, field.2.toData) := by
  induction fields with
  | nil => rfl
  | cons field rest ih => rw [fieldsToData, ih, List.map_cons]

/-- The arguments of a record nest less deep than the record. -/
theorem nesting_lt_of_mem {fields : List (String × Argument)} {field : String × Argument}
    (hfield : field ∈ fields) :
    field.2.toData.toJson.nesting < (record ⟨fields⟩).toData.toJson.nesting := by
  have hmember : (field.1, field.2.toData) ∈ fieldsToData fields := by
    rw [fieldsToData_eq_map]
    exact List.mem_map.mpr ⟨field, hfield, rfl⟩
  have hcontent : (Data.ofMembers (fieldsToData fields)).toJson.nesting <
      (record ⟨fields⟩).toData.toJson.nesting :=
    Data.nesting_lt_of_mem_members "value" (by simp)
  exact Nat.lt_trans (Data.nesting_lt_of_mem_members field.1 hmember) hcontent

theorem toData_ne_null (argument : Argument) : argument.toData.toJson ≠ .null := by
  cases argument <;> exact Data.toJson_ofMembers_ne_null _

/-- What the content of an argument of this kind is read as, its records nesting less than
that deep. -/
def readContent (fuel : Nat) (kind : String) (content : Part) : Reading Argument := do
  if kind = "literal" then return .literal (← Value.read content)
  else if kind = "task_output" then readOutput content
  else return .record (← content.asNamed (readWithin fuel))

/-- After its kind, the content of an argument is read as what the kind says. -/
theorem reads_of_content {fuel : Nat} {kind : String} {content : Data} {argument : Argument}
    (hkind : kind ∈ kinds) (h : Reads (readContent fuel kind) content.toJson argument) :
    Reads (readWithin (fuel + 1))
      (Data.ofMembers [("kind", .string kind), ("value", content)]).toJson argument := by
  refine .ofMembers ((Data.namedIn_nil.cons ..).cons ..) (by decide) fun fields scope hoffered => ?_
  refine (hoffered.required "kind" _ rfl rfl (.asAlternative hkind)).bind ?_
  obtain ⟨⟨decided, rfl⟩, hroom⟩ := hoffered
  have hmem : ("value", content.toJson) ∈
      Data.membersToJson [("kind", .string kind), ("value", content)] := by
    simp [Data.membersToJson]
  have hcontent : content.toJson.nesting ≤ scope.depth :=
    Nat.le_trans (Json.nesting_le_of_mem_members hmem) hroom
  exact (Gives.pure (content.toJson.part decided) scope).bind (h decided scope hcontent)

theorem reads_output (task : String) (field : Option String) :
    Reads readOutput
      (Data.ofMembers (("task", .string task) :: Data.optional "field" .string field)).toJson
      (.output task field) := by
  have hnamed : Data.NamedIn (("task", .string task) :: Data.optional "field" .string field)
      ["task", "field"] :=
    (Data.namedIn_optional ..).cons ..
  refine .after_follow (.object_congr (.withNamedFields (hnamed.nodup (by decide))
    fun fields scope hoffered => ?_) (fun _ => rfl) fun _ => rfl)
  refine (hoffered.required "task" _ rfl rfl (.asText task)).bind ?_
  exact (hoffered.optional "field" .string field rfl (by simp [Named.find])
    (fun name _ => .asText name) Data.toJson_string_ne_null).bind (.pure _ scope)

/-- An argument with distinct names and finite floats is read back, given enough fuel. -/
theorem reads_within {argument : Argument} {fuel : Nat} (hformed : argument.WellFormed)
    (hfinite : ∀ x ∈ argument.floats, x.isFinite = true)
    (hfuel : argument.toData.toJson.nesting < fuel) :
    Reads (readWithin fuel) argument.toData.toJson argument := by
  induction fuel generalizing argument with
  | zero => exact absurd hfuel (Nat.not_lt_zero _)
  | succ fuel ih =>
    cases argument with
    | literal v =>
      exact reads_of_content (by decide) ((Value.reads hformed hfinite).bind (.pure _))
    | output task field => exact reads_of_content (by decide) (reads_output task field)
    | record fields =>
      obtain ⟨fields⟩ := fields
      rw [WellFormed, isWellFormed, Bool.and_eq_true, decide_eq_true_iff] at hformed
      rw [floats, floatsOfFields_eq_flatMap] at hfinite
      refine reads_of_content (by decide) (Reads.bind ?_ (.pure _))
      rw [fieldsToData_eq_map]
      refine .entries hformed.1 fun field hfield => ?_
      refine ih (wellFormed_of_mem hformed.2 hfield)
        (fun x hx => hfinite x (List.mem_flatMap_of_mem hfield hx)) ?_
      exact Nat.lt_of_lt_of_le (nesting_lt_of_mem hfield) (Nat.lt_succ_iff.mp hfuel)

/-- A document can hold the argument: the names of its records are distinct and its floats
finite. -/
structure Readable (argument : Argument) : Prop where
  /-- The names of its records are distinct. -/
  wellFormed : argument.WellFormed
  /-- The floats in its literals are finite. -/
  finite : ∀ x ∈ argument.floats, x.isFinite = true

theorem reads {argument : Argument} (h : argument.Readable) :
    Reads read argument.toData.toJson argument :=
  .of_fuel fun _ => reads_within h.wellFormed h.finite

/-- Arguments under distinct names are read back, also where there are none. -/
theorem gives_named {names : List String} {members : List (String × Data)} {fields : Fields}
    {scope : Scope} {position : Nat} {arguments : Named Argument}
    (hoffered : Offered names (Data.membersToJson members) fields scope) (name : String)
    (hname : names.idxOf? name = some position)
    (hfind : Named.find name members =
      if fieldsToData arguments.entries ≠ [] then some (.ofMembers (fieldsToData arguments.entries))
      else none)
    (hdistinct : arguments.Distinct) (h : ∀ argument ∈ arguments.values, argument.Readable) :
    (fields.field (some .empty) (Part.asNamed read) position).Gives scope arguments := by
  refine hoffered.defaulting name hname hfind (fun hempty => ?_) ?_
  · rw [not_not, fieldsToData_eq_map, List.map_eq_nil_iff] at hempty
    exact congrArg Named.mk hempty.symm
  · rw [fieldsToData_eq_map]
    exact .entries hdistinct fun entry hentry => reads (h _ (List.mem_map_of_mem hentry))

end Argument

theorem Comparator.reads (comparator : Comparator) :
    Reads Comparator.read (.string comparator.name) comparator :=
  (Reads.asAlternative (List.mem_map_of_mem (by cases comparator <;> decide))).bind fun _ =>
    .of_eq_some (by cases comparator <;> rfl)

theorem WhenClause.reads {clause : WhenClause}
    (h : ∀ argument ∈ clause.operands, argument.Readable) :
    Reads WhenClause.read clause.toData.toJson clause := by
  refine .ofMembers (((Data.namedIn_nil.cons ..).cons ..).cons ..) (by decide)
    fun fields scope hoffered => ?_
  refine (hoffered.required "left" _ rfl rfl
    (Argument.reads (h clause.left (by simp [operands])))).bind ?_
  refine (hoffered.required "operator" _ rfl rfl (Comparator.reads clause.comparator)).bind ?_
  refine (hoffered.required "right" _ rfl rfl
    (Argument.reads (h clause.right (by simp [operands])))).bind ?_
  exact .pure _ scope

end Dataflow
