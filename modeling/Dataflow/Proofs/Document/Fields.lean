/-
# What is read from JSON trees

A reader reads something from a tree if it gives it for the tree in both of its ways, in
every scope with room for the tree. Each reader of the library reads back what it is for:
texts, natural numbers, lists, named members, alternatives. A structure with known fields is
read from members with distinct names: what stands under the name of a field is the field,
and a field whose name is missing is what stands in for it.
-/

import Dataflow.Data
import Dataflow.Proofs.Document.Reading

namespace Dataflow

open Document Document.Reading

variable {α β : Type} {a : α} {b : β} {json : Json} {names : List String}

namespace Document

/-- The reader reads this from a tree, as it stands or decided, where there is room for it. -/
def Reads (reader : Part → Reading α) (json : Json) (a : α) : Prop :=
  ∀ (decided : Bool) (scope : Scope), json.nesting ≤ scope.depth →
    (reader (json.part decided)).Gives scope a

namespace Reads

/-- What a reader reads from a tree, it finds in the document of the tree. -/
theorem read?_ofJson {reader : Part → Reading α} (h : Reads reader json a) :
    Document.read? reader (.ofJson json) = some a := by
  have hroom : json.nesting ≤ (Part.ofJson json).depth := Nat.le_of_eq (Json.depth_ofJson json).symm
  have hgives := h false ⟨[], (Part.ofJson json).depth⟩ hroom
  rw [Json.part_false] at hgives
  have hread : Document.read? reader (.ofJson json) =
    ((reader (Part.ofJson json) ⟨[], (Part.ofJson json).depth⟩).run 0).map Prod.fst := rfl
  rw [hread, hgives 0, Option.map_some]

/-- A reader that is bounded by the room where it is reads what it reads with enough fuel. -/
theorem of_fuel {readWithin : Nat → Part → Reading α}
    (h : ∀ fuel, json.nesting < fuel → Reads (readWithin fuel) json a) :
    Reads (fun given => do readWithin ((← depthLeft) + 1) given) json a :=
  fun decided scope hroom =>
    (Gives.depthLeft scope).bind (h _ (Nat.lt_succ_of_le hroom) decided scope hroom)

theorem bind {reader : Part → Reading α} {next : α → Reading β} (h : Reads reader json a)
    (hnext : ∀ scope, (next a).Gives scope b) :
    Reads (fun given => reader given >>= next) json b :=
  fun decided scope hroom => (h decided scope hroom).bind (hnext scope)

/-- A reader of a tree may follow references first: there are none. -/
theorem after_follow {reader : Part → Reading α} (h : Reads reader json a) :
    Reads (fun given => given.follow >>= reader) json a :=
  fun decided scope hroom => (Json.follow_part decided json scope).bind (h decided scope hroom)

/-- Readers that do the same with members read the same from objects. -/
theorem object_congr {reader other : Part → Reading α} {members : Named Json}
    (h : Reads other (.object members) a)
    (hobject : ∀ given, reader (.object given) = other (.object given))
    (hdecided : ∀ given, reader (.decided given) = other (.decided given)) :
    Reads reader (.object members) a := by
  intro decided scope hroom
  obtain ⟨members⟩ := members
  have hgives := h decided scope hroom
  cases decided with
  | false =>
    rw [Json.part_object_false] at hgives ⊢
    exact hobject _ ▸ hgives
  | true =>
    rw [Json.part_object_true] at hgives ⊢
    exact hdecided _ ▸ hgives

theorem asText (s : String) : Reads Part.asText (.string s) s :=
  .after_follow fun _ scope _ => .pure s scope

theorem asNatural {limit n : Nat} (hlimit : n ≤ limit) :
    Reads (Part.asNatural limit) (.integer n) n := by
  refine .after_follow fun decided scope _ => ?_
  show Gives (if 0 ≤ (n : Int) ∧ (n : Int) ≤ limit then pure (n : Int).toNat else failure) scope n
  rw [if_pos ⟨Int.natCast_nonneg n, Int.ofNat_le.mpr hlimit⟩, Int.toNat_natCast]
  exact .pure n scope

/-- What is there is read where it may be absent. -/
theorem asOptional {reader : Part → Reading α} (h : Reads reader json a) (hjson : json ≠ .null) :
    Reads (Part.asOptional reader) json (some a) := by
  refine .after_follow fun decided scope hroom => ?_
  have hsome : Gives (do return some (← reader (json.part decided))) scope (some a) :=
    (h decided scope hroom).bind (.pure (some a) scope)
  cases json with
  | null => exact absurd rfl hjson
  | object members =>
    obtain ⟨members⟩ := members
    cases decided <;> exact hsome
  | boolean | integer | float | string | array => exact hsome

theorem asList {reader : Part → Reading α} {items : List Json} {results : List α}
    (h : List.Forall₂ (Reads reader) items results) :
    Reads (Part.asList reader) (.array items) results := by
  refine .after_follow fun decided scope hroom => ?_
  rw [Json.nesting] at hroom
  rw [Json.part_array decided items]
  refine Gives.within (Json.nestingOfItems items) (by omega) fun inner hinner =>
    .mapM ?_
  rw [List.forall₂_map_left_iff]
  refine ((List.forall₂_and_left _ _).mpr ⟨fun item => Json.nesting_le_of_mem_items, h⟩).imp ?_
  rintro item result ⟨hle, hitem⟩
  exact hitem decided inner (Nat.le_trans hle hinner)

/-- Members are read from either way of an object. -/
theorem withMembers {reader : List (Key × Part) → Reading α} {members : List (String × Json)}
    (h : ∀ decided scope, Json.nestingOfMembers members ≤ scope.depth →
      (reader (Json.keyed decided members)).Gives scope a) :
    Reads (Part.withMembers reader) (.object ⟨members⟩) a := by
  refine .after_follow fun decided scope hroom => ?_
  rw [Json.nesting] at hroom
  have hgives : (within (reader (Json.keyed decided members))).Gives scope a :=
    Gives.within (Json.nestingOfMembers members) (by omega) (h decided)
  cases decided with
  | false =>
    rw [Json.part_object_false]
    simpa only [Json.keyed, List.map_map, Function.comp_def] using hgives
  | true =>
    rw [Json.part_object_true]
    exact hgives

/-- Members with distinct names are read in their order. -/
theorem asNamed {reader : Part → Reading α} {members : List (String × Json)}
    {entries : List (String × α)} (h : Named.Alike (Reads reader) members entries)
    (hdistinct : (entries.map Prod.fst).Nodup) :
    Reads (Part.asNamed reader) (.object ⟨members⟩) ⟨entries⟩ := by
  refine withMembers fun decided scope hroom => ?_
  rw [← Named.ofList_eq_of_nodup hdistinct]
  refine (Gives.mapM ?_).bind (.pure _ scope)
  rw [Json.keyed, List.forall₂_map_left_iff]
  refine ((List.forall₂_and_left _ _).mpr
    ⟨fun member => Json.nesting_le_of_mem_members, h⟩).imp ?_
  rintro member ⟨name, result⟩ ⟨hle, hname, hmember⟩
  obtain rfl : member.1 = name := hname
  exact (hmember decided scope (Nat.le_trans hle hroom)).bind (.pure _ scope)

/-- An alternative without content is read from its name. -/
theorem withAlternative {reader : String → Option Part → Reading α} {name : String}
    (hname : name ∈ names) (h : ∀ scope, (reader name none).Gives scope a) :
    Reads (Part.withAlternative names reader) (.string name) a := by
  refine .after_follow fun decided scope _ => ?_
  show Gives (if names.contains name then reader name none else failure) scope a
  rw [if_pos (List.contains_iff_mem.mpr hname)]
  exact h scope

/-- An alternative with content is read from the member under its name. -/
theorem withAlternative_content {reader : String → Option Part → Reading α} {name : String}
    {content : Json} (hname : name ∈ names)
    (h : Reads (fun given => reader name (some given)) content a) :
    Reads (Part.withAlternative names reader) (.object ⟨[(name, content)]⟩) a := by
  refine .after_follow fun decided scope hroom => ?_
  rw [Json.nesting, Json.nestingOfMembers, Json.nestingOfMembers] at hroom
  have hgives : (within (reader name (some (content.part decided)))).Gives scope a :=
    Gives.within content.nesting (by omega) (h decided)
  cases decided with
  | false =>
    show (within (if names.contains name then _ else failure)).Gives scope a
    rw [if_pos (List.contains_iff_mem.mpr hname)]
    exact hgives
  | true =>
    obtain ⟨position, hposition⟩ := Option.ne_none_iff_exists'.mp
      (List.idxOf?_eq_none_iff.not.mpr (not_not.mpr hname))
    obtain ⟨hlt, hget, -⟩ := List.idxOf?_eq_some_iff.mp hposition
    refine (Gives.of_eq_some (a := some position) (congrArg some hposition)).bind ?_
    have hfound : (some position).bind (names[·]?) = some name := by
      rw [Option.bind_some, List.getElem?_eq_getElem hlt, hget]
    rw [hfound]
    exact hgives

/-- The name of an alternative is read from itself. -/
theorem asAlternative {name : String} (hname : name ∈ names) :
    Reads (Part.asAlternative names) (.string name) name :=
  withAlternative hname (.pure name)

end Reads

end Document

namespace Json

/-- What members give for the fields of these names. -/
def fields (decided : Bool) (names : List String) (members : List (String × Json)) : Fields :=
  members.filterMap fun member =>
    (names.idxOf? member.1).map fun position => (position, member.2.part decided)

theorem fields_cons (decided : Bool) (member : String × Json) (rest : List (String × Json)) :
    fields decided names (member :: rest) =
      match names.idxOf? member.1 with
      | some position => (position, member.2.part decided) :: fields decided names rest
      | none => fields decided names rest := by
  unfold fields
  rw [List.filterMap_cons]
  cases names.idxOf? member.1 <;> rfl

theorem eq_of_idxOf?_eq_some {name other : String} {position : Nat}
    (hname : names.idxOf? name = some position) (hother : names.idxOf? other = some position) :
    other = name := by
  obtain ⟨_, hname, -⟩ := List.idxOf?_eq_some_iff.mp hname
  obtain ⟨_, hother, -⟩ := List.idxOf?_eq_some_iff.mp hother
  rw [← hother, hname]

/-- A field is what stands under its name. -/
theorem lookup_fields (decided : Bool) {name : String} {position : Nat}
    (hname : names.idxOf? name = some position) (members : List (String × Json)) :
    (fields decided names members).lookup position =
      (Named.find name members).map (part decided) := by
  induction members with
  | nil => rfl
  | cons member rest ih =>
    obtain ⟨other, held⟩ := member
    rw [fields_cons, Named.find]
    by_cases hsame : other = name
    · subst hsame
      simp [hname]
    · rw [if_neg hsame, ← ih]
      cases hother : names.idxOf? other with
      | none => rfl
      | some found =>
        have hne : (position == found) = false := by
          refine beq_eq_false_iff_ne.mpr ?_
          rintro rfl
          exact hsame (eq_of_idxOf?_eq_some hname hother)
        simp only [List.lookup_cons, hne]

/-- Members with distinct names give each field once. -/
theorem ofMembers?_keyed (decided : Bool) {members : List (String × Json)}
    (hdistinct : (members.map Prod.fst).Nodup) :
    Fields.ofMembers? names (keyed decided members) = some (fields decided names members) := by
  induction members with
  | nil => rfl
  | cons member rest ih =>
    rw [List.map_cons, List.nodup_cons] at hdistinct
    have hkeyed : keyed decided (member :: rest) =
        (.name member.1, member.2.part decided) :: keyed decided rest := rfl
    rw [hkeyed, Fields.ofMembers?, ih hdistinct.2, fields_cons, Key.position?]
    cases hmember : names.idxOf? member.1 with
    | none => rfl
    | some position =>
      have hnew : (fields decided names rest).any (fun field => field.1 == position) = false := by
        rw [List.any_eq_false]
        intro field hfield hposition
        obtain ⟨other, hother, hfound⟩ := List.mem_filterMap.mp hfield
        obtain ⟨found, hindex, rfl⟩ := Option.map_eq_some_iff.mp hfound
        obtain rfl : found = position := by simpa using hposition
        rw [← eq_of_idxOf?_eq_some hmember hindex] at hdistinct
        exact hdistinct.1 (List.mem_map_of_mem hother)
      simp [hnew]

end Json

namespace Document

/-- These fields are what members under these names give, and there is room for the
members. -/
structure Offered (names : List String) (members : List (String × Json)) (fields : Fields)
    (scope : Scope) : Prop where
  /-- The fields are those of the members, in one of their ways. -/
  eq : ∃ decided, fields = Json.fields decided names members
  /-- There is room for every member. -/
  room : Json.nestingOfMembers members ≤ scope.depth

namespace Reads

variable {reader : Fields → Reading α} {members : List (String × Json)}

/-- A structure is read from members with distinct names as from its fields. -/
theorem withNamedFields (hdistinct : (members.map Prod.fst).Nodup)
    (h : ∀ fields scope, Offered names members fields scope → (reader fields).Gives scope a) :
    Reads (Part.withNamedFields names reader) (.object ⟨members⟩) a :=
  withMembers fun decided scope hroom =>
    (Gives.of_eq_some (Json.ofMembers?_keyed decided hdistinct)).bind
      (h _ scope ⟨⟨decided, rfl⟩, hroom⟩)

theorem withFields (hdistinct : (members.map Prod.fst).Nodup)
    (h : ∀ fields scope, Offered names members fields scope → (reader fields).Gives scope a) :
    Reads (Part.withFields names reader) (.object ⟨members⟩) a :=
  .after_follow (object_congr (withNamedFields hdistinct h) (fun _ => rfl) fun _ => rfl)

end Reads

namespace Offered

variable {members : List (String × Json)} {fields : Fields} {scope : Scope}
  {name : String} {position : Nat}

/-- A field is read from what stands under its name, if what stands in for it is right where
the name is missing. -/
theorem field (h : Offered names members fields scope) {fallback : Option α}
    {reader : Part → Reading α} (hname : names.idxOf? name = some position)
    (hmissing : Named.find name members = none → fallback = some a)
    (hthere : ∀ json, Named.find name members = some json → Reads reader json a) :
    (fields.field fallback reader position).Gives scope a := by
  obtain ⟨⟨decided, rfl⟩, hroom⟩ := h
  unfold Fields.field
  rw [Json.lookup_fields decided hname]
  cases hfind : Named.find name members with
  | none =>
    rw [hmissing hfind]
    exact .pure a scope
  | some json =>
    have hle := Json.nesting_le_of_mem_members (Named.mem_of_find_eq_some hfind)
    exact hthere json hfind decided scope (Nat.le_trans hle hroom)

end Offered

end Document

end Dataflow
