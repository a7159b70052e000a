/-
# What readers of documents give

A reader gives something in a scope if it succeeds there, with this result, and follows no
reference. A JSON tree is a part of a document in two ways: as it stands in it, and as it is
once it has been decided without a reader. A reader reads a tree if it gives the same from
both, wherever there is room for the lists and members of the tree. Deciding turns the first
way into the second, so what is read again later is read as well.
-/

import Dataflow.Document.Fields
import Dataflow.Proofs.Named

namespace Dataflow

open Document Document.Reading

namespace Document.Reading

variable {α β : Type} {scope : Scope} {a : α} {b : β}

/-- The reader succeeds with this result, and follows no reference. -/
def Gives (reading : Reading α) (scope : Scope) (a : α) : Prop :=
  ∀ left, (reading scope).run left = some (a, left)

theorem Gives.pure (a : α) (scope : Scope) : Gives (Pure.pure a) scope a := fun _ => rfl

theorem Gives.bind {first : Reading α} {next : α → Reading β} (hfirst : first.Gives scope a)
    (hnext : (next a).Gives scope b) : Gives (first >>= next) scope b := by
  intro left
  have hbind : ((first >>= next) scope).run left =
      ((first scope).run left).bind fun found => (next found.1 scope).run found.2 := rfl
  rw [hbind, hfirst left]
  exact hnext left

/-- What does not depend on the document is given as it is. -/
theorem Gives.of_eq_some {found : Option α} (hfound : found = some a) :
    Gives (liftM found) scope a := by
  subst hfound
  exact fun _ => rfl

theorem Gives.depthLeft (scope : Scope) : Gives depthLeft scope scope.depth := fun _ => rfl

/-- Where there is room to go deeper, a reader gives there what it gives one step deeper. -/
theorem Gives.within {reading : Reading α} (depth : Nat) (hroom : depth < scope.depth)
    (h : ∀ inner : Scope, depth ≤ inner.depth → reading.Gives inner a) :
    (within reading).Gives scope a := by
  intro left
  unfold Reading.within
  rw [if_neg (by omega)]
  exact h { scope with depth := scope.depth - 1 } (by simp only; omega) left

/-- A reader of each item gives the results of all of them. -/
theorem Gives.mapM {reader : α → Reading β} {items : List α} {results : List β}
    (h : List.Forall₂ (fun item result => (reader item).Gives scope result) items results) :
    Gives (items.mapM reader) scope results := by
  induction h with
  | nil => exact .pure [] scope
  | cons hitem _ ih =>
    rw [List.mapM_cons]
    exact hitem.bind (ih.bind (.pure _ scope))

end Document.Reading

namespace Json

mutual

/-- How deep arrays and objects nest. -/
def nesting : Json → Nat
  | .array items => nestingOfItems items + 1
  | .object ⟨members⟩ => nestingOfMembers members + 1
  | _ => 0

/-- The greatest depth of items. -/
def nestingOfItems : List Json → Nat
  | [] => 0
  | item :: rest => max (nesting item) (nestingOfItems rest)

/-- The greatest depth of members. -/
def nestingOfMembers : List (String × Json) → Nat
  | [] => 0
  | (_, member) :: rest => max (nesting member) (nestingOfMembers rest)

end

theorem nesting_le_of_mem_items {item : Json} {items : List Json} (hitem : item ∈ items) :
    item.nesting ≤ nestingOfItems items := by
  induction items with
  | nil => cases hitem
  | cons first rest ih =>
    rw [nestingOfItems]
    rcases List.mem_cons.mp hitem with rfl | hrest
    · exact Nat.le_max_left _ _
    · exact Nat.le_trans (ih hrest) (Nat.le_max_right _ _)

theorem nesting_le_of_mem_members {member : String × Json} {members : List (String × Json)}
    (hmember : member ∈ members) : member.2.nesting ≤ nestingOfMembers members := by
  induction members with
  | nil => cases hmember
  | cons first rest ih =>
    rw [nestingOfMembers]
    rcases List.mem_cons.mp hmember with rfl | hrest
    · exact Nat.le_max_left _ _
    · exact Nat.le_trans (ih hrest) (Nat.le_max_right _ _)

/-- Some of the members nest no deeper than all of them. -/
theorem nestingOfMembers_mono {some all : List (String × Json)} (hsubset : some ⊆ all) :
    nestingOfMembers some ≤ nestingOfMembers all := by
  induction some with
  | nil => exact Nat.zero_le _
  | cons first rest ih =>
    obtain ⟨hfirst, hrest⟩ := List.cons_subset.mp hsubset
    rw [nestingOfMembers]
    exact Nat.max_le.mpr ⟨nesting_le_of_mem_members hfirst, ih hrest⟩

mutual

/-- The part of a document that a JSON tree is: as it stands there, or once it has been
decided. -/
def part (decided : Bool) : Json → Part
  | .null => .null
  | .boolean b => .boolean b
  | .integer n => .integer n
  | .float x => .float x
  | .string s => .text s
  | .array items => .array (itemParts decided items)
  | .object ⟨members⟩ =>
    if decided then
      .decided ((memberParts decided members).map fun member => (.name member.1, member.2))
    else .object ⟨memberParts decided members⟩

/-- The parts that the items of an array are. -/
def itemParts (decided : Bool) : List Json → List Part
  | [] => []
  | item :: rest => part decided item :: itemParts decided rest

/-- The parts that the members of an object are, with their names. -/
def memberParts (decided : Bool) : List (String × Json) → List (String × Part)
  | [] => []
  | (name, member) :: rest => (name, part decided member) :: memberParts decided rest

end

theorem itemParts_eq_map (decided : Bool) (items : List Json) :
    itemParts decided items = items.map (part decided) := by
  induction items with
  | nil => rfl
  | cons item rest ih => rw [itemParts, ih, List.map_cons]

theorem memberParts_eq_map (decided : Bool) (members : List (String × Json)) :
    memberParts decided members =
      members.map fun member => (member.1, member.2.part decided) := by
  induction members with
  | nil => rfl
  | cons member rest ih => rw [memberParts, ih, List.map_cons]

/-- The parts that members are, under their names as keys. -/
def keyed (decided : Bool) (members : List (String × Json)) : List (Key × Part) :=
  members.map fun member => (.name member.1, member.2.part decided)

theorem part_array (decided : Bool) (items : List Json) :
    (array items).part decided = .array (items.map (part decided)) := by
  rw [part, itemParts_eq_map]

theorem part_object_true (members : List (String × Json)) :
    (object ⟨members⟩).part true = .decided (keyed true members) := by
  rw [part, if_pos rfl, memberParts_eq_map, List.map_map]
  rfl

theorem part_object_false (members : List (String × Json)) :
    (object ⟨members⟩).part false =
      .object ⟨members.map fun member => (member.1, member.2.part false)⟩ := by
  rw [part, if_neg Bool.false_ne_true, memberParts_eq_map]

mutual

/-- As it stands, a tree is the part that a document has for it. -/
theorem part_false : ∀ json : Json, json.part false = .ofJson json
  | .null | .boolean _ | .integer _ | .float _ | .string _ => rfl
  | .array items => by rw [part, Part.ofJson, itemParts_false items]
  | .object ⟨members⟩ => by
    rw [part, Part.ofJson, memberParts_false members, if_neg Bool.false_ne_true]

theorem itemParts_false : ∀ items : List Json, itemParts false items = Part.itemsOfJson items
  | [] => rfl
  | item :: rest => by rw [itemParts, Part.itemsOfJson, part_false item, itemParts_false rest]

theorem memberParts_false : ∀ members : List (String × Json),
    memberParts false members = Part.membersOfJson members
  | [] => rfl
  | (name, member) :: rest => by
    rw [memberParts, Part.membersOfJson, part_false member, memberParts_false rest]

end

mutual

theorem depth_ofJson : ∀ json : Json, (Part.ofJson json).depth = json.nesting
  | .null | .boolean _ | .integer _ | .float _ | .string _ => rfl
  | .array items => by rw [Part.ofJson, Part.depth, nesting, depthOfItems_ofJson items]
  | .object ⟨members⟩ => by rw [Part.ofJson, Part.depth, nesting, depthOfMembers_ofJson members]

theorem depthOfItems_ofJson : ∀ items : List Json,
    Part.depthOfItems (Part.itemsOfJson items) = nestingOfItems items
  | [] => rfl
  | item :: rest => by
    rw [Part.itemsOfJson, Part.depthOfItems, nestingOfItems, depth_ofJson item,
      depthOfItems_ofJson rest]

theorem depthOfMembers_ofJson : ∀ members : List (String × Json),
    Part.depthOfMembers (Part.membersOfJson members) = nestingOfMembers members
  | [] => rfl
  | (_, member) :: rest => by
    rw [Part.membersOfJson, Part.depthOfMembers, nestingOfMembers, depth_ofJson member,
      depthOfMembers_ofJson rest]

end

/-- No reference stands for a part of a tree. -/
theorem follow_part (decided : Bool) (json : Json) (scope : Scope) :
    (json.part decided).follow.Gives scope (json.part decided) := by
  cases json with
  | object members =>
    obtain ⟨members⟩ := members
    cases decided <;> exact .pure _ scope
  | null | boolean | integer | float | string | array => exact .pure _ scope

/-- Deciding a tree gives its other way, or the same if it has been decided. -/
theorem settledWithin_part (decided : Bool) {fuel : Nat} {json : Json} {scope : Scope}
    (hfuel : json.nesting < fuel) (hroom : json.nesting ≤ scope.depth) :
    ((json.part decided).settledWithin fuel).Gives scope (json.part true) := by
  induction fuel generalizing json scope with
  | zero => exact absurd hfuel (Nat.not_lt_zero _)
  | succ fuel ih =>
    rw [Part.settledWithin]
    refine (follow_part decided json scope).bind ?_
    cases json with
    | null | boolean | integer | float | string => exact .pure _ scope
    | array items =>
      rw [part_array, part_array]
      rw [nesting] at hfuel hroom
      refine (Gives.within (nestingOfItems items) (by omega) fun inner hinner =>
        .mapM ?_).bind (.pure _ scope)
      rw [List.forall₂_map_left_iff, List.forall₂_map_right_iff, List.forall₂_same]
      intro item hitem
      have hle := nesting_le_of_mem_items hitem
      exact ih (by omega) (by omega)
    | object members =>
      obtain ⟨members⟩ := members
      rw [nesting] at hfuel hroom
      have hmember (member : String × Json) (hmember : member ∈ members) (inner : Scope)
          (hinner : nestingOfMembers members ≤ inner.depth) :
          ((member.2.part decided).settledWithin fuel).Gives inner (member.2.part true) := by
        have hle := nesting_le_of_mem_members hmember
        exact ih (by omega) (by omega)
      -- Members stand under names before, and under keys once they have been decided.
      cases decided with
      | false =>
        rw [part_object_false, part_object_true]
        refine Gives.within (nestingOfMembers members) (by omega) fun inner hinner =>
          (Gives.mapM ?_).bind (.pure _ inner)
        rw [keyed, List.forall₂_map_left_iff, List.forall₂_map_right_iff, List.forall₂_same]
        exact fun member hmem => (hmember member hmem inner hinner).bind (.pure _ inner)
      | true =>
        rw [part_object_true]
        refine Gives.within (nestingOfMembers members) (by omega) fun inner hinner =>
          (Gives.mapM ?_).bind (.pure _ inner)
        rw [keyed, List.forall₂_map_left_iff, List.forall₂_map_right_iff, List.forall₂_same]
        exact fun member hmem => (hmember member hmem inner hinner).bind (.pure _ inner)

theorem settled_part (decided : Bool) {json : Json} {scope : Scope}
    (hroom : json.nesting ≤ scope.depth) :
    (json.part decided).settled.Gives scope (json.part true) :=
  (Gives.depthLeft scope).bind (settledWithin_part decided (Nat.lt_succ_of_le hroom) hroom)

/-- Members that are decided, each by itself, are those that are decided together. -/
theorem settled_members (decided : Bool) {members : List (String × Json)} {scope : Scope}
    (hroom : nestingOfMembers members ≤ scope.depth) :
    Gives ((keyed decided members).mapM fun (key, member) => do
      return (key, ← Part.settled member)) scope (keyed true members) := by
  refine .mapM ?_
  rw [keyed, keyed, List.forall₂_map_left_iff, List.forall₂_map_right_iff, List.forall₂_same]
  intro member hmember
  have hle := nesting_le_of_mem_members hmember
  exact (settled_part decided (Nat.le_trans hle hroom)).bind (.pure _ scope)

end Json

end Dataflow
