/-
# Members of structured data

Structures are written as members, of which some are left out when they hold nothing. Here is
what stands under a name among such members and which names they have, so that the names of a
structure are distinct however many of them are left out. A field that was written is read
back, and so is one that was left out.
-/

import Dataflow.Deployment.Document
import Dataflow.Proofs.Document.Fields
import Dataflow.Workflow.Document

namespace Dataflow

open Document Document.Reading

variable {α : Type}

@[simp]
theorem Named.find_append (name : String) (first second : List (String × α)) :
    Named.find name (first ++ second) = (Named.find name first).or (Named.find name second) := by
  induction first with
  | nil => rfl
  | cons entry rest ih =>
    obtain ⟨other, held⟩ := entry
    by_cases hsame : other = name <;> simp [Named.find, hsame, ih]

namespace Data

theorem itemsToJson_eq_map (items : List Data) : itemsToJson items = items.map toJson := by
  induction items with
  | nil => rfl
  | cons item rest ih => rw [itemsToJson, ih, List.map_cons]

theorem membersToJson_eq_map (members : List (String × Data)) :
    membersToJson members = members.map fun member => (member.1, member.2.toJson) := by
  induction members with
  | nil => rfl
  | cons member rest ih => rw [membersToJson, ih, List.map_cons]

theorem toJson_integer_ne_null (n : Int) : (integer n).toJson ≠ .null := nofun

theorem toJson_string_ne_null (s : String) : (string s).toJson ≠ .null := nofun

theorem toJson_ofMembers_ne_null (members : List (String × Data)) :
    (ofMembers members).toJson ≠ .null := nofun

theorem find_membersToJson (name : String) (members : List (String × Data)) :
    Named.find name (membersToJson members) = (Named.find name members).map toJson := by
  rw [membersToJson_eq_map, Named.find_map]

theorem map_fst_membersToJson (members : List (String × Data)) :
    (membersToJson members).map Prod.fst = members.map Prod.fst := by
  rw [membersToJson_eq_map, List.map_map]
  rfl

@[simp]
theorem find_optional (sought name : String) (write : α → Data) (held : Option α) :
    Named.find sought (optional name write held) =
      if name = sought then held.map write else none := by
  cases held <;> simp [optional, Named.find]

@[simp]
theorem find_texts (sought name : String) (items : List String) :
    Named.find sought (texts name items) =
      if name = sought ∧ items ≠ [] then some (.array (items.map .string)) else none := by
  cases items <;> simp [texts, Named.find]

@[simp]
theorem find_membersUnlessEmpty (sought name : String) (members : List (String × Data)) :
    Named.find sought (membersUnlessEmpty name members) =
      if name = sought ∧ members ≠ [] then some (.ofMembers members) else none := by
  cases members <;> simp [membersUnlessEmpty, Named.find]

@[simp]
theorem find_toMember (sought name : String) (hardware : Hardware) :
    Named.find sought (hardware.toMember name) =
      if name = sought ∧ hardware.isEmpty = false then some hardware.toData else none := by
  cases hempty : hardware.isEmpty <;> simp [Hardware.toMember, Named.find, hempty]

theorem nesting_lt_of_mem {item : Data} {items : List Data} (hitem : item ∈ items) :
    item.toJson.nesting < (array items).toJson.nesting := by
  rw [toJson, Json.nesting, itemsToJson_eq_map]
  exact Nat.lt_succ_of_le (Json.nesting_le_of_mem_items (List.mem_map_of_mem hitem))

theorem nesting_lt_of_mem_members (name : String) {data : Data} {members : List (String × Data)}
    (hmem : (name, data) ∈ members) :
    data.toJson.nesting < (ofMembers members).toJson.nesting := by
  have hjson : (name, data.toJson) ∈ membersToJson members := by
    rw [membersToJson_eq_map]
    exact List.mem_map.mpr ⟨_, hmem, rfl⟩
  rw [ofMembers, toJson, Json.nesting]
  exact Nat.lt_succ_of_le (Json.nesting_le_of_mem_members hjson)

theorem nesting_lt_variant (name : String) (content : Data) :
    content.toJson.nesting < (variant name content).toJson.nesting := by
  have hone : (variant name content).toJson = (ofMembers [(name, content)]).toJson := rfl
  rw [hone]
  exact nesting_lt_of_mem_members name (by simp)

/-- Members have their names among these, in this order and each once at most. -/
def NamedIn (members : List (String × Data)) (names : List String) : Prop :=
  (members.map Prod.fst).Sublist names

theorem NamedIn.append {first second : List (String × Data)} {names further : List String}
    (hfirst : NamedIn first names) (hsecond : NamedIn second further) :
    NamedIn (first ++ second) (names ++ further) := by
  unfold NamedIn
  rw [List.map_append]
  exact List.Sublist.append hfirst hsecond

theorem NamedIn.cons {members : List (String × Data)} {names : List String} (name : String)
    (data : Data) (h : NamedIn members names) :
    NamedIn ((name, data) :: members) (name :: names) :=
  List.Sublist.cons_cons name h

theorem NamedIn.nodup {members : List (String × Data)} {names : List String}
    (h : NamedIn members names) (hdistinct : names.Nodup) :
    ((membersToJson members).map Prod.fst).Nodup := by
  rw [map_fst_membersToJson]
  exact List.Sublist.nodup h hdistinct

theorem NamedIn.not_mem {members : List (String × Data)} {names : List String} {name : String}
    (h : NamedIn members names) (hname : name ∉ names) :
    name ∉ (membersToJson members).map Prod.fst := by
  rw [map_fst_membersToJson]
  exact fun hmem => hname (List.Sublist.subset h hmem)

theorem NamedIn.filter_eq_self {members : List (String × Data)} {names : List String}
    (h : NamedIn members names) {p : String → Bool} (hall : ∀ name ∈ names, p name = true) :
    members.filter (fun member => p member.1) = members :=
  List.filter_eq_self.mpr fun _ hmember =>
    hall _ (List.Sublist.subset h (List.mem_map_of_mem hmember))

theorem NamedIn.filter_eq_nil {members : List (String × Data)} {names : List String}
    (h : NamedIn members names) {p : String → Bool} (hall : ∀ name ∈ names, ¬p name = true) :
    members.filter (fun member => p member.1) = [] :=
  List.filter_eq_nil_iff.mpr fun _ hmember =>
    hall _ (List.Sublist.subset h (List.mem_map_of_mem hmember))

theorem namedIn_nil : NamedIn [] [] := List.Sublist.refl _

theorem namedIn_optional (name : String) (write : α → Data) (held : Option α) :
    NamedIn (optional name write held) [name] := by
  cases held <;> simp [NamedIn, optional]

theorem namedIn_texts (name : String) (items : List String) :
    NamedIn (texts name items) [name] := by
  cases items <;> simp [NamedIn, texts]

theorem namedIn_membersUnlessEmpty (name : String) (members : List (String × Data)) :
    NamedIn (membersUnlessEmpty name members) [name] := by
  cases members <;> simp [NamedIn, membersUnlessEmpty]

theorem namedIn_toMember (name : String) (hardware : Hardware) :
    NamedIn (hardware.toMember name) [name] := by
  cases hempty : hardware.isEmpty <;> simp [NamedIn, Hardware.toMember, hempty]

end Data

namespace Document

variable {names : List String} {members : List (String × Data)} {fields : Fields}
  {scope : Scope} {reader : Part → Reading α} {position : Nat} {a : α}

namespace Reads

/-- A list is read back if each of its items is. -/
theorem array {write : α → Data} {items : List α}
    (h : ∀ a ∈ items, Reads reader (write a).toJson a) :
    Reads (Part.asList reader) (Data.array (items.map write)).toJson items := by
  rw [Data.toJson, Data.itemsToJson_eq_map, List.map_map]
  refine .asList ?_
  rw [List.forall₂_map_left_iff, List.forall₂_same]
  exact h

/-- What stands under distinct names is read back if each of it is. -/
theorem entries {write : α → Data} {entries : List (String × α)}
    (hdistinct : (entries.map Prod.fst).Nodup)
    (h : ∀ entry ∈ entries, Reads reader (write entry.2).toJson entry.2) :
    Reads (Part.asNamed reader)
      (Data.ofMembers (entries.map fun entry => (entry.1, write entry.2))).toJson ⟨entries⟩ := by
  rw [Data.ofMembers, Data.toJson, Data.membersToJson_eq_map, List.map_map]
  refine .asNamed ?_ hdistinct
  unfold Named.Alike
  rw [List.forall₂_map_left_iff, List.forall₂_same]
  exact fun entry hentry => ⟨rfl, h entry hentry⟩

/-- A structure is read back from the members that are written for it. -/
theorem ofMembers {reader : Fields → Reading α} {known : List String}
    (hnamed : Data.NamedIn members known) (hdistinct : known.Nodup)
    (h : ∀ fields scope, Offered names (Data.membersToJson members) fields scope →
      (reader fields).Gives scope a) :
    Reads (Part.withFields names reader) (Data.ofMembers members).toJson a :=
  .withFields (hnamed.nodup hdistinct) h

end Reads

namespace Offered

/-- A field that is always written is read back. -/
theorem required (h : Offered names (Data.membersToJson members) fields scope) (name : String)
    (data : Data) (hname : names.idxOf? name = some position)
    (hfind : Named.find name members = some data) (hreads : Reads reader data.toJson a) :
    (fields.required reader position).Gives scope a := by
  have hjson : Named.find name (Data.membersToJson members) = some data.toJson := by
    rw [Data.find_membersToJson, hfind, Option.map_some]
  refine h.field hname (fun hmissing => ?_) fun json hthere => ?_
  · rw [hjson] at hmissing
    cases hmissing
  · rw [hjson, Option.some.injEq] at hthere
    exact hthere ▸ hreads

/-- A field that is written if there is something is read back, also where there is
nothing. -/
theorem optional (h : Offered names (Data.membersToJson members) fields scope) (name : String)
    (write : α → Data) (held : Option α) (hname : names.idxOf? name = some position)
    (hfind : Named.find name members = held.map write)
    (hreads : ∀ a ∈ held, Reads reader (write a).toJson a)
    (hwritten : ∀ a, (write a).toJson ≠ .null) :
    (fields.optional reader position).Gives scope held := by
  have hjson : Named.find name (Data.membersToJson members) =
      held.map fun a => (write a).toJson := by
    rw [Data.find_membersToJson, hfind, Option.map_map]
    rfl
  refine h.field hname (fun hmissing => ?_) fun json hthere => ?_
  · rw [hjson, Option.map_eq_none_iff] at hmissing
    rw [hmissing]
  · rw [hjson, Option.map_eq_some_iff] at hthere
    obtain ⟨a, rfl, rfl⟩ := hthere
    exact (hreads a rfl).asOptional (hwritten a)

/-- A field that is left out where the fallback is meant is read back. -/
theorem defaulting (h : Offered names (Data.membersToJson members) fields scope) (name : String)
    (hname : names.idxOf? name = some position) {condition : Prop} [Decidable condition]
    {data : Data} {fallback : α}
    (hfind : Named.find name members = if condition then some data else none)
    (hfallback : ¬condition → fallback = a) (hreads : Reads reader data.toJson a) :
    (fields.field (some fallback) reader position).Gives scope a := by
  have hjson : Named.find name (Data.membersToJson members) =
      if condition then some data.toJson else none := by
    rw [Data.find_membersToJson, hfind]
    split <;> rfl
  refine h.field hname (fun hmissing => ?_) fun json hthere => ?_
  · rw [hjson] at hmissing
    split at hmissing
    · cases hmissing
    · rw [hfallback ‹_›]
  · rw [hjson] at hthere
    split at hthere
    · cases hthere
      exact hreads
    · cases hthere

/-- A list of texts is read back, also where it is empty. -/
theorem texts (h : Offered names (Data.membersToJson members) fields scope) (name : String)
    (items : List String) (hname : names.idxOf? name = some position)
    (hfind : Named.find name members =
      if items ≠ [] then some (.array (items.map .string)) else none) :
    (fields.field (some []) (Part.asList Part.asText) position).Gives scope items := by
  exact h.defaulting name hname hfind (fun hempty => (not_not.mp hempty).symm)
    (.array fun s _ => .asText s)

end Offered

end Document

end Dataflow
