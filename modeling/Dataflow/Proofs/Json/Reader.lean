/-
# Reading what was written

The reader takes the tokens of a tree as the tree, whatever containers are open around it, by
induction on the tree. So the compact text of a tree is read as this tree, if its numbers are read
back where they stand alone, no name occurs twice in an object, and it does not nest too deep.
Integers that fit 64 bits are read back; a float is if what its digits spell comes out exact.
-/

import Dataflow.Proofs.Document.Reading
import Dataflow.Proofs.Json.Lexer

namespace Dataflow.Json

open Document (Part)

section Parts

theorem itemsOfJson_eq_map (items : List Json) : Part.itemsOfJson items = items.map Part.ofJson := by
  induction items with
  | nil => rfl
  | cons item rest ih => rw [Part.itemsOfJson, ih, List.map_cons]

theorem membersOfJson_eq_map (members : List (String × Json)) :
    Part.membersOfJson members = members.map fun member => (member.1, .ofJson member.2) := by
  induction members with
  | nil => rfl
  | cons member rest ih => rw [Part.membersOfJson, ih, List.map_cons]

/-- Members whose names can be read make up an object. -/
theorem objectOf_reverse (members : List (String × Part)) :
    objectOf (members.map fun member => (some member.1, member.2)).reverse = .object ⟨members⟩ := by
  have hnames : (members.map fun member => (some member.1, member.2)).mapM
      (fun (member : Option String × Part) => member.1.map fun name => (name, member.2)) =
        some members := by
    induction members with
    | nil => rfl
    | cons member rest ih => rw [List.map_cons, List.mapM_cons, ih]; rfl
  rw [objectOf, List.reverse_reverse]
  rw [hnames]

end Parts

namespace Reading

variable {state next : Reading} {token : Token} {stack : List OpenContainer} {rest : List Token}

theorem run?_cons (h : state.step? token = some next) :
    state.run? (token :: rest) = next.run? rest := by
  rw [run?, h, Option.bind_some]

/-- The tokens are read as a value, whatever is open around it. -/
def Reads (tokens : List Token) (part : Part) : Prop :=
  ∀ stack rest, run? ⟨stack, .value⟩ (tokens ++ rest) =
    (complete? stack part).bind fun next => next.run? rest

/-- The first item of an array is read as any other value is. -/
theorem run?_firstItem (json : Json) :
    run? ⟨stack, .firstItem⟩ (json.tokens ++ rest) = run? ⟨stack, .value⟩ (json.tokens ++ rest) := by
  cases json with
  | object members => rfl
  | null | boolean | integer | float | string | array => rfl

/-- Items after the first, with the end of their array. -/
theorem run?_items {items : List Json} (hread : ∀ item ∈ items, Reads item.tokens (.ofJson item))
    (done : List Part) :
    run? ⟨.array done :: stack, .separator⟩
        ((items.map tokens).flatMap (.comma :: ·) ++ .closeArray :: rest) =
      (complete? stack (.array (done.reverse ++ items.map Part.ofJson))).bind
        fun next => next.run? rest := by
  induction items generalizing done with
  | nil =>
    rw [List.map_nil, List.map_nil, List.append_nil, List.flatMap_nil, List.nil_append, run?]
    rfl
  | cons item items ih =>
    obtain ⟨hitem, hitems⟩ := List.forall_mem_cons.mp hread
    have hcomma : step? ⟨.array done :: stack, .separator⟩ .comma =
        some ⟨.array done :: stack, .value⟩ := rfl
    rw [List.map_cons, List.flatMap_cons, List.cons_append, List.cons_append, run?_cons hcomma,
      List.append_assoc, hitem, complete?, Option.bind_some, ih hitems, List.reverse_cons,
      List.append_assoc]
    rfl

/-- A member, the first of its object or a later one. -/
theorem run?_member {member : String × Json} (hread : Reads member.2.tokens (.ofJson member.2))
    {done : List (Option String × Part)} {expected : Expectation}
    (hname : step? ⟨.object done :: stack, expected⟩ (.string (some member.1)) =
      some ⟨.member done (some member.1) :: stack, .colon⟩) :
    run? ⟨.object done :: stack, expected⟩ (memberTokens member ++ rest) =
      run? ⟨.object ((some member.1, .ofJson member.2) :: done) :: stack, .separator⟩ rest := by
  have hcolon : step? ⟨.member done (some member.1) :: stack, .colon⟩ .colon =
      some ⟨.member done (some member.1) :: stack, .value⟩ := rfl
  rw [memberTokens, List.cons_append, List.cons_append, run?_cons hname, run?_cons hcolon, hread,
    complete?, Option.bind_some]

/-- Members after the first, with the end of their object. -/
theorem run?_members {members : List (String × Json)}
    (hread : ∀ member ∈ members, Reads member.2.tokens (.ofJson member.2))
    (done : List (Option String × Part)) :
    run? ⟨.object done :: stack, .separator⟩
        ((members.map memberTokens).flatMap (.comma :: ·) ++ .closeObject :: rest) =
      (complete? stack (objectOf
          ((members.map fun member => (some member.1, .ofJson member.2)).reverse ++ done))).bind
        fun next => next.run? rest := by
  induction members generalizing done with
  | nil =>
    rw [List.map_nil, List.map_nil, List.flatMap_nil, List.nil_append, List.reverse_nil,
      List.nil_append, run?]
    rfl
  | cons member members ih =>
    obtain ⟨hmember, hmembers⟩ := List.forall_mem_cons.mp hread
    have hcomma : step? ⟨.object done :: stack, .separator⟩ .comma =
        some ⟨.object done :: stack, .name⟩ := rfl
    rw [List.map_cons, List.flatMap_cons, List.cons_append, List.cons_append, run?_cons hcomma,
      List.append_assoc, run?_member hmember rfl, ih hmembers, List.map_cons, List.reverse_cons,
      List.append_assoc]
    rfl

/-- The tokens of a tree are read as the tree. -/
theorem reads_tokens (json : Json) : Reads json.tokens (.ofJson json) := by
  induction json using induct with
  | null | boolean | integer | float | string =>
    intro stack rest
    rfl
  | array items ih =>
    intro stack rest
    have hopen : step? ⟨stack, .value⟩ .openArray = some ⟨.array [] :: stack, .firstItem⟩ := rfl
    rw [tokens, tokensOfItems_eq_map, List.append_assoc, List.cons_append, run?_cons hopen,
      Part.ofJson, itemsOfJson_eq_map]
    cases items with
    | nil => rfl
    | cons item items =>
      obtain ⟨hitem, hitems⟩ := List.forall_mem_cons.mp ih
      rw [List.map_cons, intercalate_cons, List.append_assoc, run?_firstItem, hitem, complete?,
        Option.bind_some]
      exact run?_items hitems [.ofJson item]
  | object members ih =>
    intro stack rest
    have hopen : step? ⟨stack, .value⟩ .openObject = some ⟨.object [] :: stack, .firstName⟩ := rfl
    rw [tokens, tokensOfMembers_eq_map, List.append_assoc, List.cons_append, run?_cons hopen,
      Part.ofJson, membersOfJson_eq_map, ← objectOf_reverse, List.map_map]
    cases members with
    | nil => rfl
    | cons member members =>
      obtain ⟨hmember, hmembers⟩ := List.forall_mem_cons.mp ih
      rw [List.map_cons, intercalate_cons, List.append_assoc, run?_member hmember rfl,
        List.map_cons, List.reverse_cons]
      exact run?_members hmembers [(some member.1, .ofJson member.2)]

end Reading

/-- A tree is the part that it is, where it does not nest too deep. -/
theorem json?_ofJson {json : Json} {depth : Nat} (hdepth : json.nesting ≤ depth) :
    (Part.ofJson json).json? depth = some json := by
  have hitems (items : List Json) (depth : Nat)
      (hread : ∀ item ∈ items, (Part.ofJson item).json? depth = some item) :
      Part.itemsJson? depth (items.map Part.ofJson) = some items := by
    induction items with
    | nil => rfl
    | cons item items ih =>
      obtain ⟨hitem, hitems⟩ := List.forall_mem_cons.mp hread
      rw [List.map_cons, Part.itemsJson?, hitem]
      simp only [ih hitems, Option.map_some]
  have hmembers (members : List (String × Json)) (depth : Nat)
      (hread : ∀ member ∈ members, (Part.ofJson member.2).json? depth = some member.2) :
      Part.membersJson? depth (members.map fun member => (member.1, .ofJson member.2)) =
        some members := by
    induction members with
    | nil => rfl
    | cons member members ih =>
      obtain ⟨hmember, hmembers⟩ := List.forall_mem_cons.mp hread
      rw [List.map_cons, Part.membersJson?, hmember]
      simp only [ih hmembers, Option.map_some]
  induction json using induct generalizing depth with
  | null | boolean | integer | float | string => rfl
  | array items ih =>
    rw [nesting] at hdepth
    rw [Part.ofJson, itemsOfJson_eq_map, Part.json?, if_neg (by omega), hitems, Option.map_some]
    intro item hitem
    have hle := nesting_le_of_mem_items hitem
    exact ih item hitem (by omega)
  | object members ih =>
    rw [nesting] at hdepth
    rw [Part.ofJson, membersOfJson_eq_map, Part.json?, if_neg (by omega), hmembers,
      Option.map_some]
    intro member hmember
    have hle := nesting_le_of_mem_members hmember
    exact ih member hmember (by omega)

/-- The compact text of a tree is read as the tree, with repeated members merged. -/
theorem read?_compact {json : Json} (hnumbers : ∀ number ∈ json.numbers, number.ReadsAlone)
    (hdepth : json.nesting ≤ usualDepth) : read? json.compact = some json.merged := by
  have hpart : part? json.compact = some (.ofJson json) := by
    have hread := Reading.reads_tokens json [] []
    rw [List.append_nil] at hread
    rw [part?, tokens?_compact hnumbers, Option.bind_some, hread]
    rfl
  rw [read?, hpart, Option.bind_some, json?_ofJson hdepth, Option.map_some]

end Dataflow.Json
