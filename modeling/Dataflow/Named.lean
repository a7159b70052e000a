/-
# Ordered named collections

A `Named α` lists entries, each a name with something of type `α`, in the order
in which the names were first inserted. Inserting under a name that is already
present replaces what stands there and keeps its place. Records, argument lists,
value tables and the inputs of nodes are all collections of this kind, so the
laws of insertion and lookup are stated once, here.

`Named.Distinct` says that no name occurs twice. Every collection built by
`Named.insert` and `Named.ofList` has it.
-/

namespace Dataflow

/-- The decimal numeral of a natural number. -/
def numeral (n : Nat) : String :=
  String.ofList (Nat.toDigits 10 n)

/-- Entries under names, in the order in which the names were first inserted. -/
structure Named (α : Type) where
  /-- The entries, first inserted first. -/
  entries : List (String × α)
deriving DecidableEq, Repr, Inhabited

namespace Named

variable {α β : Type}

/-- Put `value` under `name` in a list of entries: in place if the name is
there, at the end if it is not. -/
def put (name : String) (value : α) : List (String × α) → List (String × α)
  | [] => [(name, value)]
  | (other, held) :: rest =>
    if other = name then (other, value) :: rest
    else (other, held) :: put name value rest

/-- What stands under `name` in a list of entries. -/
def find (name : String) : List (String × α) → Option α
  | [] => none
  | (other, held) :: rest => if other = name then some held else find name rest

/-- The list of entries without the first one under `name`. -/
def drop (name : String) : List (String × α) → List (String × α)
  | [] => []
  | (other, held) :: rest =>
    if other = name then rest else (other, held) :: drop name rest

def empty : Named α := ⟨[]⟩

instance : EmptyCollection (Named α) := ⟨empty⟩

/-- Put a value under a name, replacing what stood there. -/
def insert (c : Named α) (name : String) (value : α) : Named α :=
  ⟨put name value c.entries⟩

/-- What stands under a name. -/
def get? (c : Named α) (name : String) : Option α :=
  find name c.entries

/-- The entry at a position, counted from zero. -/
def entryAt? (c : Named α) (position : Nat) : Option (String × α) :=
  c.entries[position]?

/-- The collection without the entry under a name. -/
def erase (c : Named α) (name : String) : Named α :=
  ⟨drop name c.entries⟩

def names (c : Named α) : List String :=
  c.entries.map Prod.fst

/-- What stands under the names, in order. -/
def values (c : Named α) : List α :=
  c.entries.map Prod.snd

def size (c : Named α) : Nat :=
  c.entries.length

def isEmpty (c : Named α) : Bool :=
  c.entries.isEmpty

/-- Whether some entry has this name. -/
def contains (c : Named α) (name : String) : Bool :=
  (c.get? name).isSome

/-- Insert a list of entries one after another. -/
def insertAll (c : Named α) (entries : List (String × α)) : Named α :=
  entries.foldl (fun built entry => built.insert entry.1 entry.2) c

/-- Insert a list of entries into the empty collection. -/
def ofList (entries : List (String × α)) : Named α :=
  insertAll empty entries

/-- The first collection extended by the second, whose entries win. -/
def merge (c d : Named α) : Named α :=
  c.insertAll d.entries

/-- Apply a function to everything that stands under a name. -/
def map (f : α → β) (c : Named α) : Named β :=
  ⟨c.entries.map fun entry => (entry.1, f entry.2)⟩

/-- Items paired with the numerals of their positions. -/
def numbered (items : List α) : List (String × α) :=
  items.zipIdx.map fun (item, position) => (numeral position, item)

/-- The collection whose names are `0`, `1`, ... -/
def positional (items : List α) : Named α :=
  ofList (numbered items)

/-- Whether a list of names is `0`, `1`, ... counted from `start`. -/
def areNumerals (start : Nat) : List String → Bool
  | [] => true
  | name :: rest => name == numeral start && areNumerals (start + 1) rest

/-- Whether the names are `0`, `1`, ... in order. -/
def isPositional (c : Named α) : Bool :=
  areNumerals 0 c.names

/-- No name occurs twice. -/
def Distinct (c : Named α) : Prop :=
  c.names.Nodup

instance (c : Named α) : Decidable c.Distinct :=
  inferInstanceAs (Decidable c.names.Nodup)

@[simp] theorem find_put_self (name : String) (value : α)
    (entries : List (String × α)) : find name (put name value entries) = some value := by
  induction entries with
  | nil => simp [put, find]
  | cons entry rest ih =>
    obtain ⟨other, held⟩ := entry
    by_cases hsame : other = name <;> simp [put, find, hsame, ih]

theorem find_put_of_ne {name sought : String} (value : α)
    (hne : sought ≠ name) (entries : List (String × α)) :
    find sought (put name value entries) = find sought entries := by
  induction entries with
  | nil => simp [put, find, hne.symm]
  | cons entry rest ih =>
    obtain ⟨other, held⟩ := entry
    by_cases hsame : other = name
    · simp [put, find, hsame, hne.symm]
    · simp [put, find, hsame, ih]

/-- Reading the inserted name gives the inserted value. -/
@[simp] theorem get?_insert_self (c : Named α) (name : String) (value : α) :
    (c.insert name value).get? name = some value :=
  find_put_self name value c.entries

/-- Inserting changes what stands under no other name. -/
theorem get?_insert_of_ne (c : Named α) {name sought : String} (value : α)
    (hne : sought ≠ name) : (c.insert name value).get? sought = c.get? sought :=
  find_put_of_ne value hne c.entries

/-- The names after an insertion: the new name comes last, a known one stays. -/
theorem names_put (name : String) (value : α) (entries : List (String × α)) :
    (put name value entries).map Prod.fst =
      if name ∈ entries.map Prod.fst then entries.map Prod.fst
      else entries.map Prod.fst ++ [name] := by
  induction entries with
  | nil => simp [put]
  | cons entry rest ih =>
    obtain ⟨other, held⟩ := entry
    by_cases hsame : other = name
    · simp [put, hsame]
    · have hother : name ≠ other := fun h => hsame h.symm
      simp only [put, hsame, if_false, List.map_cons, ih, List.mem_cons, hother, false_or]
      split <;> simp

theorem distinct_empty : (empty : Named α).Distinct :=
  List.nodup_nil

/-- Insertion keeps the names distinct. -/
theorem Distinct.insert {c : Named α} (h : c.Distinct) (name : String) (value : α) :
    (c.insert name value).Distinct := by
  unfold Distinct names Named.insert
  rw [names_put]
  split
  · exact h
  · rename_i habsent
    rw [List.nodup_append]
    refine ⟨h, by simp, ?_⟩
    intro first hfirst second hsecond hequal
    simp only [List.mem_singleton] at hsecond
    exact habsent (hsecond ▸ hequal ▸ hfirst)

theorem Distinct.insertAll {c : Named α} (h : c.Distinct)
    (entries : List (String × α)) : (c.insertAll entries).Distinct := by
  induction entries generalizing c with
  | nil => exact h
  | cons entry rest ih => exact ih (h.insert entry.1 entry.2)

/-- A collection built by insertion has distinct names. -/
theorem distinct_ofList (entries : List (String × α)) : (ofList entries).Distinct :=
  distinct_empty.insertAll entries

end Named

end Dataflow
