/-
# Positional records

A positional record keeps everything that it is made of: the fields have the numerals from zero as
their names, in order, and since different numbers have different numerals none replaces another.
So each item stands under its position and under the numeral of it, for records of values and of
expressions alike, and a composite of expressions resolves to the positional record of what they
resolve to. The records whose names are the numerals from zero are exactly those that are made in
this way.
-/

import Dataflow.Proofs.Expr.Reading

namespace Dataflow

namespace Named

variable {α : Type}

/-- The entries of a collection are some items in order, under the numerals of their positions. -/
structure Enumerates (c : Named α) (items : List α) : Prop where
  size : c.size = items.length
  /-- The names are the numerals from zero, in order. -/
  names : c.names = (List.range items.length).map numeral
  /-- At a position stands the item of that position, under the numeral. -/
  entryAt? (position : Nat) :
    c.entryAt? position = items[position]?.map fun item => (numeral position, item)
  /-- Under the numeral of a position stands the item of that position. -/
  get? (position : Nat) : c.get? (numeral position) = items[position]?

theorem names_positional (items : List α) :
    (positional items).names = (List.range items.length).map numeral := by
  rw [positional_eq, names, map_fst_numbered, List.range_eq_range']

theorem entryAt?_positional (items : List α) (position : Nat) :
    (positional items).entryAt? position =
      items[position]?.map fun item => (numeral position, item) := by
  rw [positional_eq, entryAt?, numbered, List.getElem?_map, List.getElem?_zipIdx, Option.map_map]
  simp [Function.comp_def]

/-- Under the numeral of a position stands what stands at the position, since no other position
has that numeral. -/
theorem get?_positional (items : List α) (position : Nat) :
    (positional items).get? (numeral position) = items[position]? := by
  cases hitem : items[position]? with
  | none =>
    apply find_eq_none_iff.mpr
    have hnames : (positional items).entries.map Prod.fst =
        (List.range items.length).map numeral := names_positional items
    rw [hnames, List.mem_map_of_injective numeral_injective, List.mem_range]
    exact Nat.not_lt.mpr (List.getElem?_eq_none_iff.mp hitem)
  | some item =>
    have hentry := entryAt?_positional items position
    rw [hitem] at hentry
    exact find_eq_some_of_mem (distinct_ofList _) (List.mem_of_getElem? hentry)

theorem enumerates_positional (items : List α) : (positional items).Enumerates items where
  size := by
    have hnames := congrArg List.length (names_positional items)
    rwa [names, List.length_map, List.length_map, List.length_range] at hnames
  names := names_positional items
  entryAt? := entryAt?_positional items
  get? := get?_positional items

theorem areNumerals_range' (start count : Nat) :
    areNumerals start ((List.range' start count).map numeral) = true := by
  induction count generalizing start with
  | zero => rfl
  | succ count ih => simp [List.range'_succ, areNumerals, ih]

/-- A collection is positional if and only if it is made of its items by position. -/
theorem isPositional_iff {c : Named α} : c.isPositional = true ↔ c = positional c.values := by
  constructor
  · intro hpositional
    rw [positional_eq, values, numbered_map_snd hpositional]
  · intro hmade
    rw [hmade, isPositional, names_positional, List.range_eq_range']
    exact areNumerals_range' 0 _

end Named

namespace Expr

variable {table : ValueTable} {items : List Expr} {position : Nat} {v : Value}

/-- Numbered expressions resolve to their numbered values, or fail as the first of them that
fails. -/
theorem resolveFields_numbered (table : ValueTable) (items : List Expr) (start : Nat) :
    resolveFields table ((items.zipIdx start).map fun item => (numeral item.2, item.1)) =
      (items.mapM (resolve table)).map fun values =>
        (values.zipIdx start).map fun item => (numeral item.2, item.1) := by
  induction items generalizing start with
  | nil => rfl
  | cons e rest ih =>
    rw [List.zipIdx_cons, List.map_cons, resolveFields, ih, List.mapM_cons]
    cases e.resolve table with
    | error fault => rfl
    | ok v => cases rest.mapM (resolve table) <;> rfl

/-- A composite record resolves to the positional record of its values, or fails as the first of
its expressions that fails. -/
theorem resolve_tuple (table : ValueTable) (items : List Expr) :
    (tuple items).resolve table = (items.mapM (resolve table)).map Value.tuple := by
  have hfields : resolveFields table (Named.numbered items) =
      (items.mapM (resolve table)).map Named.numbered := resolveFields_numbered table items 0
  rw [tuple, Named.positional_eq, resolve, hfields]
  cases items.mapM (resolve table) <;> rfl

theorem resolve_tuple_eq_ok {fields : Record} :
    (tuple items).resolve table = .ok (.record fields) ↔
      ∃ values, items.mapM (resolve table) = .ok values ∧ fields = .positional values := by
  rw [resolve_tuple]
  cases items.mapM (resolve table) <;> simp [Except.map, Value.tuple, eq_comm]

/-- An element of a composite record resolves to the value at its position. -/
theorem resolve_index_tuple :
    (index (tuple items) position).resolve table = .ok v ↔
      ∃ values, items.mapM (resolve table) = .ok values ∧ values[position]? = some v := by
  rw [resolve_index_eq_ok]
  constructor
  · rintro ⟨fields, name, htuple, hentry⟩
    obtain ⟨values, hvalues, rfl⟩ := resolve_tuple_eq_ok.mp htuple
    rw [Named.entryAt?_positional] at hentry
    obtain ⟨found, hfound, hsame⟩ := Option.map_eq_some_iff.mp hentry
    cases hsame
    exact ⟨values, hvalues, hfound⟩
  · rintro ⟨values, hvalues, hfound⟩
    refine ⟨_, numeral position, resolve_tuple_eq_ok.mpr ⟨values, hvalues, rfl⟩, ?_⟩
    rw [Named.entryAt?_positional, hfound]
    rfl

/-- A field of a composite record that has a numeral as its name is the element at this position. -/
theorem resolve_field_tuple :
    (field (tuple items) (numeral position)).resolve table = .ok v ↔
      ∃ values, items.mapM (resolve table) = .ok values ∧ values[position]? = some v := by
  rw [resolve_field_eq_ok]
  constructor
  · rintro ⟨fields, htuple, hget⟩
    obtain ⟨values, hvalues, rfl⟩ := resolve_tuple_eq_ok.mp htuple
    rw [Named.get?_positional] at hget
    exact ⟨values, hvalues, hget⟩
  · rintro ⟨values, hvalues, hfound⟩
    refine ⟨_, resolve_tuple_eq_ok.mpr ⟨values, hvalues, rfl⟩, ?_⟩
    rw [Named.get?_positional, hfound]

/-- Positional records lose nothing. Made of values or of expressions, they have as many fields as
items, under the numerals from zero in order, and each item stands at its position and under the
numeral of it. A record is positional if and only if it is the positional record of its own values.
A composite record of expressions resolves to the positional record of what they resolve to, if
they all do, and otherwise fails as the first that fails, and its elements and the fields under
their numerals resolve to the values at their positions. -/
theorem positional_records_exact :
    (∀ items : List Value, ∃ fields, Value.tuple items = .record fields ∧
      fields.Enumerates items) ∧
    (∀ items : List Expr, ∃ fields, tuple items = .record fields ∧ fields.Enumerates items) ∧
    (∀ fields : Record, fields.isPositional = true ↔ fields = .positional fields.values) ∧
    ∀ (table : ValueTable) (items : List Expr),
      (tuple items).resolve table = (items.mapM (resolve table)).map Value.tuple ∧
      ∀ position v,
        ((index (tuple items) position).resolve table = .ok v ↔
          ∃ values, items.mapM (resolve table) = .ok values ∧ values[position]? = some v) ∧
        ((field (tuple items) (numeral position)).resolve table = .ok v ↔
          ∃ values, items.mapM (resolve table) = .ok values ∧ values[position]? = some v) :=
  ⟨fun items => ⟨_, rfl, Named.enumerates_positional items⟩,
    fun items => ⟨_, rfl, Named.enumerates_positional items⟩,
    fun _ => Named.isPositional_iff,
    fun table items => ⟨resolve_tuple table items, fun _ _ =>
      ⟨resolve_index_tuple, resolve_field_tuple⟩⟩⟩

end Expr

end Dataflow
