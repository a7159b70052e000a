/-
# Lookup in named collections

What stands under a name after many insertions. A list of entries with distinct
names is the collection that inserting it builds, so records, argument lists and
value tables can be read entry by entry. Insertion under other names changes
nothing, and two collections that agree on a name still agree after the same
insertions.
-/

import Dataflow.Named
import Mathlib.Data.List.Induction
import Mathlib.Data.List.Nodup
import Mathlib.Data.List.Perm.Subperm

namespace Dataflow

theorem numeral_injective : Function.Injective numeral := by
  intro m n hequal
  have hdigits := congrArg String.toList hequal
  rw [numeral, numeral, String.toList_ofList, String.toList_ofList] at hdigits
  calc
    m = Nat.ofDigitChars 10 (Nat.toDigits 10 m) 0 := Nat.ofDigitChars_ten_toDigits.symm
    _ = Nat.ofDigitChars 10 (Nat.toDigits 10 n) 0 := by rw [hdigits]
    _ = n := Nat.ofDigitChars_ten_toDigits

namespace Named

variable {α β : Type}

theorem find_eq_none_iff {name : String} {entries : List (String × α)} :
    find name entries = none ↔ name ∉ entries.map Prod.fst := by
  induction entries with
  | nil => simp [find]
  | cons entry rest ih =>
    obtain ⟨other, held⟩ := entry
    by_cases hsame : other = name
    · simp [find, hsame]
    · simp [find, hsame, ih, Ne.symm hsame]

theorem mem_of_find_eq_some {name : String} {value : α} {entries : List (String × α)}
    (hfind : find name entries = some value) : (name, value) ∈ entries := by
  induction entries with
  | nil => simp [find] at hfind
  | cons entry rest ih =>
    obtain ⟨other, held⟩ := entry
    by_cases hsame : other = name
    · simp only [find, hsame, if_true, Option.some.injEq] at hfind
      simp [hsame, hfind]
    · simp only [find, hsame, if_false] at hfind
      exact List.mem_cons_of_mem _ (ih hfind)

/-- If the names are distinct, every entry is found under its name. -/
theorem find_eq_some_of_mem {name : String} {value : α} {entries : List (String × α)}
    (hdistinct : (entries.map Prod.fst).Nodup) (hmem : (name, value) ∈ entries) :
    find name entries = some value := by
  induction entries with
  | nil => simp at hmem
  | cons entry rest ih =>
    obtain ⟨other, held⟩ := entry
    rw [List.map_cons, List.nodup_cons] at hdistinct
    rcases List.mem_cons.mp hmem with hhead | htail
    · cases hhead
      simp [find]
    · have hother : other ≠ name := by
        rintro rfl
        exact hdistinct.1 (List.mem_map.mpr ⟨_, htail, rfl⟩)
      simpa [find, hother] using ih hdistinct.2 htail

theorem find_map (f : α → β) (name : String) (entries : List (String × α)) :
    find name (entries.map fun entry => (entry.1, f entry.2)) = (find name entries).map f := by
  induction entries with
  | nil => rfl
  | cons entry rest ih =>
    obtain ⟨other, held⟩ := entry
    by_cases hsame : other = name <;> simp [find, hsame, ih]

/-- An entry put under a new name comes last. -/
theorem put_eq_append {name : String} {entries : List (String × α)} (value : α)
    (hnew : name ∉ entries.map Prod.fst) : put name value entries = entries ++ [(name, value)] := by
  induction entries with
  | nil => rfl
  | cons entry rest ih =>
    obtain ⟨other, held⟩ := entry
    simp only [List.map_cons, List.mem_cons, not_or] at hnew
    simp [put, Ne.symm hnew.1, ih hnew.2]

theorem find_drop_of_ne {name sought : String} (hne : sought ≠ name)
    (entries : List (String × α)) : find sought (drop name entries) = find sought entries := by
  induction entries with
  | nil => rfl
  | cons entry rest ih =>
    obtain ⟨other, held⟩ := entry
    by_cases hsame : other = name
    · simp [drop, find, hsame, hne.symm]
    · simp [drop, find, hsame, ih]

/-- Taking an entry out changes what stands under no other name. -/
theorem get?_erase_of_ne {c : Named α} {name sought : String} (hne : sought ≠ name) :
    (c.erase name).get? sought = c.get? sought :=
  find_drop_of_ne hne c.entries

theorem contains_eq_true_iff {c : Named α} {name : String} :
    c.contains name = true ↔ name ∈ c.names := by
  rw [← not_iff_not, Bool.not_eq_true, contains, Option.isSome_eq_false_iff,
    Option.isNone_iff_eq_none]
  exact find_eq_none_iff

/-- A new name comes last. -/
theorem insert_eq_append {c : Named α} {name : String} (value : α) (hnew : name ∉ c.names) :
    c.insert name value = ⟨c.entries ++ [(name, value)]⟩ := by
  rw [Named.insert, put_eq_append value hnew]

/-- Entries inserted under new and distinct names come last, in order. -/
theorem insertAll_eq_append {c : Named α} {entries : List (String × α)}
    (hdistinct : (c.names ++ entries.map Prod.fst).Nodup) :
    c.insertAll entries = ⟨c.entries ++ entries⟩ := by
  induction entries generalizing c with
  | nil => simp [insertAll]
  | cons entry rest ih =>
    have hnew : entry.1 ∉ c.names := fun hmem =>
      (List.nodup_append.mp hdistinct).2.2 _ hmem _ List.mem_cons_self rfl
    have hstep : c.insertAll (entry :: rest) = (c.insert entry.1 entry.2).insertAll rest := rfl
    rw [hstep, insert_eq_append entry.2 hnew, ih]
    · simp
    · simpa [names] using hdistinct

/-- A list of entries with distinct names is the collection that it builds. -/
theorem ofList_eq_of_nodup {entries : List (String × α)}
    (hdistinct : (entries.map Prod.fst).Nodup) : ofList entries = ⟨entries⟩ := by
  have happend : insertAll empty entries = ⟨(empty : Named α).entries ++ entries⟩ :=
    insertAll_eq_append (by simpa [names, empty] using hdistinct)
  simpa [ofList, empty] using happend

theorem mem_names_insert {c : Named α} {name sought : String} {value : α} :
    sought ∈ (c.insert name value).names ↔ sought ∈ c.names ∨ sought = name := by
  unfold names Named.insert
  rw [names_put]
  split
  · rename_i hpresent
    constructor
    · exact Or.inl
    · rintro (hmem | rfl)
      · exact hmem
      · exact hpresent
  · simp

theorem mem_names_insertAll {c : Named α} {sought : String} {entries : List (String × α)} :
    sought ∈ (c.insertAll entries).names ↔ sought ∈ c.names ∨ sought ∈ entries.map Prod.fst := by
  induction entries generalizing c with
  | nil => simp [insertAll]
  | cons entry rest ih =>
    have hstep : c.insertAll (entry :: rest) = (c.insert entry.1 entry.2).insertAll rest := rfl
    rw [hstep, ih, mem_names_insert, List.map_cons, List.mem_cons, or_assoc]

theorem mem_names_ofList {sought : String} {entries : List (String × α)} :
    sought ∈ (ofList entries).names ↔ sought ∈ entries.map Prod.fst := by
  unfold ofList
  rw [mem_names_insertAll]
  simp [names, empty]

theorem put_subset (name : String) (value : α) (entries : List (String × α)) :
    put name value entries ⊆ (name, value) :: entries := by
  induction entries with
  | nil => simp [put]
  | cons entry rest ih =>
    obtain ⟨other, held⟩ := entry
    by_cases hsame : other = name
    · simp [put, hsame]
    · intro found hfound
      simp only [put, hsame, if_false, List.mem_cons] at hfound
      rcases hfound with rfl | hlater
      · simp
      · have hmem := ih hlater
        simp only [List.mem_cons] at hmem ⊢
        exact hmem.imp_right .inr

theorem insertAll_subset (c : Named α) (entries : List (String × α)) :
    (c.insertAll entries).entries ⊆ c.entries ++ entries := by
  induction entries generalizing c with
  | nil => simp [insertAll]
  | cons entry rest ih =>
    intro found hfound
    rcases List.mem_append.mp (ih (c.insert entry.1 entry.2) hfound) with hfirst | hlater
    · rcases List.mem_cons.mp (put_subset entry.1 entry.2 c.entries hfirst) with rfl | hheld
      · simp
      · exact List.mem_append_left _ hheld
    · exact List.mem_append_right _ (List.mem_cons_of_mem _ hlater)

/-- A collection has no entries but those that were inserted. -/
theorem subset_ofList (entries : List (String × α)) : (ofList entries).entries ⊆ entries := by
  intro found hfound
  simpa [empty] using insertAll_subset empty entries hfound

theorem insertAll_append (c : Named α) (first second : List (String × α)) :
    c.insertAll (first ++ second) = (c.insertAll first).insertAll second :=
  List.foldl_append

/-- After many insertions the last entry of a name stands under it, or else what stood
there before. -/
theorem get?_insertAll (c : Named α) (name : String) (entries : List (String × α)) :
    (c.insertAll entries).get? name = (find name entries.reverse).or (c.get? name) := by
  induction entries using List.reverseRecOn with
  | nil => rfl
  | append_singleton rest entry ih =>
    obtain ⟨other, held⟩ := entry
    have hlast : (c.insertAll (rest ++ [(other, held)])) = (c.insertAll rest).insert other held :=
      insertAll_append c rest [(other, held)]
    rw [hlast, List.reverse_concat]
    by_cases hsame : other = name
    · subst hsame
      simp [find]
    · simp [find, hsame, get?_insert_of_ne _ held (Ne.symm hsame), ih]

/-- Collections that agree on a name agree on it after the same insertion. -/
theorem get?_insert_congr {c d : Named α} {name : String} (inserted : String) (value : α)
    (hagree : c.get? name = d.get? name) :
    (c.insert inserted value).get? name = (d.insert inserted value).get? name := by
  by_cases hsame : name = inserted
  · subst hsame
    rw [get?_insert_self, get?_insert_self]
  · rw [get?_insert_of_ne c value hsame, get?_insert_of_ne d value hsame, hagree]

theorem get?_insertAll_congr {c d : Named α} {name : String} (entries : List (String × α))
    (hagree : c.get? name = d.get? name) :
    (c.insertAll entries).get? name = (d.insertAll entries).get? name := by
  induction entries generalizing c d with
  | nil => exact hagree
  | cons entry rest ih => exact ih (get?_insert_congr entry.1 entry.2 hagree)

theorem map_put (f : α → β) (name : String) (value : α) (entries : List (String × α)) :
    (put name value entries).map (fun entry => (entry.1, f entry.2)) =
      put name (f value) (entries.map fun entry => (entry.1, f entry.2)) := by
  induction entries with
  | nil => rfl
  | cons entry rest ih =>
    obtain ⟨other, held⟩ := entry
    by_cases hsame : other = name
    · simp [put, hsame]
    · simp [put, hsame, ih]

theorem map_insertAll (f : α → β) (c : Named α) (entries : List (String × α)) :
    (c.insertAll entries).map f =
      (c.map f).insertAll (entries.map fun entry => (entry.1, f entry.2)) := by
  induction entries generalizing c with
  | nil => rfl
  | cons entry rest ih =>
    have hinsert : (c.insert entry.1 entry.2).map f = (c.map f).insert entry.1 (f entry.2) :=
      congrArg Named.mk (map_put f entry.1 entry.2 c.entries)
    have hrest := ih (c.insert entry.1 entry.2)
    rw [hinsert] at hrest
    exact hrest

/-- A function on what is held may be applied before or after entries are inserted. -/
theorem map_ofList (f : α → β) (entries : List (String × α)) :
    (ofList entries).map f = ofList (entries.map fun entry => (entry.1, f entry.2)) :=
  map_insertAll f empty entries

/-- A collection has each of the inserted names once. -/
theorem subperm_names_ofList (entries : List (String × α)) :
    (ofList entries).names.Subperm (entries.map Prod.fst) :=
  (distinct_ofList entries).subperm fun _ hname => mem_names_ofList.mp hname

/-- A collection has no more entries than were inserted. -/
theorem length_ofList_le (entries : List (String × α)) :
    (ofList entries).entries.length ≤ entries.length := by
  have hlength := (subperm_names_ofList entries).length_le
  rwa [names, List.length_map, List.length_map] at hlength

/-- A collection with as many entries as were inserted got them under distinct names. -/
theorem nodup_of_size_ofList {entries : List (String × α)}
    (hsize : (ofList entries).size = entries.length) : (entries.map Prod.fst).Nodup := by
  have hlength : (entries.map Prod.fst).length ≤ (ofList entries).names.length := by
    rw [names, List.length_map, List.length_map]
    exact Nat.le_of_eq hsize.symm
  have hperm := (subperm_names_ofList entries).perm_of_length_le hlength
  exact hperm.nodup_iff.mp (distinct_ofList entries)

/-- A position of one collection is one of any other of the same size. -/
theorem exists_entryAt? {c : Named α} {d : Named β} {position : Nat} {entry : String × α}
    (hsize : c.size = d.size) (hentry : c.entryAt? position = some entry) :
    ∃ other, d.entryAt? position = some other := by
  obtain ⟨hlt, -⟩ := List.getElem?_eq_some_iff.mp hentry
  exact ⟨_, List.getElem?_eq_getElem (Nat.lt_of_lt_of_eq hlt hsize)⟩

@[simp]
theorem map_snd_numbered (items : List α) : (numbered items).map Prod.snd = items := by
  simp [numbered, Function.comp_def]

theorem map_fst_numbered (items : List α) :
    (numbered items).map Prod.fst = (List.range' 0 items.length).map numeral := by
  rw [← List.zipIdx_map_snd 0 items, List.map_map, numbered, List.map_map]
  rfl

theorem nodup_names_numbered (items : List α) : ((numbered items).map Prod.fst).Nodup := by
  rw [map_fst_numbered]
  exact List.Nodup.map numeral_injective List.nodup_range'

/-- A positional collection has the items in their order. -/
theorem positional_eq (items : List α) : positional items = ⟨numbered items⟩ :=
  ofList_eq_of_nodup (nodup_names_numbered items)

/-- Items under the numerals from zero are numbered. -/
theorem numbered_map_snd {entries : List (String × α)}
    (hnames : areNumerals 0 (entries.map Prod.fst) = true) :
    numbered (entries.map Prod.snd) = entries := by
  suffices hfrom : ∀ start, areNumerals start (entries.map Prod.fst) = true →
      ((entries.map Prod.snd).zipIdx start).map (fun item => (numeral item.2, item.1)) = entries from
      hfrom 0 hnames
  clear hnames
  induction entries with
  | nil => exact fun _ _ => rfl
  | cons entry rest ih =>
    intro start hnames
    rw [List.map_cons, areNumerals, Bool.and_eq_true, beq_iff_eq] at hnames
    rw [List.map_cons, List.zipIdx_cons, List.map_cons, ih (start + 1) hnames.2]
    exact congrArg (· :: rest) (Prod.ext hnames.1.symm rfl)

/-- Numerals counted from one start are told by how many there are. -/
theorem eq_of_areNumerals {start : Nat} {first second : List String}
    (hfirst : areNumerals start first = true) (hsecond : areNumerals start second = true)
    (hlength : first.length = second.length) : first = second := by
  induction first generalizing start second with
  | nil => exact (List.length_eq_zero_iff.mp hlength.symm).symm
  | cons name rest ih =>
    cases second with
    | nil => cases hlength
    | cons other others =>
      simp only [areNumerals, Bool.and_eq_true, beq_iff_eq] at hfirst hsecond
      rw [hfirst.1, hsecond.1, ih hfirst.2 hsecond.2 (Nat.succ.inj hlength)]

/-- Entries correspond one by one if their names are the same and what they hold is
related. -/
def Alike (related : α → β → Prop) : List (String × α) → List (String × β) → Prop :=
  List.Forall₂ fun first second => first.1 = second.1 ∧ related first.2 second.2

section

variable {related : α → β → Prop} {first : List (String × α)} {second : List (String × β)}

/-- Corresponding entries have the same names. -/
theorem Alike.map_fst_eq (h : Alike related first second) :
    first.map Prod.fst = second.map Prod.fst := by
  induction h with
  | nil => rfl
  | cons hentry _ ih => rw [List.map_cons, List.map_cons, hentry.1, ih]

/-- Entries put under one name correspond. -/
theorem Alike.put (h : Alike related first second) (name : String) {value : α} {other : β}
    (hrelated : related value other) :
    Alike related (put name value first) (put name other second) := by
  induction h with
  | nil => exact .cons ⟨rfl, hrelated⟩ .nil
  | @cons entry entry' rest rest' hentry hrest ih =>
    obtain ⟨held, value'⟩ := entry
    obtain ⟨held', other'⟩ := entry'
    obtain ⟨hname, hvalue⟩ := hentry
    simp only at hname hvalue
    subst hname
    by_cases hsame : held = name
    · simp only [Named.put, hsame, if_true]
      exact .cons ⟨rfl, hrelated⟩ hrest
    · simp only [Named.put, hsame, if_false]
      exact .cons ⟨rfl, hvalue⟩ ih

/-- Corresponding entries build corresponding collections. -/
theorem Alike.insertAll {c : Named α} {d : Named β} (hbuilt : Alike related c.entries d.entries)
    (h : Alike related first second) :
    Alike related (c.insertAll first).entries (d.insertAll second).entries := by
  induction h generalizing c d with
  | nil => exact hbuilt
  | @cons entry entry' rest rest' hentry _ ih =>
    apply ih
    show Alike related (Named.put entry.1 entry.2 c.entries) (Named.put entry'.1 entry'.2 d.entries)
    rw [hentry.1]
    exact hbuilt.put _ hentry.2

theorem Alike.ofList (h : Alike related first second) :
    Alike related (ofList first).entries (ofList second).entries :=
  Alike.insertAll .nil h

/-- Corresponding entries are found under one name. -/
theorem Alike.exists_find (h : Alike related first second) {name : String} {value : α}
    (hfind : find name first = some value) :
    ∃ other, find name second = some other ∧ related value other := by
  induction h with
  | nil => cases hfind
  | @cons entry entry' rest rest' hentry _ ih =>
    obtain ⟨held, value'⟩ := entry
    obtain ⟨held', other'⟩ := entry'
    obtain ⟨hname, hvalue⟩ := hentry
    simp only at hname hvalue
    subst hname
    by_cases hsame : held = name
    · simp only [find, hsame, if_true, Option.some.injEq] at hfind ⊢
      rw [← hfind]
      exact ⟨other', rfl, hvalue⟩
    · simp only [find, hsame, if_false] at hfind ⊢
      exact ih hfind

/-- Corresponding entries stand at one position. -/
theorem Alike.exists_getElem? (h : Alike related first second) {position : Nat}
    {entry : String × α} (hget : first[position]? = some entry) :
    ∃ other, second[position]? = some (entry.1, other) ∧ related entry.2 other := by
  induction h generalizing position with
  | nil => cases hget
  | @cons head head' rest rest' hhead _ ih =>
    cases position with
    | zero =>
      rw [List.getElem?_cons_zero, Option.some.injEq] at hget
      rw [← hget, hhead.1]
      exact ⟨head'.2, rfl, hhead.2⟩
    | succ position =>
      rw [List.getElem?_cons_succ] at hget ⊢
      exact ih hget

end

end Named

end Dataflow
