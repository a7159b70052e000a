/-
# Loose equality and the order of fields

Equality takes records as finite maps, loose equality takes them position by position. So equal
values whose records list their fields in the same order are loosely equal, and then neither a guard
nor an operator tells them apart. The order counts: a record and the same fields in another order
are equal, and are told apart.
-/

import Dataflow.Proofs.Value.Equality

namespace Dataflow

namespace Value

mutual

/-- Whether the records of two values list the same names in the same order, at any depth. -/
def inSameOrder : Value → Value → Bool
  | .record ⟨a⟩, .record ⟨b⟩ => fieldsInSameOrder a b
  | _, _ => true

/-- Whether two lists of fields have the same names in the same order, at any depth. -/
def fieldsInSameOrder : List (String × Value) → List (String × Value) → Bool
  | [], [] => true
  | (name, v) :: a, (other, w) :: b => name == other && inSameOrder v w && fieldsInSameOrder a b
  | _, _ => false

end

/-- Nothing tells two values apart: not loose equality, nor a guard that compares them, nor an
operator that is applied to them. -/
structure Indistinct (v w : Value) : Prop where
  /-- They are loosely equal. -/
  loosely : v.looselyEquals w = true
  /-- A guard that compares them finds them equal. -/
  guards : ∀ (condition : Condition) (table : ValueTable),
    condition.left.resolve table = .ok v → condition.right.resolve table = .ok w →
      (condition.comparator = .equal → condition.evaluate table = .ok true) ∧
        (condition.comparator = .notEqual → condition.evaluate table = .ok false)
  /-- So do the operators. -/
  operators : Builtin.registry.Computes .equal [v, w] (.ok (.boolean true)) ∧
    Builtin.registry.Computes .notEqual [v, w] (.ok (.boolean false))

variable {v w : Value}

/-- Records are equal if they have as many fields and every field of the first is equal to one of
its name in the second. -/
theorem equals_record_iff {a b : Record} :
    (record a).equals (.record b) = true ↔ a.size = b.size ∧
      ∀ entry ∈ a.entries, ∃ other, b.get? entry.1 = some other ∧ entry.2.equals other = true := by
  have hwithin : ∀ entries : List (String × Value), fieldsWithin b.entries entries = true ↔
      ∀ entry ∈ entries, ∃ other, b.get? entry.1 = some other ∧ entry.2.equals other = true := by
    intro entries
    induction entries with
    | nil => simp [fieldsWithin]
    | cons entry rest ih =>
      rw [fieldsWithin, Bool.and_eq_true, ih, List.forall_mem_cons]
      refine and_congr_left fun _ => ?_
      cases hfind : Named.find entry.1 b.entries with
      | none => simp [Named.get?, hfind]
      | some other => simp [Named.get?, hfind]
  rw [equals, Bool.and_eq_true, beq_iff_eq, hwithin]
  rfl

theorem inSameOrder_record_iff {a b : Record} :
    (record a).inSameOrder (.record b) = true ↔
      Named.Alike (fun v w : Value => v.inSameOrder w = true) a.entries b.entries := by
  have hfields : ∀ first second : List (String × Value), fieldsInSameOrder first second = true ↔
      Named.Alike (fun v w : Value => v.inSameOrder w = true) first second := by
    intro first
    unfold Named.Alike
    induction first with
    | nil => intro second; cases second <;> simp [fieldsInSameOrder]
    | cons entry rest ih => intro second; cases second <;> simp [fieldsInSameOrder, ih]
  exact hfields a.entries b.entries

theorem kind_eq_of_equals (h : v.equals w = true) : v.kind = w.kind := by
  cases v <;> cases w <;> first | rfl | simp [equals] at h

/-- Equal values whose records list their fields in the same order are loosely equal. -/
theorem looselyEquals_of_equals (hformed : v.WellFormed) (hequal : v.equals w = true)
    (horder : v.inSameOrder w = true) : v.looselyEquals w = true := by
  induction v using induct generalizing w with
  | scalar v hscalar =>
    cases v <;> cases w <;> simp_all [equals, looselyEquals, asInteger?, asFloat?, asRecord?]
  | record a ih =>
    cases w with
    | boolean | integer | float | string => cases kind_eq_of_equals hequal
    | record b =>
      obtain ⟨hdistinct, hinner⟩ := wellFormed_record.mp hformed
      obtain ⟨hsize, hfields⟩ := equals_record_iff.mp hequal
      have halike := inSameOrder_record_iff.mp horder
      have hnames := halike.map_fst_eq
      refine looselyEquals_record_iff.mpr ⟨hsize, fun position first second hfirst hsecond => ?_⟩
      obtain ⟨held, hheld, hnested⟩ := halike.exists_getElem? hfirst
      obtain rfl := Option.some.inj (hsecond.symm.trans hheld)
      -- the field found under the name is the one at the position, as the names are distinct
      obtain ⟨other, hother, hvalue⟩ := hfields first (List.mem_of_getElem? hfirst)
      have hfound : b.get? first.1 = some held :=
        Named.find_eq_some_of_mem (hnames ▸ hdistinct) (List.mem_of_getElem? hsecond)
      obtain rfl := Option.some.inj (hfound.symm.trans hother)
      exact ih first (List.mem_of_getElem? hfirst)
        (wellFormed_of_mem hinner (List.mem_of_getElem? hfirst)) hvalue hnested

/-- On values of one kind the operators give what loose equality says. -/
theorem computes_equality (hkind : v.kind = w.kind) :
    Builtin.registry.Computes .equal [v, w] (.ok (.boolean (v.looselyEquals w))) ∧
      Builtin.registry.Computes .notEqual [v, w] (.ok (.boolean (!v.looselyEquals w))) := by
  have hselected : ∀ kind : ValueKind,
      (∃ overload, Builtin.registry.find? .equal [kind, kind] = some overload ∧
        overload.implementation = Builtin.equality true) ∧
      ∃ overload, Builtin.registry.find? .notEqual [kind, kind] = some overload ∧
        overload.implementation = Builtin.equality false := by
    intro kind
    cases kind <;> exact ⟨⟨_, rfl, rfl⟩, ⟨_, rfl, rfl⟩⟩
  have hequality : ∀ expected, Builtin.equality expected [v, w] =
      .ok (.boolean (v.looselyEquals w == expected)) := fun _ => rfl
  obtain ⟨⟨overload, hfind, himplementation⟩, other, hfind', himplementation'⟩ :=
    hselected w.kind
  constructor
  · exact .of_find (by simpa [hkind] using hfind) (by simp [himplementation, hequality])
  · exact .of_find (by simpa [hkind] using hfind') (by simp [himplementation', hequality])

/-- Guards and operators go by loose equality. -/
theorem indistinct_of_looselyEquals (hkind : v.kind = w.kind) (hloose : v.looselyEquals w = true) :
    v.Indistinct w where
  loosely := hloose
  guards condition table hleft hright := by
    have hevaluate : condition.evaluate table = condition.comparator.evaluate v w := by
      rw [Condition.evaluate, hleft, hright]
      rfl
    rw [hevaluate]
    constructor <;> intro hcomparator <;> rw [hcomparator] <;> simp [Comparator.evaluate, hloose]
  operators := by
    simpa [hloose] using computes_equality hkind

/-- Equal values are not told apart if their records list their fields in the same order. -/
theorem indistinct_of_equals (hformed : v.WellFormed) (hequal : v.equals w = true)
    (horder : v.inSameOrder w = true) : v.Indistinct w :=
  indistinct_of_looselyEquals (kind_eq_of_equals hequal)
    (looselyEquals_of_equals hformed hequal horder)

/-- Zero and negative zero are equal, at any depth. -/
theorem indistinct_of_equals_zeros :
    (record ⟨[("at", .record ⟨[("x", .float (.ofBits 0)), ("y", .integer 1)]⟩)]⟩).Indistinct
      (.record ⟨[("at", .record ⟨[("x", .float (.ofBits 0x8000000000000000)),
        ("y", .integer 1)]⟩)]⟩) :=
  indistinct_of_equals (by decide) (by decide +kernel) (by decide)

/-- Equal values without not-a-number may be told apart: a record and the same fields in another
order are. -/
theorem not_indistinct_of_equals :
    (¬ ∀ v w : Value, v.WellFormed → w.WellFormed → (∀ x ∈ v.floats, x.isNaN = false) →
      (∀ x ∈ w.floats, x.isNaN = false) → v.equals w = true → v.looselyEquals w = true) ∧
    Builtin.registry.Computes .equal [.record ⟨[("a", .integer 1), ("b", .integer 2)]⟩,
      .record ⟨[("b", .integer 2), ("a", .integer 1)]⟩] (.ok (.boolean false)) := by
  constructor
  · intro hall
    have hloose := hall (.record ⟨[("a", .integer 1), ("b", .integer 2)]⟩)
      (.record ⟨[("b", .integer 2), ("a", .integer 1)]⟩) (by decide) (by decide) (by decide)
      (by decide) (by decide)
    exact absurd hloose (by decide)
  · exact .of_find rfl rfl

end Value

end Dataflow
