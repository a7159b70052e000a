/-
# The order of values

Texts have an order, and so have numbers that are not not-a-number. Integers are compared exactly
and all other numbers as floats. Rounding an integer keeps the order, so what is before as a float
is before as an integer, and being before is transitive across integers, booleans and floats. All
six comparators go by the order where there is one. Where there is none, only equality and its
opposite give a verdict.
-/

import Dataflow.Condition
import Dataflow.Proofs.Value.Equality

namespace Dataflow

namespace Binary64

variable {x y : Binary64}

theorem order?_eq_none_iff : x.order? y = none ↔ x.isNaN = true ∨ y.isNaN = true := by
  unfold order?
  split
  · rename_i hnan
    simpa using hnan
  · rename_i hnumbers
    simpa using hnumbers

theorem order?_eq_some_iff {order : Ordering} : x.order? y = some order ↔
    x.isNaN = false ∧ y.isNaN = false ∧ compare x.signed y.signed = order := by
  unfold order?
  cases x.isNaN <;> cases y.isNaN <;> simp

theorem order?_swap (x y : Binary64) : y.order? x = (x.order? y).map Ordering.swap := by
  unfold order?
  rw [Bool.or_comm]
  split
  · rfl
  · rw [Option.map_some, Int.compare_swap]

/-- Numbers are equal exactly if neither is before the other. -/
theorem equals_iff_order? : x.equals y = true ↔ x.order? y = some .eq := by
  rw [equals_iff_signed, order?_eq_some_iff, Int.compare_eq_eq]

/-- What is before as a float is before as an integer. -/
theorem lt_of_order?_ofInt {m n : Int} (h : (ofInt m).order? (ofInt n) = some .lt) : m < n := by
  rw [order?_eq_some_iff, Int.compare_eq_lt] at h
  by_contra hle
  exact absurd (signed_ofInt_mono (Int.not_lt.mp hle)) (Int.not_le.mpr h.2.2)

end Binary64

namespace Value

variable {u v w : Value} {x y : Binary64} {i j : Int64}

/-- Whether this is a float that is not a number. -/
def isNaN : Value → Bool
  | .float x => x.isNaN
  | _ => false

/-- Two values of kinds with an order have one, unless a float is not a number. -/
theorem compare?_eq_none_iff (h : v.kind.orderable w.kind = true) :
    v.compare? w = none ↔ v.isNaN = true ∨ w.isNaN = true := by
  cases v <;> cases w <;>
    simp_all [ValueKind.orderable, ValueKind.isNumeric, kind, compare?, asInteger?, asFloat?,
      Binary64.order?_eq_none_iff, Binary64.isNaN_ofInt, isNaN]

/-- Both values are texts, or both are numbers and neither is not-a-number. -/
def HasOrder (v w : Value) : Prop :=
  v.kind.orderable w.kind = true ∧ v.isNaN = false ∧ w.isNaN = false

instance (v w : Value) : Decidable (v.HasOrder w) :=
  inferInstanceAs (Decidable (_ ∧ _))

theorem exists_compare?_iff : (∃ order, v.compare? w = some order) ↔ v.HasOrder w := by
  rw [← Option.isSome_iff_exists, Option.isSome_iff_ne_none, HasOrder]
  by_cases hkinds : v.kind.orderable w.kind = true
  · simp [hkinds, compare?_eq_none_iff hkinds]
  · have hnone : v.compare? w = none := by
      cases v <;> cases w <;>
        simp_all [ValueKind.orderable, ValueKind.isNumeric, kind, compare?, asInteger?, asFloat?]
    simp [hkinds, hnone]

/-- Texts are compared as they are, integers exactly, and other numbers as floats. -/
theorem compare?_eq_some_iff {order : Ordering} : v.compare? w = some order ↔
    (∃ s t, v = .string s ∧ w = .string t ∧ compare s t = order) ∨
    (∃ i j, v.CountsAs i ∧ w.CountsAs j ∧ compare i.toInt j.toInt = order) ∨
    ∃ x y, v.asFloat? = some x ∧ w.asFloat? = some y ∧ (∀ i j, v.CountsAs i → ¬ w.CountsAs j) ∧
      x.order? y = some order := by
  simp only [countsAs_iff]
  cases v <;> cases w <;> simp [compare?, asInteger?, asFloat?]

/-- What has an order is texts or numbers. -/
theorem texts_or_numbers_of_compare? {order : Ordering} (h : v.compare? w = some order) :
    (∃ s t, v = .string s ∧ w = .string t ∧ compare s t = order) ∨
      ∃ x y, v.asFloat? = some x ∧ w.asFloat? = some y := by
  rcases compare?_eq_some_iff.mp h with htexts | ⟨i, j, hi, hj, -⟩ | ⟨x, y, hv, hw, -⟩
  · exact .inl htexts
  · exact .inr ⟨_, _, hi.asFloat?, hj.asFloat?⟩
  · exact .inr ⟨x, y, hv, hw⟩

theorem compare?_swap {order : Ordering} (h : v.compare? w = some order) :
    w.compare? v = some order.swap := by
  rw [compare?_eq_some_iff] at h ⊢
  rcases h with ⟨s, t, rfl, rfl, rfl⟩ | ⟨i, j, hi, hj, rfl⟩ | ⟨x, y, hx, hy, hnot, horder⟩
  · exact .inl ⟨t, s, rfl, rfl, Std.OrientedCmp.eq_swap⟩
  · exact .inr (.inl ⟨j, i, hj, hi, (Int.compare_swap _ _).symm⟩)
  · exact .inr (.inr ⟨y, x, hy, hx, fun i j hi hj => hnot j i hj hi, by
      rw [Binary64.order?_swap, horder, Option.map_some]⟩)

/-- Loose equality is equality in the order, where there is one. -/
theorem looselyEquals_iff_of_compare? {order : Ordering} (h : v.compare? w = some order) :
    v.looselyEquals w = true ↔ order = .eq := by
  rcases compare?_eq_some_iff.mp h with
    ⟨s, t, rfl, rfl, rfl⟩ | ⟨i, j, hi, hj, rfl⟩ | ⟨x, y, hx, hy, hnot, horder⟩
  · simp [looselyEquals]
  · rw [looselyEquals_iff_of_countsAs hi hj, Int.compare_eq_eq, Int64.toInt_inj]
  · rw [looselyEquals_iff_of_asFloat? hx hy, Binary64.equals_iff_order?, horder, Option.some_inj]
    exact and_iff_left fun i j hi hj => absurd hj (hnot i j hi)

/-- A number is before another if it is so as a float or, among integers, exactly. -/
theorem compare?_eq_lt_iff (hv : v.asFloat? = some x) (hw : w.asFloat? = some y) :
    v.compare? w = some .lt ↔
      x.order? y = some .lt ∨ ∃ i j, v.CountsAs i ∧ w.CountsAs j ∧ i.toInt < j.toInt := by
  rw [compare?_eq_some_iff]
  constructor
  · rintro (⟨s, t, rfl, -, -⟩ | ⟨i, j, hi, hj, hlt⟩ | ⟨x', y', hx, hy, -, hlt⟩)
    · cases hv
    · exact .inr ⟨i, j, hi, hj, Int.compare_eq_lt.mp hlt⟩
    · obtain rfl := Option.some.inj (hx.symm.trans hv)
      obtain rfl := Option.some.inj (hy.symm.trans hw)
      exact .inl hlt
  · intro h
    by_cases hintegers : ∃ i j, v.CountsAs i ∧ w.CountsAs j
    · obtain ⟨i, j, hi, hj⟩ := hintegers
      refine .inr (.inl ⟨i, j, hi, hj, Int.compare_eq_lt.mpr ?_⟩)
      rcases h with hfloats | ⟨i', j', hi', hj', hlt⟩
      · obtain rfl := Option.some.inj (hi.asFloat?.symm.trans hv)
        obtain rfl := Option.some.inj (hj.asFloat?.symm.trans hw)
        exact Binary64.lt_of_order?_ofInt hfloats
      · rwa [hi.unique hi', hj.unique hj']
    · rcases h with hfloats | ⟨i, j, hi, hj, -⟩
      · exact .inr (.inr ⟨x, y, hv, hw, fun i j hi hj => hintegers ⟨i, j, hi, hj⟩, hfloats⟩)
      · exact absurd ⟨i, j, hi, hj⟩ hintegers

/-- Integers in order are so as floats, though not strictly. -/
theorem CountsAs.signed_le (hi : v.CountsAs i) (hj : w.CountsAs j) (hlt : i.toInt < j.toInt)
    (hv : v.asFloat? = some x) (hw : w.asFloat? = some y) :
    x.isNaN = false ∧ y.isNaN = false ∧ x.signed ≤ y.signed := by
  obtain rfl := Option.some.inj (hi.asFloat?.symm.trans hv)
  obtain rfl := Option.some.inj (hj.asFloat?.symm.trans hw)
  exact ⟨Binary64.isNaN_ofInt _, Binary64.isNaN_ofInt _,
    Binary64.signed_ofInt_mono (Int.le_of_lt hlt)⟩

/-- Being before is transitive, whatever kinds of numbers are mixed. -/
theorem compare?_lt_trans (huv : u.compare? v = some .lt) (hvw : v.compare? w = some .lt) :
    u.compare? w = some .lt := by
  rcases texts_or_numbers_of_compare? huv with ⟨r, s, rfl, rfl, hrs⟩ | ⟨x, y, hu, hv⟩
  · rcases texts_or_numbers_of_compare? hvw with ⟨_, t, hv, rfl, hst⟩ | ⟨y, z, hv, -⟩
    · obtain rfl := Value.string.inj hv
      exact compare?_eq_some_iff.mpr (.inl ⟨r, t, rfl, rfl, Std.TransCmp.lt_trans hrs hst⟩)
    · cases hv
  rcases texts_or_numbers_of_compare? hvw with ⟨s, t, rfl, -, -⟩ | ⟨_, z, hv', hw⟩
  · cases hv
  obtain rfl := Option.some.inj (hv.symm.trans hv')
  rw [compare?_eq_lt_iff hu hv, Binary64.order?_eq_some_iff, Int.compare_eq_lt] at huv
  rw [compare?_eq_lt_iff hv hw, Binary64.order?_eq_some_iff, Int.compare_eq_lt] at hvw
  rw [compare?_eq_lt_iff hu hw, Binary64.order?_eq_some_iff, Int.compare_eq_lt]
  -- rounding merges integers, so only a step between floats makes the whole strict for floats
  rcases huv with ⟨hx, -, hxy⟩ | ⟨i, j, hi, hj, hij⟩
  · rcases hvw with ⟨-, hz, hyz⟩ | ⟨j, k, hj, hk, hjk⟩
    · exact .inl ⟨hx, hz, Int.lt_trans hxy hyz⟩
    · obtain ⟨-, hz, hyz⟩ := hj.signed_le hk hjk hv hw
      exact .inl ⟨hx, hz, Int.lt_of_lt_of_le hxy hyz⟩
  · rcases hvw with ⟨-, hz, hyz⟩ | ⟨j', k, hj', hk, hjk⟩
    · obtain ⟨hx, -, hxy⟩ := hi.signed_le hj hij hu hv
      exact .inl ⟨hx, hz, Int.lt_of_le_of_lt hxy hyz⟩
    · obtain rfl := hj.unique hj'
      exact .inr ⟨i, k, hi, hk, Int.lt_trans hij hjk⟩

end Value

namespace Comparator

variable {comparator : Comparator} {left right : Value}

theorem exists_evaluate_eq_ok_of_isEquality (hequality : comparator.isEquality = true)
    (left right : Value) : ∃ verdict, comparator.evaluate left right = .ok verdict := by
  cases comparator with
  | equal | notEqual => exact ⟨_, rfl⟩
  | less | lessOrEqual | greater | greaterOrEqual => cases hequality

/-- An ordering needs values that have an order. -/
theorem evaluate_of_isEquality_eq_false (hordering : comparator.isEquality = false)
    (left right : Value) : comparator.evaluate left right =
      match left.compare? right with
      | some order => .ok (comparator.admits order)
      | none => .error (.contract (.unordered left.kind right.kind comparator.symbol)) := by
  cases comparator with
  | equal | notEqual => cases hordering
  | less | lessOrEqual | greater | greaterOrEqual => rfl

/-- A comparison violates a rule exactly if it is an ordering of values without an order. -/
theorem evaluate_eq_contract_iff {violation : Violation} :
    comparator.evaluate left right = .error (.contract violation) ↔
      comparator.isEquality = false ∧ left.compare? right = none ∧
        violation = .unordered left.kind right.kind comparator.symbol := by
  cases hequality : comparator.isEquality with
  | true =>
    obtain ⟨verdict, hverdict⟩ := exists_evaluate_eq_ok_of_isEquality hequality left right
    simp [hverdict]
  | false =>
    rw [evaluate_of_isEquality_eq_false hequality]
    cases left.compare? right <;> simp [eq_comm]

/-- Where there is an order, every comparator goes by it. -/
theorem evaluate_of_compare? {order : Ordering} (comparator : Comparator)
    (horder : left.compare? right = some order) :
    comparator.evaluate left right = .ok (comparator.admits order) := by
  have hequal : left.looselyEquals right = (order == .eq) := by
    rw [Bool.eq_iff_iff, Value.looselyEquals_iff_of_compare? horder, beq_iff_eq]
  cases comparator with
  | equal => rw [evaluate, hequal, admits]
  | notEqual => rw [evaluate, hequal, admits, bne]
  | less | lessOrEqual | greater | greaterOrEqual =>
    rw [evaluate_of_isEquality_eq_false rfl, horder]

/-- The comparison succeeds and holds. -/
def Holds (comparator : Comparator) (left right : Value) : Prop :=
  comparator.evaluate left right = .ok true

instance (comparator : Comparator) (left right : Value) : Decidable (comparator.Holds left right) :=
  inferInstanceAs (Decidable (_ = _))

theorem holds_iff_admits {order : Ordering} (horder : left.compare? right = some order) :
    comparator.Holds left right ↔ comparator.admits order = true := by
  rw [Holds, evaluate_of_compare? comparator horder, Except.ok.injEq]

theorem holds_less_iff : less.Holds left right ↔ left.compare? right = some .lt := by
  rw [Holds, evaluate_of_isEquality_eq_false rfl]
  cases left.compare? right with
  | none => simp
  | some order => cases order <;> simp [admits]

/-- The comparators fit together on two values. -/
structure Consistent (left right : Value) : Prop where
  /-- All of them give a verdict. -/
  succeeds : ∀ comparator : Comparator, ∃ verdict, comparator.evaluate left right = .ok verdict
  /-- Before, equal and after exclude each other, and one of them holds. -/
  trichotomy : ∃! comparator : Comparator,
    comparator ∈ [less, equal, greater] ∧ comparator.Holds left right
  /-- Before or equal is what its name says. -/
  lessOrEqual : lessOrEqual.Holds left right ↔ less.Holds left right ∨ equal.Holds left right
  /-- So is after or equal. -/
  greaterOrEqual :
    greaterOrEqual.Holds left right ↔ greater.Holds left right ∨ equal.Holds left right
  /-- Before is the converse of after. -/
  converse : less.Holds left right ↔ greater.Holds right left

theorem consistent_of_hasOrder (h : left.HasOrder right) : Consistent left right := by
  obtain ⟨order, horder⟩ := Value.exists_compare?_iff.mpr h
  have hswap := Value.compare?_swap horder
  constructor
  · exact fun comparator => ⟨_, evaluate_of_compare? comparator horder⟩
  · simp only [holds_iff_admits horder]
    cases order with
    | lt => exact ⟨.less, by decide, fun comparator => by cases comparator <;> decide⟩
    | eq => exact ⟨.equal, by decide, fun comparator => by cases comparator <;> decide⟩
    | gt => exact ⟨.greater, by decide, fun comparator => by cases comparator <;> decide⟩
  · simp only [holds_iff_admits horder]
    cases order <;> decide
  · simp only [holds_iff_admits horder]
    cases order <;> decide
  · rw [holds_iff_admits horder, holds_iff_admits hswap]
    cases order <;> decide

/-- The six comparators are consistent. Equality and its opposite give opposite verdicts on all
values. Where two values have an order the others fit together with them, elsewhere none of the
others gives a verdict, and being before is transitive. -/
theorem comparators_consistent (u v w : Value) :
    (∃ verdict, equal.evaluate v w = .ok verdict ∧ notEqual.evaluate v w = .ok (!verdict)) ∧
    (v.HasOrder w → Consistent v w) ∧
    (¬ v.HasOrder w → ∀ comparator : Comparator, comparator.isEquality = false →
      comparator.evaluate v w =
        .error (.contract (.unordered v.kind w.kind comparator.symbol))) ∧
    (less.Holds u v → less.Holds v w → less.Holds u w) := by
  refine ⟨⟨_, rfl, rfl⟩, consistent_of_hasOrder, fun hnone comparator hordering => ?_,
    fun huv hvw => ?_⟩
  · rw [← Value.exists_compare?_iff, ← Option.isSome_iff_exists, Bool.not_eq_true,
      Option.isSome_eq_false_iff, Option.isNone_iff_eq_none] at hnone
    exact evaluate_eq_contract_iff.mpr ⟨hordering, hnone, rfl⟩
  · rw [holds_less_iff] at huv hvw ⊢
    exact Value.compare?_lt_trans huv hvw

/-- A boolean is before a float, and the float before an integer. -/
theorem comparators_consistent_mixed :
    less.Holds (.boolean true) (.integer 2) ∧
      Consistent (.float (.ofBits 0x3ff8000000000000)) (.integer 2) := by
  obtain ⟨-, hordered, -, htrans⟩ := comparators_consistent (.boolean true)
    (.float (.ofBits 0x3ff8000000000000)) (.integer 2)
  exact ⟨htrans (by decide +kernel) (by decide +kernel), hordered (by decide)⟩

end Comparator

end Dataflow
