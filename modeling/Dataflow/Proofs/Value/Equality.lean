/-
# Loose equality

Values are compared loosely kind by kind: texts as they are, records position by position, integers
exactly. As soon as a float takes part the integer is rounded, so an integer that is exact is
loosely equal to the float of its value and to no other, while one that is not is loosely equal to
the float it is rounded to. Loose equality is reflexive, but for not-a-number, and symmetric. It is
not transitive: two integers that are rounded to one float are both loosely equal to it. They are
the only ones that stand in the way, so it is an equivalence on values whose integers are exact.
-/

import Dataflow.Proofs.Binary64.Rounding
import Dataflow.Proofs.Document.Values
import Dataflow.Proofs.Operator.Integers
import Dataflow.Proofs.ValueType

namespace Dataflow

namespace Binary64

variable {x y z : Binary64}

theorem equals_iff_signed :
    x.equals y = true ↔ x.isNaN = false ∧ y.isNaN = false ∧ x.signed = y.signed := by
  simp [equals, and_assoc]

theorem equals_self (hx : x.isNaN = false) : x.equals x = true :=
  equals_iff_signed.mpr ⟨hx, hx, rfl⟩

theorem equals_symm (h : x.equals y = true) : y.equals x = true := by
  obtain ⟨hx, hy, hsigned⟩ := equals_iff_signed.mp h
  exact equals_iff_signed.mpr ⟨hy, hx, hsigned.symm⟩

theorem equals_trans (h : x.equals y = true) (h' : y.equals z = true) : x.equals z = true := by
  obtain ⟨hx, -, hxy⟩ := equals_iff_signed.mp h
  obtain ⟨-, hz, hyz⟩ := equals_iff_signed.mp h'
  exact equals_iff_signed.mpr ⟨hx, hz, hxy.trans hyz⟩

end Binary64

namespace Value

mutual

/-- The integers in a value. -/
def integers : Value → List Int64
  | .integer i => [i]
  | .record ⟨entries⟩ => integersOfFields entries
  | _ => []

/-- The integers in values under names. -/
def integersOfFields : List (String × Value) → List Int64
  | [] => []
  | (_, v) :: rest => integers v ++ integersOfFields rest

end

theorem integersOfFields_eq_flatMap (entries : List (String × Value)) :
    integersOfFields entries = entries.flatMap fun entry => integers entry.2 := by
  induction entries with
  | nil => rfl
  | cons entry rest ih => rw [integersOfFields, ih, List.flatMap_cons]

section

variable {v w : Value} {x y : Binary64} {i j : Int64}

/-- What counts as an integer is rounded to be a float. -/
theorem CountsAs.asFloat? (h : v.CountsAs i) : v.asFloat? = some (.ofInt i.toInt) := by
  cases h <;> rfl

theorem CountsAs.unique (h : v.CountsAs i) (h' : v.CountsAs j) : i = j := by
  rw [countsAs_iff] at h h'
  exact Option.some.inj (h.symm.trans h')

/-- Integers are compared exactly. -/
theorem looselyEquals_iff_of_countsAs (hi : v.CountsAs i) (hj : w.CountsAs j) :
    v.looselyEquals w = true ↔ i = j := by
  cases hi <;> cases hj <;> simp [looselyEquals, asInteger?, countOf]

/-- Two numbers are loosely equal if they are equal as floats and not different as integers. -/
theorem looselyEquals_iff_of_asFloat? (hv : v.asFloat? = some x) (hw : w.asFloat? = some y) :
    v.looselyEquals w = true ↔
      x.equals y = true ∧ ∀ i j, v.CountsAs i → w.CountsAs j → i = j := by
  by_cases hintegers : ∃ i j, v.CountsAs i ∧ w.CountsAs j
  · obtain ⟨i, j, hi, hj⟩ := hintegers
    rw [looselyEquals_iff_of_countsAs hi hj]
    constructor
    · rintro rfl
      obtain rfl := Option.some.inj (hi.asFloat?.symm.trans hv)
      obtain rfl := Option.some.inj (hj.asFloat?.symm.trans hw)
      exact ⟨Binary64.equals_self (Binary64.isNaN_ofInt _), fun i' j' hi' hj' =>
        (hi'.unique hi).trans (hj.unique hj')⟩
    · exact fun h => h.2 i j hi hj
  · have hfloats : v.looselyEquals w = x.equals y := by
      simp only [not_exists, not_and, countsAs_iff] at hintegers
      cases v <;> cases w <;> simp_all [asFloat?, looselyEquals, asInteger?]
    rw [hfloats]
    exact ⟨fun h => ⟨h, fun i j hi hj => absurd ⟨i, j, hi, hj⟩ hintegers⟩, And.left⟩

/-- Records are loosely equal position by position. -/
theorem looselyEquals_record_iff {a b : Record} :
    (record a).looselyEquals (.record b) = true ↔ a.size = b.size ∧
      ∀ position first second, a.entryAt? position = some first →
        b.entryAt? position = some second → first.2.looselyEquals second.2 = true := by
  have hitems : ∀ first second : List (String × Value), itemsLooselyEqual first second = true ↔
      List.Forall₂ (fun entry entry' => entry.2.looselyEquals entry'.2 = true) first second := by
    intro first
    induction first with
    | nil => intro second; cases second <;> simp [itemsLooselyEqual]
    | cons entry rest ih => intro second; cases second <;> simp [itemsLooselyEqual, ih]
  rw [looselyEquals, hitems, List.forall₂_iff_get]
  refine and_congr_right fun hsize => ⟨?_, ?_⟩
  · intro h position first second hfirst hsecond
    obtain ⟨hlt, rfl⟩ := List.getElem?_eq_some_iff.mp hfirst
    obtain ⟨hlt', rfl⟩ := List.getElem?_eq_some_iff.mp hsecond
    exact h position hlt hlt'
  · intro h position hlt hlt'
    exact h position _ _ (List.getElem?_eq_getElem hlt) (List.getElem?_eq_getElem hlt')

/-- Values that are loosely equal are the same text, records, or numbers equal as floats. -/
theorem cases_of_looselyEquals (h : v.looselyEquals w = true) :
    (∃ s, v = .string s ∧ w = .string s) ∨ (∃ a b, v = .record a ∧ w = .record b) ∨
      ∃ x y, v.asFloat? = some x ∧ w.asFloat? = some y := by
  cases v <;> cases w <;> simp_all [looselyEquals, asInteger?, asFloat?]

/-- What counts as an integer is loosely equal to the finite floats of the value to which the
integer is rounded. -/
theorem looselyEquals_float_iff (hv : v.CountsAs i) (hx : x.isFinite = true) :
    v.looselyEquals (.float x) = true ↔ x.value = (Binary64.ofInt i.toInt).value := by
  rw [looselyEquals_iff_of_asFloat? hv.asFloat? rfl,
    Binary64.equals_iff (Binary64.isFinite_ofInt (fitsInt64_toInt i)) hx, eq_comm]
  refine and_iff_left fun i j _ hfloat => ?_
  cases hfloat

end

/-- Away from not-a-number every value is loosely equal to itself. -/
theorem looselyEquals_self (v : Value) (hv : ∀ x ∈ v.floats, x.isNaN = false) :
    v.looselyEquals v = true := by
  induction v using induct with
  | scalar v hscalar =>
    cases v with
    | boolean | integer | string => simp [looselyEquals, asInteger?]
    | float x => simpa [looselyEquals, asInteger?, asFloat?] using
        Binary64.equals_self (hv x (List.mem_singleton_self x))
    | record => cases hscalar
  | record a ih =>
    refine looselyEquals_record_iff.mpr ⟨rfl, fun position first second hfirst hsecond => ?_⟩
    obtain rfl := Option.some.inj (hfirst.symm.trans hsecond)
    have hmem := List.mem_of_getElem? hfirst
    refine ih first hmem fun x hx => hv x ?_
    rw [floats, floatsOfFields_eq_flatMap]
    exact List.mem_flatMap.mpr ⟨first, hmem, hx⟩

theorem looselyEquals_symm (v w : Value) (h : v.looselyEquals w = true) :
    w.looselyEquals v = true := by
  induction v using induct generalizing w with
  | scalar v hscalar =>
    rcases cases_of_looselyEquals h with ⟨s, rfl, rfl⟩ | ⟨a, b, rfl, -⟩ | ⟨x, y, hv, hw⟩
    · exact h
    · cases hscalar
    · rw [looselyEquals_iff_of_asFloat? hv hw] at h
      exact (looselyEquals_iff_of_asFloat? hw hv).mpr
        ⟨Binary64.equals_symm h.1, fun i j hi hj => (h.2 j i hj hi).symm⟩
  | record a ih =>
    rcases cases_of_looselyEquals h with ⟨s, hv, -⟩ | ⟨_, b, hv, rfl⟩ | ⟨x, y, hv, -⟩
    · cases hv
    · obtain ⟨hsize, hall⟩ := looselyEquals_record_iff.mp h
      exact looselyEquals_record_iff.mpr ⟨hsize.symm, fun position first second hfirst hsecond =>
        ih second (List.mem_of_getElem? hsecond) first.2
          (hall position second first hsecond hfirst)⟩
    · cases hv

/-- Somewhere in two values, at the same position of records, are what counts as different
integers. -/
inductive DifferAsIntegers : Value → Value → Prop where
  | here {v w : Value} {i j : Int64} (hv : v.CountsAs i) (hw : w.CountsAs j) (hne : i ≠ j) :
      DifferAsIntegers v w
  | inside {a b : Record} {position : Nat} {first second : String × Value}
      (hfirst : a.entryAt? position = some first) (hsecond : b.entryAt? position = some second)
      (hinner : DifferAsIntegers first.2 second.2) : DifferAsIntegers (.record a) (.record b)

section

variable {u v w : Value}

theorem DifferAsIntegers.not_looselyEquals (h : u.DifferAsIntegers w) :
    ¬ u.looselyEquals w = true := by
  induction h with
  | here hv hw hne =>
    rw [looselyEquals_iff_of_asFloat? hv.asFloat? hw.asFloat?]
    exact fun hequal => hne (hequal.2 _ _ hv hw)
  | inside hfirst hsecond _ ih =>
    rw [looselyEquals_record_iff]
    exact fun hequal => ih (hequal.2 _ _ _ hfirst hsecond)

/-- Values that are loosely equal to one are so to each other, unless they differ as integers. -/
theorem looselyEquals_trans_iff (huv : u.looselyEquals v = true) (hvw : v.looselyEquals w = true) :
    u.looselyEquals w = true ↔ ¬ u.DifferAsIntegers w := by
  refine ⟨fun h hdiffer => hdiffer.not_looselyEquals h, fun hdiffer => ?_⟩
  induction u using induct generalizing v w with
  | scalar u hscalar =>
    rcases cases_of_looselyEquals huv with ⟨s, rfl, rfl⟩ | ⟨a, b, rfl, -⟩ | ⟨x, y, hu, hv⟩
    · exact hvw
    · cases hscalar
    · rcases cases_of_looselyEquals hvw with ⟨s, rfl, -⟩ | ⟨b, c, rfl, -⟩ | ⟨_, z, hv', hw⟩
      · cases hv
      · cases hv
      · obtain rfl := Option.some.inj (hv.symm.trans hv')
        rw [looselyEquals_iff_of_asFloat? hu hv] at huv
        rw [looselyEquals_iff_of_asFloat? hv hw] at hvw
        refine (looselyEquals_iff_of_asFloat? hu hw).mpr
          ⟨Binary64.equals_trans huv.1 hvw.1, fun i j hi hj => ?_⟩
        by_contra hne
        exact hdiffer (.here hi hj hne)
  | record a ih =>
    rcases cases_of_looselyEquals huv with ⟨s, hu, -⟩ | ⟨_, b, hu, rfl⟩ | ⟨x, y, hu, -⟩
    · cases hu
    · rcases cases_of_looselyEquals hvw with ⟨s, hv, -⟩ | ⟨_, c, hv, rfl⟩ | ⟨y, z, hv, -⟩
      · cases hv
      · obtain ⟨hsize, hab⟩ := looselyEquals_record_iff.mp huv
        obtain ⟨hsize', hbc⟩ := looselyEquals_record_iff.mp hvw
        refine looselyEquals_record_iff.mpr
          ⟨hsize.trans hsize', fun position first third hfirst hthird => ?_⟩
        obtain ⟨second, hsecond⟩ := Named.exists_entryAt? hsize hfirst
        exact ih first (List.mem_of_getElem? hfirst) (hab _ _ _ hfirst hsecond)
          (hbc _ _ _ hsecond hthird) fun hinner => hdiffer (.inside hfirst hthird hinner)
      · cases hv
    · cases hu

/-- A value without not-a-number whose integers are exact. -/
def IsExact (v : Value) : Prop :=
  (∀ x ∈ v.floats, x.isNaN = false) ∧ ∀ i ∈ v.integers, Binary64.Exact i.toInt

theorem CountsAs.exact {i : Int64} (h : v.CountsAs i)
    (hv : ∀ i ∈ v.integers, Binary64.Exact i.toInt) : Binary64.Exact i.toInt := by
  cases h with
  | integer i => exact hv i (List.mem_singleton_self i)
  | no | yes => exact (Binary64.exact_iff (fitsInt64_toInt _)).mpr (by decide)

/-- What holds of the integers in a record holds of those at each of its positions. -/
theorem forall_integers_of_entryAt? {a : Record} {position : Nat} {entry : String × Value}
    {motive : Int64 → Prop} (ha : ∀ i ∈ (record a).integers, motive i)
    (hentry : a.entryAt? position = some entry) : ∀ i ∈ entry.2.integers, motive i := by
  intro i hi
  refine ha i ?_
  rw [integers, integersOfFields_eq_flatMap]
  exact List.mem_flatMap.mpr ⟨entry, List.mem_of_getElem? hentry, hi⟩

/-- Different integers that are exact are not loosely equal to the same value. -/
theorem not_differAsIntegers (hu : ∀ i ∈ u.integers, Binary64.Exact i.toInt)
    (hw : ∀ i ∈ w.integers, Binary64.Exact i.toInt) (huv : u.looselyEquals v = true)
    (hvw : v.looselyEquals w = true) : ¬ u.DifferAsIntegers w := by
  intro hdiffer
  induction hdiffer generalizing v with
  | @here u w i j hi hj hne =>
    rcases cases_of_looselyEquals huv with ⟨s, rfl, -⟩ | ⟨a, b, rfl, -⟩ | ⟨x, y, -, hv⟩
    · cases hi
    · cases hi
    · rw [looselyEquals_iff_of_asFloat? hi.asFloat? hv] at huv
      rw [looselyEquals_iff_of_asFloat? hv hj.asFloat?] at hvw
      have hvalue := (Binary64.equals_iff (Binary64.isFinite_ofInt (fitsInt64_toInt i))
        (Binary64.isFinite_ofInt (fitsInt64_toInt j))).mp (Binary64.equals_trans huv.1 hvw.1)
      rw [(hi.exact hu).value_ofInt (fitsInt64_toInt i),
        (hj.exact hw).value_ofInt (fitsInt64_toInt j), Int.cast_inj, Int64.toInt_inj] at hvalue
      exact hne hvalue
  | @inside a c position first third hfirst hthird _ ih =>
    rcases cases_of_looselyEquals huv with ⟨s, ha, -⟩ | ⟨_, b, -, rfl⟩ | ⟨x, y, ha, -⟩
    · cases ha
    · obtain ⟨hsize, hab⟩ := looselyEquals_record_iff.mp huv
      obtain ⟨-, hbc⟩ := looselyEquals_record_iff.mp hvw
      obtain ⟨second, hsecond⟩ := Named.exists_entryAt? hsize hfirst
      exact ih (forall_integers_of_entryAt? hu hfirst) (forall_integers_of_entryAt? hw hthird)
        (hab _ _ _ hfirst hsecond) (hbc _ _ _ hsecond hthird)
    · cases ha

/-- Where integers are exact, loose equality is an equivalence. -/
theorem equivalence_looselyEquals :
    Equivalence fun v w : {v : Value // v.IsExact} => v.1.looselyEquals w.1 = true where
  refl v := looselyEquals_self v.1 v.2.1
  symm h := looselyEquals_symm _ _ h
  trans {u _ w} huv hvw :=
    (looselyEquals_trans_iff huv hvw).mpr (not_differAsIntegers u.2.2 w.2.2 huv hvw)

end

/-- Loose equality compares numbers by value, unless an integer is not exact and the float is the
one to which it is rounded. It is reflexive, but for not-a-number, and symmetric. It is transitive
unless the outer values differ as integers, and an equivalence where integers are exact. -/
theorem looselyEquals_by_value (u v w : Value) :
    (∀ i x, v.CountsAs i → x.isFinite = true →
      ((v.looselyEquals (.float x) = true ↔ x.value = i.toInt) ↔
        Binary64.Exact i.toInt ∨ x.value ≠ (Binary64.ofInt i.toInt).value)) ∧
    ((∀ x ∈ v.floats, x.isNaN = false) → v.looselyEquals v = true) ∧
    (u.looselyEquals v = true → v.looselyEquals u = true) ∧
    (u.looselyEquals v = true → v.looselyEquals w = true →
      (u.looselyEquals w = true ↔ ¬ u.DifferAsIntegers w)) ∧
    Equivalence fun v w : {v : Value // v.IsExact} => v.1.looselyEquals w.1 = true := by
  refine ⟨fun i x hv hx => ?_, looselyEquals_self v, looselyEquals_symm u v,
    looselyEquals_trans_iff, equivalence_looselyEquals⟩
  have hround : Binary64.Exact i.toInt → (Binary64.ofInt i.toInt).value = i.toInt :=
    fun hexact => hexact.value_ofInt (fitsInt64_toInt i)
  rw [looselyEquals_float_iff hv hx]
  constructor
  · intro hiff
    refine or_iff_not_imp_right.mpr fun hequal => ⟨x, hx, hiff.mp (not_not.mp hequal)⟩
  · rintro (hexact | hne)
    · rw [hround hexact]
    · exact iff_of_false hne fun hvalue => hne (hvalue.trans (hround ⟨x, hx, hvalue⟩).symm)

/-- A boolean, an integer and a float of one value are loosely equal to each other. -/
theorem looselyEquals_by_value_one :
    (boolean true).looselyEquals (.integer 1) = true ∧
      (integer 1).looselyEquals (.float (.ofBits 0x3ff0000000000000)) = true ∧
      (boolean true).looselyEquals (.float (.ofBits 0x3ff0000000000000)) = true := by
  have hfirst : (boolean true).looselyEquals (.integer 1) = true := by decide
  have hsecond : (integer 1).looselyEquals (.float (.ofBits 0x3ff0000000000000)) = true := by
    decide +kernel
  obtain ⟨-, -, -, htrans, -⟩ := looselyEquals_by_value (.boolean true) (.integer 1)
    (.float (.ofBits 0x3ff0000000000000))
  refine ⟨hfirst, hsecond, (htrans hfirst hsecond).mpr ?_⟩
  rintro ⟨-, hfloat, -⟩
  cases hfloat

/-- The float `2 ^ 53`, to which the next integer is rounded as well. -/
def lastExact : Binary64 := .ofBits 0x4340000000000000

/-- Numbers are not compared by value throughout, nor is loose equality an equivalence away from
not-a-number: the integers `2 ^ 53` and `2 ^ 53 + 1` are both loosely equal to the float
`2 ^ 53`. -/
theorem not_looselyEquals_by_value :
    (¬ ∀ v i x, CountsAs v i → x.isFinite = true →
      (v.looselyEquals (.float x) = true ↔ x.value = i.toInt)) ∧
    ¬ Equivalence fun v w : {v : Value // ∀ x ∈ v.floats, x.isNaN = false} =>
      v.1.looselyEquals w.1 = true := by
  have hnext : (integer 9007199254740993).looselyEquals (.float lastExact) = true := by
    decide +kernel
  have hlast : (float lastExact).looselyEquals (.integer 9007199254740992) = true := by
    decide +kernel
  constructor
  · intro hall
    have hvalue := (hall _ _ lastExact (.integer 9007199254740993) (by decide)).mp hnext
    rw [Binary64.value_eq_intCast_iff] at hvalue
    revert hvalue
    decide +kernel
  · intro hequivalence
    have htrans := hequivalence.trans (x := ⟨.integer 9007199254740993, by simp [floats]⟩)
      (y := ⟨.float lastExact, by simp only [floats, List.forall_mem_singleton]; decide⟩)
      (z := ⟨.integer 9007199254740992, by simp [floats]⟩) hnext hlast
    revert htrans
    decide

end Value

end Dataflow
