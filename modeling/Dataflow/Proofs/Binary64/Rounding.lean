/-
# Rounding keeps the order

Of two ratios the greater one is never rounded to the smaller number, though numbers of different
exponents are rounded with different precision. So integers are rounded in their order, and those
of 64 bits to finite numbers. An integer that is the value of some number is rounded to its own
value, and it is one exactly if it has at most 53 significant bits.
-/

import Dataflow.Proofs.Binary64
import Dataflow.Proofs.Integer64
import Mathlib.Data.Nat.Log

namespace Dataflow

section

variable {m n q d : Nat}

/-- Rounding to whole numbers keeps the order. -/
theorem nearestEven_mono (hle : m ≤ n) (d : Nat) : nearestEven m d ≤ nearestEven n d := by
  have hm := Nat.div_add_mod m d
  have hn := Nat.div_add_mod n d
  simp only [nearestEven]
  rcases Nat.lt_or_eq_of_le (Nat.div_le_div_right (c := d) hle) with hless | hsame
  · split <;> split <;> omega
  · -- With one quotient the remainders are in order, and one parity decides both ties.
    have hrest : m % d ≤ n % d := by
      rw [hsame] at hm
      omega
    rw [hsame]
    split <;> split <;> omega

theorem nearestEven_mul (hd : 0 < d) : nearestEven (q * d) d = q := by
  simp [nearestEven, Nat.mul_div_cancel q hd, hd]

theorem nearestEven_le (hd : 0 < d) (hle : n ≤ q * d) : nearestEven n d ≤ q :=
  (nearestEven_mono hle d).trans_eq (nearestEven_mul hd)

theorem le_nearestEven (hd : 0 < d) (hle : q * d ≤ n) : q ≤ nearestEven n d :=
  (nearestEven_mul hd).symm.trans_le (nearestEven_mono hle d)

end

namespace Binary64

section

variable {m n d : Nat}

/-- The scale of a ratio grows with it. -/
theorem scale_mono (hle : m ≤ n) (d : Nat) : (m / d).log2 - 52 ≤ (n / d).log2 - 52 := by
  rw [Nat.log2_eq_log_two, Nat.log2_eq_log_two]
  exact Nat.sub_le_sub_right (Nat.log_mono_right (Nat.div_le_div_right hle)) 52

/-- A rounded significand has 53 bits, or it is the least number that has more. -/
theorem significand_le (hd : 0 < d) (n : Nat) :
    nearestEven n (d <<< ((n / d).log2 - 52)) ≤ 2 * fractions := by
  rw [Nat.shiftLeft_eq]
  refine nearestEven_le (Nat.mul_pos hd (Nat.two_pow_pos _)) ?_
  have hquotient : n / d < 2 * fractions * 2 ^ ((n / d).log2 - 52) := by
    have hwidth : 2 ^ ((n / d).log2 + 1) ≤ 2 ^ (53 + ((n / d).log2 - 52)) :=
      Nat.pow_le_pow_right (by decide) (by omega)
    rw [Nat.pow_add 2 53] at hwidth
    exact Nat.lt_of_lt_of_le Nat.lt_log2_self hwidth
  calc n ≤ 2 * fractions * 2 ^ ((n / d).log2 - 52) * d :=
        Nat.le_of_lt ((Nat.div_lt_iff_lt_mul hd).mp hquotient)
    _ = 2 * fractions * (d * 2 ^ ((n / d).log2 - 52)) := by rw [Nat.mul_assoc, Nat.mul_comm d]

/-- Where it is scaled, a rounded significand has its hidden bit. -/
theorem le_significand (hd : 0 < d) (hscaled : 0 < (n / d).log2 - 52) :
    fractions ≤ nearestEven n (d <<< ((n / d).log2 - 52)) := by
  rw [Nat.shiftLeft_eq]
  refine le_nearestEven (Nat.mul_pos hd (Nat.two_pow_pos _)) ?_
  have hquotient : fractions * 2 ^ ((n / d).log2 - 52) ≤ n / d := by
    have hsome : n / d ≠ 0 := by
      intro hnone
      rw [hnone, Nat.log2_zero] at hscaled
      cases hscaled
    have hwidth : 2 ^ (52 + ((n / d).log2 - 52)) = 2 ^ (n / d).log2 := by
      congr 1
      omega
    rw [Nat.pow_add] at hwidth
    exact hwidth.trans_le (Nat.log2_self_le hsome)
  calc fractions * (d * 2 ^ ((n / d).log2 - 52))
      = fractions * 2 ^ ((n / d).log2 - 52) * d := by rw [Nat.mul_assoc, Nat.mul_comm d]
    _ ≤ n := (Nat.le_div_iff_mul_le hd).mp hquotient

/-- Rounding to magnitudes keeps the order. -/
theorem nearestMagnitude_mono (hle : m ≤ n) (d : Nat) :
    nearestMagnitude m d ≤ nearestMagnitude n d := by
  simp only [nearestMagnitude]
  refine Nat.le_min.mpr ⟨(Nat.min_le_left _ _).trans ?_, Nat.min_le_right _ _⟩
  rcases Nat.lt_or_eq_of_le (scale_mono hle d) with hless | hsame
  · -- A greater scale is worth more than all that the significand can gain below it.
    have hd : 0 < d := by
      refine Nat.pos_of_ne_zero fun hnone => ?_
      simp [hnone] at hless
    have hm := significand_le hd m
    have hn := le_significand (n := n) hd (by omega)
    unfold fractions at hm hn ⊢
    omega
  · rw [hsame]
    exact Nat.add_le_add_left (nearestEven_mono hle _) _

end

/-- An integer is rounded to a number. -/
theorem isNaN_ofInt (n : Int) : (ofInt n).isNaN = false :=
  decide_eq_false (Nat.not_lt.mpr (Nat.min_le_right _ _))

/-- Rounding of integers keeps the order. -/
theorem signed_ofInt_mono {m n : Int} (hle : m ≤ n) : (ofInt m).signed ≤ (ofInt n).signed := by
  have hmagnitude (k : Int) : (ofInt k).magnitude = nearestMagnitude (k.natAbs * unitsPerOne) 1 :=
    rfl
  have hsign (k : Int) : (ofInt k).negative = decide (k < 0) := rfl
  have hmono {a b : Nat} (hab : a ≤ b) :
      nearestMagnitude (a * unitsPerOne) 1 ≤ nearestMagnitude (b * unitsPerOne) 1 :=
    nearestMagnitude_mono (Nat.mul_le_mul_right _ hab) 1
  simp only [signed, hmagnitude, hsign, decide_eq_true_eq]
  split
  · split
    · have := hmono (show n.natAbs ≤ m.natAbs by omega)
      omega
    · omega
  · rw [if_neg (by omega)]
    have := hmono (show m.natAbs ≤ n.natAbs by omega)
    omega

section

variable {x y : Binary64} {n : Int}

theorem value_eq_iff : x.value = y.value ↔ x.units = y.units := by
  rw [value, value, div_left_inj' (Nat.cast_ne_zero.mpr unitsPerOne_pos.ne'), Int.cast_inj]

theorem value_eq_intCast_iff : x.value = n ↔ x.units = n * unitsPerOne := by
  rw [value, div_eq_iff (Nat.cast_ne_zero.mpr unitsPerOne_pos.ne'), ← Int.cast_natCast,
    ← Int.cast_mul, Int.cast_inj]

/-- Finite numbers are equal if their values are. -/
theorem equals_iff (hx : x.isFinite = true) (hy : y.isFinite = true) :
    x.equals y = true ↔ x.value = y.value := by
  have hsigned : x.signed = y.signed ↔ x.units = y.units := by
    have hless := signed_lt_signed_iff (x := x) (y := y)
    have hgreater := signed_lt_signed_iff (x := y) (y := x)
    omega
  simp [equals, isNaN_of_isFinite hx, isNaN_of_isFinite hy, hsigned, value_eq_iff]

theorem natAbs_units (x : Binary64) : x.units.natAbs = unitsOf x.magnitude := by
  rw [units]
  split
  · rw [Int.natAbs_neg, Int.natAbs_natCast]
  · rw [Int.natAbs_natCast]

/-- An integer is exact if it is the value of some number. -/
def Exact (n : Int) : Prop := ∃ x : Binary64, x.isFinite = true ∧ x.value = n

/-- The value of a number, where it is an integer, has at most 53 significant bits. -/
theorem significant_of_value (hvalue : x.value = n) : 2 ^ (n.natAbs.log2 - 52) ∣ n.natAbs := by
  have hunits : significand x.magnitude * 2 ^ shift x.magnitude = n.natAbs * 2 ^ oneExponent := by
    rw [← Nat.shiftLeft_eq, ← unitsPerOne_eq, ← Int.natAbs_natCast unitsPerOne, ← Int.natAbs_mul,
      ← value_eq_intCast_iff.mp hvalue, natAbs_units, unitsOf]
  have hbelow : n.natAbs * 2 ^ oneExponent < 2 ^ (53 + shift x.magnitude) := by
    rw [← hunits, Nat.pow_add]
    exact Nat.mul_lt_mul_of_pos_right (significand_lt _) (Nat.two_pow_pos _)
  have hpos : 0 < 2 ^ oneExponent := Nat.two_pow_pos _
  by_cases hshift : shift x.magnitude ≤ oneExponent
  · have hwide : 2 ^ (53 + shift x.magnitude) ≤ 2 ^ 53 * 2 ^ oneExponent := by
      rw [← Nat.pow_add]
      exact Nat.pow_le_pow_right (by decide) (Nat.add_le_add_left hshift 53)
    have hless : n.natAbs < 2 ^ 53 := Nat.lt_of_mul_lt_mul_right (hbelow.trans_le hwide)
    have hone : 2 ^ 0 ∣ n.natAbs := Nat.one_dvd _
    exact significant_of_lt hone hless
  · obtain ⟨k, hk⟩ := Nat.exists_eq_add_of_le (Nat.le_of_not_le hshift)
    rw [hk, Nat.pow_add, ← Nat.mul_assoc, Nat.mul_right_comm] at hunits
    have hwhole : significand x.magnitude * 2 ^ k = n.natAbs :=
      Nat.eq_of_mul_eq_mul_right hpos hunits
    have hdvd : 2 ^ k ∣ n.natAbs := hwhole ▸ Nat.dvd_mul_left _ _
    refine significant_of_lt hdvd ?_
    rw [← hwhole, Nat.add_comm, Nat.pow_add]
    exact Nat.mul_lt_mul_of_pos_right (significand_lt _) (Nat.two_pow_pos _)

/-- An integer of 64 bits is finite in units. -/
theorem units_lt_of_fitsInt64 (hfits : FitsInt64 n) :
    n.natAbs * unitsPerOne < unitsOf infinityMagnitude := by
  have hlimit : 9223372036854775808 * unitsPerOne < unitsOf infinityMagnitude := by decide +kernel
  have hbound := fitsInt64_iff.mp hfits
  exact Nat.lt_of_le_of_lt (Nat.mul_le_mul_right _ (by omega)) hlimit

/-- An integer of 64 bits is rounded to a finite number. -/
theorem isFinite_ofInt (hfits : FitsInt64 n) : (ofInt n).isFinite = true := by
  have hlimit : nearestMagnitude (9223372036854775808 * unitsPerOne) 1 < infinityMagnitude := by
    decide +kernel
  have hbound := fitsInt64_iff.mp hfits
  exact decide_eq_true (Nat.lt_of_le_of_lt
    (nearestMagnitude_mono (Nat.mul_le_mul_right _ (by omega)) 1) hlimit)

/-- An integer with at most 53 significant bits is rounded to its own value. -/
theorem value_ofInt (hfits : FitsInt64 n) (hbits : 2 ^ (n.natAbs.log2 - 52) ∣ n.natAbs) :
    (ofInt n).value = n := by
  have hscaled : 2 ^ ((n.natAbs * unitsPerOne).log2 - 52) ∣ n.natAbs * unitsPerOne := by
    have hdvd : 2 ^ (n.natAbs.log2 - 52 + oneExponent) ∣ n.natAbs * 2 ^ oneExponent := by
      rw [Nat.pow_add]
      exact Nat.mul_dvd_mul_right hbits _
    have hwidth : n.natAbs < 2 ^ (n.natAbs.log2 - 52 + 53) :=
      Nat.lt_log2_self.trans_le (Nat.pow_le_pow_right (by decide) (by omega))
    rw [unitsPerOne_eq]
    refine significant_of_lt hdvd ?_
    rw [Nat.add_right_comm, Nat.pow_add]
    exact Nat.mul_lt_mul_of_pos_right hwidth (Nat.two_pow_pos _)
  have hkept := unitsOf_nearestMagnitude hscaled (units_lt_of_fitsInt64 hfits)
  rw [value_eq_intCast_iff, ofInt, ofRatio, ofUnits, units, hkept]
  simp only [decide_eq_true_eq]
  split
  · rw [Int.natCast_mul, ← Int.neg_mul, Int.ofNat_natAbs_of_nonpos (by omega), Int.neg_neg]
  · rw [Int.natCast_mul, Int.natAbs_of_nonneg (by omega)]

/-- An integer of 64 bits is exact if it has at most 53 significant bits, and then it is rounded
to its own value. -/
theorem exact_iff (hfits : FitsInt64 n) : Exact n ↔ 2 ^ (n.natAbs.log2 - 52) ∣ n.natAbs :=
  ⟨fun ⟨_, _, hvalue⟩ => significant_of_value hvalue,
    fun hbits => ⟨_, isFinite_ofInt hfits, value_ofInt hfits hbits⟩⟩

theorem Exact.value_ofInt (h : Exact n) (hfits : FitsInt64 n) : (ofInt n).value = n :=
  Binary64.value_ofInt hfits ((exact_iff hfits).mp h)

end

end Binary64

end Dataflow
