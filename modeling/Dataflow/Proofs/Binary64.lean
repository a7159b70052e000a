/-
# Exact values of binary64 numbers

A finite number has an exact rational value, its units over the units of one. Numbers are ordered
as their values are. A natural number of units with at most 53 significant bits, below infinity, is
the units of some magnitude, and rounding gives that magnitude, so nothing is lost. In particular
a finite number that is cut toward zero has the integer part of its value as its own value.
-/

import Dataflow.Binary64.Arithmetic
import Mathlib.Data.Rat.Floor

namespace Dataflow.Binary64

/-- One is this power of two in units. -/
def oneExponent : Nat := 1074

theorem unitsPerOne_eq : unitsPerOne = 2 ^ oneExponent := Nat.one_shiftLeft oneExponent

theorem unitsPerOne_pos : 0 < unitsPerOne := by
  rw [unitsPerOne_eq]
  exact Nat.two_pow_pos oneExponent

theorem unitsOf_strictMono : StrictMono unitsOf := strictMono_nat_of_lt_succ unitsOf_lt_succ

/-- The exact value of a finite number. -/
def value (x : Binary64) : ℚ := (x.units : ℚ) / unitsPerOne

/-- The integer part of the exact value, cut toward zero. -/
def integerPart (x : Binary64) : Int := if 0 ≤ x.value then ⌊x.value⌋ else ⌈x.value⌉

section

variable {x y : Binary64}

theorem isNaN_of_isFinite (hx : x.isFinite = true) : x.isNaN = false := by
  have hfinite : x.magnitude < infinityMagnitude := by simpa [isFinite] using hx
  simpa [isNaN] using Nat.le_of_lt hfinite

theorem isInfinite_of_isFinite (hx : x.isFinite = true) : x.isInfinite = false := by
  have hfinite : x.magnitude < infinityMagnitude := by simpa [isFinite] using hx
  simpa [isInfinite] using Nat.ne_of_lt hfinite

/-- Signed magnitudes are ordered as units are. -/
theorem signed_lt_signed_iff : x.signed < y.signed ↔ x.units < y.units := by
  have hpos : ∀ z : Binary64, 0 < z.magnitude ↔ 0 < unitsOf z.magnitude := by
    intro z
    exact (unitsOf_strictMono.lt_iff_lt (a := 0)).symm
  have hx := hpos x
  have hy := hpos y
  have hlt : x.magnitude < y.magnitude ↔ unitsOf x.magnitude < unitsOf y.magnitude :=
    unitsOf_strictMono.lt_iff_lt.symm
  have hgt : y.magnitude < x.magnitude ↔ unitsOf y.magnitude < unitsOf x.magnitude :=
    unitsOf_strictMono.lt_iff_lt.symm
  unfold signed units
  cases x.negative <;> cases y.negative <;> simp only [Bool.false_eq_true, if_false, if_true] <;>
    omega

/-- A finite number exceeds another if its units do. -/
theorem exceeds_iff (hx : x.isFinite = true) (hy : y.isFinite = true) :
    x.exceeds y = true ↔ y.units < x.units := by
  rw [← signed_lt_signed_iff]
  simp [exceeds, order?, isNaN_of_isFinite hx, isNaN_of_isFinite hy, Int.compare_eq_gt]

end

section

variable {n q scale : Nat}

/-- The units of a magnitude are its significand, scaled: below the first exponent there is no
scale, and from there on the significand has its hidden bit. -/
theorem unitsOf_scaled (hscale : scale = 0 ∨ fractions ≤ q) (hq : q < 2 * fractions) :
    unitsOf (scale * fractions + q) = q * 2 ^ scale := by
  unfold fractions at hscale hq
  unfold unitsOf significand shift fractions
  rw [Nat.shiftLeft_eq]
  by_cases hhidden : 0x10000000000000 ≤ q
  · have hexponent : (scale * 0x10000000000000 + q) / 0x10000000000000 = scale + 1 := by omega
    have hfraction : 0x10000000000000 + (scale * 0x10000000000000 + q) % 0x10000000000000 = q := by
      omega
    rw [if_neg (by omega), hexponent, hfraction, Nat.add_sub_cancel]
  · obtain rfl : scale = 0 := hscale.resolve_right hhidden
    have hexponent : (0 * 0x10000000000000 + q) / 0x10000000000000 - 1 = 0 := by omega
    rw [if_pos (by omega), hexponent, Nat.zero_mul, Nat.zero_add]

/-- A multiple of a power of two below the one that is 53 bits above has at most 53 significant
bits. -/
theorem significant_of_lt {n exponent : Nat} (hdvd : 2 ^ exponent ∣ n)
    (hlt : n < 2 ^ (exponent + 53)) : 2 ^ (n.log2 - 52) ∣ n := by
  refine Nat.dvd_trans (Nat.pow_dvd_pow 2 ?_) hdvd
  by_cases hzero : n = 0
  · rw [hzero, Nat.log2_zero]
    exact Nat.zero_le _
  · have hlog : n.log2 < exponent + 53 := (Nat.log2_lt hzero).mpr hlt
    omega

/-- Units with at most 53 significant bits, below infinity, are kept by rounding. -/
theorem unitsOf_nearestMagnitude (hbits : 2 ^ (n.log2 - 52) ∣ n)
    (hfinite : n < unitsOf infinityMagnitude) : unitsOf (nearestMagnitude n 1) = n := by
  obtain ⟨q, hq⟩ := hbits
  generalize hscale : n.log2 - 52 = scale at hq
  have hpos : 0 < 2 ^ scale := Nat.two_pow_pos scale
  have hrounded : nearestEven n (1 <<< scale) = q := by
    rw [nearestEven, Nat.one_shiftLeft, hq, Nat.mul_mod_right, Nat.mul_div_cancel_left q hpos]
    simp
  have hwidth : q < 2 * fractions := by
    have habove : n < 2 ^ scale * 2 ^ 53 := by
      rw [← Nat.pow_add]
      exact Nat.lt_of_lt_of_le Nat.lt_log2_self (Nat.pow_le_pow_right (by decide) (by omega))
    rw [hq] at habove
    exact Nat.lt_of_mul_lt_mul_left habove
  have hhidden : scale = 0 ∨ fractions ≤ q := by
    refine or_iff_not_imp_left.mpr fun hscaled => ?_
    have hn : n ≠ 0 := by
      rintro rfl
      exact hscaled (by rw [← hscale, Nat.log2_zero])
    have hbelow : 2 ^ scale * 2 ^ 52 ≤ n := by
      rw [← Nat.pow_add]
      exact Nat.le_trans (Nat.pow_le_pow_right (by decide) (by omega)) (Nat.log2_self_le hn)
    rw [hq] at hbelow
    exact Nat.le_of_mul_le_mul_left hbelow hpos
  have hunits : unitsOf (scale * fractions + q) = n := by
    rw [unitsOf_scaled hhidden hwidth, hq, Nat.mul_comm]
  have hbelow : scale * fractions + q ≤ infinityMagnitude := by
    rw [← hunits, unitsOf_strictMono.lt_iff_lt] at hfinite
    exact Nat.le_of_lt hfinite
  simp only [nearestMagnitude, Nat.div_one, hscale, hrounded, Nat.min_eq_left hbelow, hunits]

theorem nearestMagnitude_lt_infinity (hbits : 2 ^ (n.log2 - 52) ∣ n)
    (hfinite : n < unitsOf infinityMagnitude) : nearestMagnitude n 1 < infinityMagnitude := by
  rw [← unitsOf_strictMono.lt_iff_lt, unitsOf_nearestMagnitude hbits hfinite]
  exact hfinite

end

theorem significand_lt (magnitude : Nat) : significand magnitude < 2 ^ 53 := by
  unfold significand fractions
  split <;> omega

section

variable {x : Binary64}

/-- What is left of one is less than the last of 53 bits: a finite number that is not whole has
at most as many bits before the point. -/
theorem unitsOf_lt_of_not_whole (hpart : unitsOf x.magnitude % unitsPerOne ≠ 0) :
    unitsOf x.magnitude < 2 ^ (oneExponent + 53) := by
  have hsmall : shift x.magnitude < oneExponent := by
    by_contra hlarge
    apply hpart
    rw [unitsPerOne_eq, unitsOf, Nat.shiftLeft_eq]
    exact Nat.mod_eq_zero_of_dvd
      (Nat.dvd_mul_left_of_dvd (Nat.pow_dvd_pow 2 (Nat.le_of_not_lt hlarge)) _)
  rw [unitsOf, Nat.shiftLeft_eq, Nat.add_comm, Nat.pow_add]
  exact Nat.mul_lt_mul_of_lt_of_le (significand_lt x.magnitude)
    (Nat.pow_le_pow_right (by decide) (Nat.le_of_lt hsmall)) (Nat.two_pow_pos _)

/-- The whole part of a number with a fraction is kept by rounding. -/
theorem whole_representable (hfinite : x.isFinite = true)
    (hpart : unitsOf x.magnitude % unitsPerOne ≠ 0) :
    2 ^ ((unitsOf x.magnitude / unitsPerOne * unitsPerOne).log2 - 52) ∣
        unitsOf x.magnitude / unitsPerOne * unitsPerOne ∧
      unitsOf x.magnitude / unitsPerOne * unitsPerOne < unitsOf infinityMagnitude := by
  have hbelow : unitsOf x.magnitude / unitsPerOne * unitsPerOne ≤ unitsOf x.magnitude :=
    Nat.div_mul_le_self _ _
  have hdvd : 2 ^ oneExponent ∣ unitsOf x.magnitude / unitsPerOne * unitsPerOne :=
    unitsPerOne_eq ▸ Nat.dvd_mul_left unitsPerOne _
  have hx : x.magnitude < infinityMagnitude := by simpa [isFinite] using hfinite
  exact ⟨significant_of_lt hdvd (Nat.lt_of_le_of_lt hbelow (unitsOf_lt_of_not_whole hpart)),
    Nat.lt_of_le_of_lt hbelow (unitsOf_strictMono hx)⟩

theorem tdiv_units (x : Binary64) :
    x.units.tdiv unitsPerOne =
      if x.negative then -((unitsOf x.magnitude / unitsPerOne : Nat) : Int)
      else ((unitsOf x.magnitude / unitsPerOne : Nat) : Int) := by
  unfold units
  split
  · rw [Int.neg_tdiv, Int.ofNat_tdiv]
  · rw [Int.ofNat_tdiv]

/-- A whole number has the units of its integer part. -/
theorem units_of_whole (hpart : unitsOf x.magnitude % unitsPerOne = 0) :
    x.units = x.units.tdiv unitsPerOne * unitsPerOne := by
  have hwhole : unitsOf x.magnitude / unitsPerOne * unitsPerOne = unitsOf x.magnitude :=
    Nat.div_mul_cancel (Nat.dvd_of_mod_eq_zero hpart)
  rw [tdiv_units, units]
  split
  · rw [Int.neg_mul, ← Int.natCast_mul, hwhole]
  · rw [← Int.natCast_mul, hwhole]

/-- A finite number that is cut toward zero is a finite number of whole units. -/
theorem units_truncate (hfinite : x.isFinite = true) :
    x.truncate.isFinite = true ∧
      x.truncate.units = x.units.tdiv unitsPerOne * unitsPerOne := by
  by_cases hpart : unitsOf x.magnitude % unitsPerOne = 0
  · have htruncate : x.truncate = x := by simp [truncate, isWhole, hfinite, hpart]
    rw [htruncate]
    exact ⟨hfinite, units_of_whole hpart⟩
  · obtain ⟨hbits, hbelow⟩ := whole_representable hfinite hpart
    have htruncate : x.truncate = ofRatio x.negative (unitsOf x.magnitude / unitsPerOne) 1 := by
      simp [truncate, isWhole, hfinite, hpart]
    refine ⟨?_, ?_⟩
    · rw [htruncate]
      exact decide_eq_true (nearestMagnitude_lt_infinity hbits hbelow)
    · have hkept := unitsOf_nearestMagnitude hbits hbelow
      rw [htruncate, tdiv_units, units, ofRatio, ofUnits, hkept]
      split
      · rw [Int.natCast_mul, Int.neg_mul]
      · rw [Int.natCast_mul]

/-- The integer part of the value is the quotient of the units, cut toward zero. -/
theorem integerPart_eq (x : Binary64) : x.integerPart = x.units.tdiv unitsPerOne := by
  have hpos : (0 : ℚ) < unitsPerOne := Nat.cast_pos.mpr unitsPerOne_pos
  by_cases hsign : 0 ≤ x.units
  · have hvalue : 0 ≤ x.value := div_nonneg (Int.cast_nonneg hsign) hpos.le
    rw [integerPart, if_pos hvalue, value, Rat.floor_intCast_div_natCast,
      Int.tdiv_eq_ediv_of_nonneg hsign]
  · have hvalue : ¬ 0 ≤ x.value := by
      rw [not_le]
      exact div_neg_of_neg_of_pos (Int.cast_lt_zero.mpr (Int.not_le.mp hsign)) hpos
    have hopposite : x.value = -((-x.units : Int) / (unitsPerOne : ℚ)) := by
      rw [value, Int.cast_neg, neg_div, neg_neg]
    rw [integerPart, if_neg hvalue, hopposite, Int.ceil_neg, Rat.floor_intCast_div_natCast,
      ← Int.tdiv_eq_ediv_of_nonneg (by omega), Int.neg_tdiv, Int.neg_neg]

/-- A number whose integer part takes more than 53 bits has no fraction. -/
theorem value_eq_integerPart (hlarge : 2 ^ 53 ≤ x.integerPart.natAbs) :
    x.value = x.integerPart := by
  have hpart : unitsOf x.magnitude % unitsPerOne = 0 := by
    by_contra hpart
    have hbelow := unitsOf_lt_of_not_whole hpart
    have hquotient : x.integerPart.natAbs = unitsOf x.magnitude / unitsPerOne := by
      rw [integerPart_eq, tdiv_units]
      split
      · rw [Int.natAbs_neg, Int.natAbs_natCast]
      · rw [Int.natAbs_natCast]
    rw [hquotient, Nat.le_div_iff_mul_le unitsPerOne_pos] at hlarge
    rw [pow_add, ← unitsPerOne_eq, Nat.mul_comm] at hbelow
    exact Nat.not_le_of_lt hbelow hlarge
  have hone : (unitsPerOne : ℚ) ≠ 0 := Nat.cast_ne_zero.mpr unitsPerOne_pos.ne'
  rw [value, units_of_whole hpart, ← integerPart_eq, Int.cast_mul, Int.cast_natCast,
    mul_div_cancel_right₀ _ hone]

end

end Dataflow.Binary64
