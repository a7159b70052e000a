/-
# Division rounded down

The quotient of two integers of 64 bits is cut toward zero and then corrected by one where
something is left and the signs differ. This is the floor of the rational quotient. It is in
range unless the least integer is divided by minus one, so the correction never leaves the
range either.
-/

import Dataflow.Integer64
import Mathlib.Data.Rat.Floor

namespace Dataflow

/-- The range of 64 bits in numerals. -/
theorem fitsInt64_iff {n : Int} :
    FitsInt64 n ↔ -9223372036854775808 ≤ n ∧ n ≤ 9223372036854775807 := by
  have hleast : Int64.minValue.toInt = -9223372036854775808 := by decide
  have hgreatest : Int64.maxValue.toInt = 9223372036854775807 := by decide
  rw [FitsInt64, hleast, hgreatest]

theorem fitsInt64_toInt (i : Int64) : FitsInt64 i.toInt :=
  ⟨Int64.le_iff_toInt_le.mp (Int64.minValue_le i), Int64.le_iff_toInt_le.mp (Int64.le_maxValue i)⟩

/-- An integer that fits 64 bits is the nearest to itself. -/
theorem toInt_nearestInt64 {n : Int} (hfits : FitsInt64 n) : (nearestInt64 n).toInt = n := by
  rw [nearestInt64, Int.min_eq_left hfits.2, Int.max_eq_right hfits.1]
  exact toInt_ofInt_of_fitsInt64 hfits

/-- The greatest integer of 64 bits is the nearest to all that are greater. -/
theorem nearestInt64_of_le {n : Int} (hlarge : Int64.maxValue.toInt ≤ n) :
    nearestInt64 n = Int64.maxValue := by
  rw [nearestInt64, Int.min_eq_right hlarge]
  rfl

section

variable {m n : Int}

/-- Division that rounds down gives the floor of the rational quotient. -/
theorem fdiv_eq_floor (m n : Int) : m.fdiv n = ⌊(m : ℚ) / n⌋ := by
  rcases Int.le_total 0 n with hsign | hsign
  · obtain ⟨k, rfl⟩ := Int.eq_ofNat_of_zero_le hsign
    rw [Int.fdiv_eq_ediv_of_nonneg m hsign, Int.cast_natCast, Rat.floor_intCast_div_natCast]
  · obtain ⟨k, hk⟩ := Int.eq_ofNat_of_zero_le (Int.neg_nonneg_of_nonpos hsign)
    have hquotient : (m : ℚ) / n = (-m : Int) / (k : ℕ) := by
      rw [← Int.cast_natCast, ← hk, Int.cast_neg, Int.cast_neg, neg_div_neg_eq]
    rw [← Int.neg_fdiv_neg, hk, Int.fdiv_eq_ediv_of_nonneg _ (Int.natCast_nonneg k), hquotient,
      Rat.floor_intCast_div_natCast]

/-- Rounding down is cutting toward zero, and one less where something is left and the signs
differ. -/
theorem fdiv_eq_corrected (hn : n ≠ 0) :
    m.fdiv n =
      if m.tmod n ≠ 0 ∧ decide (m < 0) ≠ decide (n < 0) then m.tdiv n - 1 else m.tdiv n := by
  rw [Int.fdiv_eq_tdiv]
  by_cases hleft : m.tmod n = 0
  · simp [hleft, Int.dvd_of_tmod_eq_zero hleft]
  · have hdvd : ¬ n ∣ m := fun hdvd => hleft (Int.tmod_eq_zero_of_dvd hdvd)
    rcases Int.lt_or_gt_of_ne hn with hsign | hsign
    · have hone : n.sign = -1 := Int.sign_eq_neg_one_of_neg hsign
      by_cases hm : m < 0
      · simp [hdvd, hone, hm, hsign, Int.not_le.mpr]
      · simp [hleft, hdvd, hm, hsign, Int.not_lt.mp hm, Int.not_le.mpr]
    · have hone : n.sign = 1 := Int.sign_eq_one_of_pos hsign
      by_cases hm : m < 0
      · simp [hleft, hdvd, hone, hm, hsign.le, Int.not_le.mpr]
      · simp [hdvd, hm, hsign.le]

/-- A quotient of integers of 64 bits rounded down is of 64 bits, unless the least of them is
divided by minus one. -/
theorem fitsInt64_fdiv (hm : FitsInt64 m) (hlast : ¬ (m = Int64.minValue.toInt ∧ n = -1)) :
    FitsInt64 (m.fdiv n) := by
  rw [fitsInt64_iff] at hm ⊢
  have hsize : (m.fdiv n).natAbs ≤ m.natAbs := Int.natAbs_fdiv_le_natAbs m n
  have habove : m.fdiv n ≠ 9223372036854775808 := by
    intro hquotient
    have hm : m = -9223372036854775808 := by omega
    have hn : n ≠ 0 := by
      rintro rfl
      rw [Int.fdiv_zero] at hquotient
      cases hquotient
    have hsign : n < 0 := by
      by_contra hsign
      have hcut : m / n * n ≤ m := Int.ediv_mul_le m hn
      rw [← Int.fdiv_eq_ediv_of_nonneg m (Int.not_lt.mp hsign), hquotient] at hcut
      omega
    have hcut : -m / -n * -n ≤ -m := Int.ediv_mul_le (-m) (by omega)
    rw [← Int.fdiv_eq_ediv_of_nonneg (-m) (by omega), Int.neg_fdiv_neg, hquotient] at hcut
    exact hlast ⟨hm, by omega⟩
  omega

end

section

variable {a b : Int64}

theorem undivided_iff : undivided a b = true ↔ b = 0 ∨ a = Int64.minValue ∧ b = -1 := by
  simp [undivided]

/-- A division that has a result corrects the cut quotient to the one rounded down. -/
theorem floorQuotient?_of_divided (hdivided : undivided a b = false) :
    floorQuotient? a b = some (.ofInt (a.toInt.fdiv b.toInt)) := by
  have hb : b.toInt ≠ 0 := by
    intro hzero
    rw [undivided_iff.mpr (.inl (Int64.toInt_inj.mp hzero))] at hdivided
    cases hdivided
  obtain ⟨hleast, hgreatest⟩ := fitsInt64_toInt a
  obtain ⟨hleast', hgreatest'⟩ := fitsInt64_toInt b
  have hquotient : Int64.ofInt (a.toInt.tdiv b.toInt) = a / b := by
    rw [Int64.ofInt_tdiv hleast hgreatest hleast' hgreatest', Int64.ofInt_toInt, Int64.ofInt_toInt]
  have hrest : a % b = 0 ↔ a.toInt.tmod b.toInt = 0 := by
    rw [← Int64.toInt_inj, Int64.toInt_mod, Int64.toInt_zero]
  have hcorrect : (a % b != 0 && decide (a < 0) != decide (b < 0)) = true ↔
      a.toInt.tmod b.toInt ≠ 0 ∧ decide (a.toInt < 0) ≠ decide (b.toInt < 0) := by
    simp [hrest, Int64.lt_iff_toInt_lt]
  have hstep : floorQuotient? a b =
      some (if a % b != 0 && decide (a < 0) != decide (b < 0) then a / b - 1 else a / b) := by
    simp [floorQuotient?, quotient?, remainder?, hdivided]
  rw [hstep, fdiv_eq_corrected hb]
  split
  · rename_i hleft
    rw [if_pos (hcorrect.mp hleft), Int64.ofInt_sub, hquotient]
    rfl
  · rename_i hnone
    rw [if_neg (mt hcorrect.mpr hnone), hquotient]

/-- Division that rounds down is exact, or has no result where the exact one is out of
range. -/
theorem floorQuotient?_eq (hb : b ≠ 0) :
    floorQuotient? a b =
      if FitsInt64 ⌊(a.toInt : ℚ) / b.toInt⌋ then some (.ofInt ⌊(a.toInt : ℚ) / b.toInt⌋)
      else none := by
  rw [← fdiv_eq_floor]
  cases hdivided : undivided a b with
  | false =>
    have hlast : ¬ (a.toInt = Int64.minValue.toInt ∧ b.toInt = -1) := by
      rintro ⟨ha, hone⟩
      rw [undivided_iff.mpr (.inr ⟨Int64.toInt_inj.mp ha, Int64.toInt_inj.mp hone⟩)] at hdivided
      cases hdivided
    rw [if_pos (fitsInt64_fdiv (fitsInt64_toInt a) hlast), floorQuotient?_of_divided hdivided]
  | true =>
    obtain ⟨rfl, rfl⟩ := (undivided_iff.mp hdivided).resolve_left hb
    rfl

end

end Dataflow
