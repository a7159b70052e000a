/-
# Binary64 numbers

The 64-bit binary interchange format of floating-point arithmetic: a sign and a
63-bit magnitude. Read as one natural number, the magnitude holds the biased
exponent above a 52-bit fraction, so that larger magnitudes are larger numbers,
infinity comes after every finite magnitude, and what lies past infinity is not
a number.

Every finite number is a whole multiple of 2 ^ (-1074), its *units*. Values are
compared through `Binary64.signed`, the magnitude with its sign; that the order
of the exact values is the same follows from `unitsOf_lt_succ`.
-/

namespace Dataflow

/-- How many fractions there are: they have 52 bits. -/
def Binary64.fractions : Nat := 0x10000000000000

/-- How many magnitudes there are: they have 63 bits. -/
def Binary64.magnitudes : Nat := 0x8000000000000000

/-- A number in the binary64 interchange format. -/
structure Binary64 where
  /-- The sign bit. -/
  negative : Bool
  /-- Biased exponent and fraction, read as one number. -/
  magnitude : Nat
  magnitude_lt : magnitude < Binary64.magnitudes
deriving DecidableEq, Repr

namespace Binary64

/-- The magnitude of infinity: exponent 2047, fraction zero. -/
def infinityMagnitude : Nat := 2047 * fractions

/-- Infinity is a magnitude. -/
theorem infinityMagnitude_lt : infinityMagnitude < magnitudes := by decide

/-- The number with these 64 bits. -/
def ofBits (bits : UInt64) : Binary64 where
  negative := decide (magnitudes ≤ bits.toNat)
  magnitude := bits.toNat % magnitudes
  magnitude_lt := Nat.mod_lt _ (by decide)

/-- The 64 bits of a number. -/
def toBits (x : Binary64) : UInt64 :=
  UInt64.ofNat (if x.negative then magnitudes + x.magnitude else x.magnitude)

def zero (negative : Bool) : Binary64 := ⟨negative, 0, by decide⟩

def infinity (negative : Bool) : Binary64 :=
  ⟨negative, infinityMagnitude, infinityMagnitude_lt⟩

def nan : Binary64 := ⟨false, infinityMagnitude + fractions / 2, by decide⟩

instance : Inhabited Binary64 := ⟨zero false⟩

def isNaN (x : Binary64) : Bool := decide (infinityMagnitude < x.magnitude)

def isInfinite (x : Binary64) : Bool := decide (x.magnitude = infinityMagnitude)

def isFinite (x : Binary64) : Bool := decide (x.magnitude < infinityMagnitude)

def isZero (x : Binary64) : Bool := decide (x.magnitude = 0)

/-- The integer significand of a finite magnitude. Below exponent one there is
no hidden bit. -/
def significand (magnitude : Nat) : Nat :=
  if magnitude < fractions then magnitude else fractions + magnitude % fractions

/-- The power of two that scales the significand to units. -/
def shift (magnitude : Nat) : Nat := magnitude / fractions - 1

/-- The exact value of a finite magnitude in units of 2 ^ (-1074). -/
def unitsOf (magnitude : Nat) : Nat := significand magnitude <<< shift magnitude

/-- How many units make one. -/
def unitsPerOne : Nat := 1 <<< 1074

/-- The exact value of a finite number in units of 2 ^ (-1074). -/
def units (x : Binary64) : Int :=
  if x.negative then -(unitsOf x.magnitude : Int) else (unitsOf x.magnitude : Int)

/-- The magnitude with its sign. Both zeros have the signed magnitude zero. -/
def signed (x : Binary64) : Int :=
  if x.negative then -(x.magnitude : Int) else (x.magnitude : Int)

/-- Numeric equality: zeros are equal, and not-a-number equals nothing. -/
def equals (x y : Binary64) : Bool :=
  !x.isNaN && !y.isNaN && x.signed == y.signed

/-- The numeric order, in which not-a-number has no place. -/
def order? (x y : Binary64) : Option Ordering :=
  if x.isNaN || y.isNaN then none else some (compare x.signed y.signed)

def negate (x : Binary64) : Binary64 := { x with negative := !x.negative }

def absolute (x : Binary64) : Binary64 := { x with negative := false }

/-- The next magnitude is a larger number. -/
theorem unitsOf_lt_succ (m : Nat) : unitsOf m < unitsOf (m + 1) := by
  unfold unitsOf significand shift fractions
  simp only [Nat.shiftLeft_eq]
  by_cases hsame : (m + 1) / 0x10000000000000 = m / 0x10000000000000
  · rw [hsame]
    refine Nat.mul_lt_mul_of_pos_right ?_ (Nat.two_pow_pos _)
    split <;> split <;> omega
  · have hfull : m % 0x10000000000000 = 0x10000000000000 - 1 := by omega
    have hnext : (m + 1) / 0x10000000000000 = m / 0x10000000000000 + 1 := by omega
    have hnone : (m + 1) % 0x10000000000000 = 0 := by omega
    rw [if_neg (by omega : ¬ m + 1 < 0x10000000000000), hnext, hnone]
    by_cases hsmall : m < 0x10000000000000
    · have hzero : m / 0x10000000000000 = 0 := by omega
      rw [if_pos hsmall, hzero]
      omega
    · obtain ⟨k, hk⟩ : ∃ k, m / 0x10000000000000 = k + 1 :=
        ⟨m / 0x10000000000000 - 1, by omega⟩
      rw [if_neg hsmall, hk, hfull, Nat.add_sub_cancel, Nat.add_sub_cancel, Nat.pow_succ]
      have hpos := Nat.two_pow_pos k
      omega

end Binary64

end Dataflow
