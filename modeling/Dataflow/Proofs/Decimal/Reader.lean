/-
# Numerals of integers

The digits that a natural number is written with spell it again. Digits are read from the left and
given up as soon as they lead above the limit, which is where the number that they all spell is
above it, since no further digit makes it smaller. So an integer of 64 bits is read from exactly
those texts that denote it: an optional sign and one or more digits, leading zeros included.
-/

import Dataflow.Decimal.Reader
import Dataflow.Proofs.Integer64
import Dataflow.Text.Blank
import Dataflow.Value.Text

namespace Dataflow.Decimal

section Digits

variable {digits : List Char}

theorem spelled_eq_ofDigitChars (sofar : Nat) (digits : List Char) :
    spelled sofar digits = Nat.ofDigitChars 10 digits sofar := by
  rw [Nat.ofDigitChars_eq_foldl]
  simp only [spelled, digitValue, Nat.mul_comm _ 10]

theorem spelled_toDigits (n : Nat) : spelled 0 (Nat.toDigits 10 n) = n := by
  rw [spelled_eq_ofDigitChars, Nat.ofDigitChars_ten_toDigits]

theorem le_spelled (sofar : Nat) (digits : List Char) : sofar ≤ spelled sofar digits := by
  induction digits generalizing sofar with
  | nil => exact Nat.le_refl _
  | cons c rest ih =>
    have hnext := ih (sofar * 10 + digitValue c)
    rw [spelled, List.foldl_cons]
    rw [spelled] at hnext
    omega

/-- The digits of a natural number are digits, of which there is at least one. -/
theorem exists_toDigits_eq_cons (n : Nat) : ∃ first rest, Nat.toDigits 10 n = first :: rest ∧
    ∀ c ∈ first :: rest, c.isDigit = true := by
  have hnonempty : Nat.toDigits 10 n ≠ [] := Nat.toDigits_ne_nil
  obtain ⟨first, rest, hdigits⟩ := List.exists_cons_of_ne_nil hnonempty
  refine ⟨first, rest, hdigits, fun c hc => ?_⟩
  rw [← hdigits] at hc
  exact Nat.isDigit_of_mem_toDigits (by decide) (Nat.le_refl 10) hc

/-- The first digit of a number that is not zero is not zero. -/
theorem head?_toDigits_ne_zero {n : Nat} (hpositive : 0 < n) :
    (Nat.toDigits 10 n).head? ≠ some '0' := by
  induction n using Nat.strong_induction_on with
  | h n ih =>
    by_cases hsmall : n < 10
    · rw [Nat.toDigits_of_lt_base hsmall]
      simp only [List.head?_cons, Ne, Option.some.injEq, Nat.digitChar_eq_zero]
      omega
    · rw [Nat.toDigits_of_base_le (by decide) (by omega),
        List.head?_append_of_ne_nil _ Nat.toDigits_ne_nil]
      exact ih (n / 10) (by omega) (by omega)

end Digits

/-- One or more decimal digits. -/
def AreDigits (chars : List Char) : Prop := chars ≠ [] ∧ ∀ c ∈ chars, c.isDigit = true

/-- Characters denote an integer in decimal: one or more digits, after an optional sign. -/
inductive Denotes : List Char → Int → Prop where
  | unsigned {digits : List Char} (hdigits : AreDigits digits) :
      Denotes digits (Nat.ofDigitChars 10 digits 0)
  | plus {digits : List Char} (hdigits : AreDigits digits) :
      Denotes ('+' :: digits) (Nat.ofDigitChars 10 digits 0)
  | minus {digits : List Char} (hdigits : AreDigits digits) :
      Denotes ('-' :: digits) (-Nat.ofDigitChars 10 digits 0)

section Denoting

variable {digits chars : List Char} {n : Int}

theorem not_areDigits_cons {c : Char} (hc : c.isDigit = false) : ¬ AreDigits (c :: digits) :=
  fun hdigits => Bool.eq_false_iff.mp hc (hdigits.2 c List.mem_cons_self)

theorem denotes_plus_iff :
    Denotes ('+' :: digits) n ↔ AreDigits digits ∧ (Nat.ofDigitChars 10 digits 0 : Int) = n := by
  constructor
  · intro hdenotes
    cases hdenotes with
    | unsigned hdigits => exact absurd hdigits (not_areDigits_cons rfl)
    | plus hdigits => exact ⟨hdigits, rfl⟩
  · rintro ⟨hdigits, rfl⟩
    exact .plus hdigits

theorem denotes_minus_iff :
    Denotes ('-' :: digits) n ↔ AreDigits digits ∧ -(Nat.ofDigitChars 10 digits 0 : Int) = n := by
  constructor
  · intro hdenotes
    cases hdenotes with
    | unsigned hdigits => exact absurd hdigits (not_areDigits_cons rfl)
    | minus hdigits => exact ⟨hdigits, rfl⟩
  · rintro ⟨hdigits, rfl⟩
    exact .minus hdigits

theorem denotes_unsigned_iff (hplus : chars.head? ≠ some '+') (hminus : chars.head? ≠ some '-') :
    Denotes chars n ↔ AreDigits chars ∧ (Nat.ofDigitChars 10 chars 0 : Int) = n := by
  constructor
  · intro hdenotes
    cases hdenotes with
    | unsigned hdigits => exact ⟨hdigits, rfl⟩
    | plus => exact absurd rfl hplus
    | minus => exact absurd rfl hminus
  · rintro ⟨hdigits, rfl⟩
    exact .unsigned hdigits

/-- No character of a numeral is blank. -/
theorem Denotes.isBlank_eq_false (h : Denotes chars n) :
    ∀ c ∈ chars, Text.isBlank c = false := by
  have hdigit (c : Char) (hc : c.isDigit = true) : Text.isBlank c = false := by
    have hrange : 48 ≤ c.toNat ∧ c.toNat ≤ 57 := by
      simpa [Char.isDigit, UInt32.le_iff_toNat_le] using hc
    simp only [Text.isBlank, Bool.or_eq_false_iff, Bool.and_eq_false_iff, decide_eq_false_iff_not,
      beq_eq_false_iff_ne]
    omega
  cases h with
  | unsigned hdigits => exact fun c hc => hdigit c (hdigits.2 c hc)
  | plus hdigits | minus hdigits =>
    exact List.forall_mem_cons.mpr ⟨rfl, fun c hc => hdigit c (hdigits.2 c hc)⟩

/-- The text of an integer denotes it. -/
theorem denotes_integerText (i : Int64) : Denotes (integerText i).toList i.toInt := by
  have hdigits (n : Nat) : AreDigits (numeral n).toList := by
    obtain ⟨first, rest, hchars, hall⟩ := exists_toDigits_eq_cons n
    rw [numeral, String.toList_ofList, hchars]
    exact ⟨List.cons_ne_nil _ _, hall⟩
  have hvalue (n : Nat) : Nat.ofDigitChars 10 (numeral n).toList 0 = n := by
    rw [numeral, String.toList_ofList, Nat.ofDigitChars_ten_toDigits]
  rw [integerText]
  split
  · rename_i hnegative
    rw [String.toList_append]
    have hdenotes := Denotes.minus (hdigits i.toInt.natAbs)
    rwa [hvalue, Int.ofNat_natAbs_of_nonpos (Int.le_of_lt hnegative), Int.neg_neg] at hdenotes
  · rename_i hpositive
    have hdenotes := Denotes.unsigned (hdigits i.toInt.natAbs)
    rwa [hvalue, Int.natAbs_of_nonneg (Int.not_lt.mp hpositive)] at hdenotes

end Denoting

section Reading

variable {limit n : Nat} {beyond : IntegerFault} {digits chars : List Char} {i : Int64}

/-- Digits are read if they are digits and spell no more than the limit. -/
theorem readDigits_eq_ok_iff {sofar : Nat} (hsofar : sofar ≤ limit) :
    readDigits limit beyond sofar digits = .ok n ↔
      (∀ c ∈ digits, c.isDigit = true) ∧ spelled sofar digits = n ∧ n ≤ limit := by
  induction digits generalizing sofar with
  | nil =>
    have hnil : spelled sofar [] = sofar := rfl
    simp only [readDigits, hnil, Except.ok.injEq, List.not_mem_nil, false_implies, implies_true,
      true_and]
    exact ⟨fun hsame => ⟨hsame, hsame ▸ hsofar⟩, And.left⟩
  | cons c rest ih =>
    have hspelled : spelled sofar (c :: rest) = spelled (sofar * 10 + digitValue c) rest := rfl
    rw [readDigits, List.forall_mem_cons, hspelled]
    cases hdigit : c.isDigit with
    | false => simp
    | true =>
      by_cases hbeyond : limit < sofar * 10 + digitValue c
      · have hmore := le_spelled (sofar * 10 + digitValue c) rest
        simp only [Bool.not_true, Bool.false_eq_true, if_false, hbeyond, if_true]
        constructor
        · rintro ⟨⟩
        · rintro ⟨-, hsame, hlimit⟩
          omega
      · simp [hbeyond, ih (Nat.le_of_not_lt hbeyond)]

theorem readMagnitude_eq_ok_iff :
    readMagnitude limit beyond digits = .ok n ↔
      AreDigits digits ∧ Nat.ofDigitChars 10 digits 0 = n ∧ n ≤ limit := by
  rw [readMagnitude, AreDigits, ← spelled_eq_ofDigitChars]
  by_cases hempty : digits = []
  · simp [hempty]
  · simp [hempty, readDigits_eq_ok_iff (Nat.zero_le limit)]

/-- A magnitude is read as the integer that it is with its sign, if the limit is that of the
integers of 64 bits with this sign. -/
-- The magnitude is widened to an integer before it gets its sign, which is the bind here.
theorem map_readMagnitude_eq_ok_iff {signed : Int → Int}
    (hrange : ∀ m : Nat, m ≤ limit ↔ FitsInt64 (signed m)) :
    Except.map (fun m => Int64.ofInt (signed m))
        (do return (← readMagnitude limit beyond digits : Nat) : Except IntegerFault Int) = .ok i ↔
      AreDigits digits ∧ signed (Nat.ofDigitChars 10 digits 0) = i.toInt := by
  constructor
  · intro hread
    cases hmagnitude : readMagnitude limit beyond digits with
    | error fault =>
      rw [hmagnitude] at hread
      cases hread
    | ok m =>
      obtain ⟨hdigits, hvalue, hlimit⟩ := readMagnitude_eq_ok_iff.mp hmagnitude
      rw [hmagnitude] at hread
      obtain rfl : Int64.ofInt (signed m) = i := Except.ok.inj hread
      exact ⟨hdigits, by rw [hvalue, toInt_ofInt_of_fitsInt64 ((hrange m).mp hlimit)]⟩
  · rintro ⟨hdigits, hvalue⟩
    have hlimit := (hrange _).mpr (hvalue ▸ fitsInt64_toInt i)
    rw [readMagnitude_eq_ok_iff.mpr ⟨hdigits, rfl, hlimit⟩]
    have hinteger : Int64.ofInt (signed (Nat.ofDigitChars 10 digits 0)) = i := by
      rw [hvalue, Int64.ofInt_toInt]
    exact congrArg Except.ok hinteger

/-- An integer of 64 bits is read from exactly the texts that denote it. -/
theorem readInt64_eq_ok_iff : readInt64 chars = .ok i ↔ Denotes chars i.toInt := by
  have hgreatest : int64Limit = 9223372036854775807 := rfl
  have hpositive (m : Nat) : m ≤ int64Limit ↔ FitsInt64 (m : Int) := by
    rw [fitsInt64_iff]
    omega
  have hnegative (m : Nat) : m ≤ int64Limit + 1 ↔ FitsInt64 (-(m : Int)) := by
    rw [fitsInt64_iff]
    omega
  unfold readInt64
  split
  · rw [denotes_unsigned_iff (by decide) (by decide)]
    simp [AreDigits]
  · rw [denotes_plus_iff]
    exact map_readMagnitude_eq_ok_iff hpositive
  · rw [denotes_minus_iff]
    exact map_readMagnitude_eq_ok_iff hnegative
  · rename_i hplus hminus
    have hunsigned {sign : Char} (hsign : ∀ digits, chars = sign :: digits → False) :
        chars.head? ≠ some sign := fun hhead =>
      (List.head?_eq_some_iff.mp hhead).elim hsign
    rw [denotes_unsigned_iff (hunsigned hplus) (hunsigned hminus)]
    exact map_readMagnitude_eq_ok_iff hpositive

end Reading

end Dataflow.Decimal
