/-
# Numbers that are read back

The digits that an integer is written with are a numeral, since the first of them is no zero unless
it stands alone. An integer within 64 bits, signed or not, is read back from its text. What is read
from the text of a float stands in a larger text as well.
-/

import Dataflow.Proofs.Integer64
import Dataflow.Proofs.Json.Lexer
import Mathlib.Data.List.TakeWhile

namespace Dataflow

namespace Json

open Document (Part)

variable {digits : List Char}

theorem takeWhile_isDigit (hdigits : ∀ c ∈ digits, c.isDigit = true) :
    digits.takeWhile Char.isDigit = digits ∧ digits.dropWhile Char.isDigit = [] :=
  ⟨List.takeWhile_eq_self_iff.mpr hdigits, List.dropWhile_eq_nil_iff.mpr hdigits⟩

/-- Digits that spell no more than fits are all kept. -/
theorem keepWhole_eq {sofar : Nat} (hfits : Decimal.spelled sofar digits ≤ significandLimit) :
    keepWhole sofar digits = (Decimal.spelled sofar digits, 0) := by
  induction digits generalizing sofar with
  | nil => rfl
  | cons c rest ih =>
    have hnext := Decimal.le_spelled (sofar * 10 + Decimal.digitValue c) rest
    have hspelled : Decimal.spelled sofar (c :: rest) =
        Decimal.spelled (sofar * 10 + Decimal.digitValue c) rest := rfl
    rw [hspelled] at hfits
    rw [keepWhole, if_neg (by omega), ih hfits]
    rfl

/-- The digits of a natural number are a numeral, with or without a sign. -/
theorem afterWhole?_toDigits (n : Nat) : afterWhole? (Nat.toDigits 10 n) = some [] := by
  obtain ⟨first, rest, hdigits, hall⟩ := Decimal.exists_toDigits_eq_cons n
  have hwhole := (takeWhile_isDigit hall).1
  have hzero : ¬ ((Nat.toDigits 10 n).length > 1 ∧ (Nat.toDigits 10 n).head? = some '0') := by
    rintro ⟨hlong, hhead⟩
    rcases Nat.eq_zero_or_pos n with rfl | hpositive
    · exact absurd hlong (by decide)
    · exact Decimal.head?_toDigits_ne_zero hpositive hhead
  rw [hdigits] at hzero ⊢
  rw [afterWhole?, hwhole, if_neg, List.drop_length]
  simpa using hzero

theorem readUnsigned?_toDigits {n : Nat} (hfits : n ≤ significandLimit) (negative : Bool) :
    readUnsigned? negative (Nat.toDigits 10 n) = some (integerOf negative n) := by
  obtain ⟨first, rest, hdigits, hall⟩ := Decimal.exists_toDigits_eq_cons n
  rw [← hdigits] at hall
  obtain ⟨htake, hdrop⟩ := takeWhile_isDigit hall
  rw [readUnsigned?, htake, hdrop, keepWhole_eq (by rwa [Decimal.spelled_toDigits]),
    Decimal.spelled_toDigits]
  rfl

/-- The digits of a natural number are a numeral, with or without a sign before them. -/
theorem isNumeral_toDigits (n : Nat) :
    isNumeral (Nat.toDigits 10 n) = true ∧ isNumeral ('-' :: Nat.toDigits 10 n) = true := by
  have hunsigned : (Nat.toDigits 10 n).head? ≠ some '-' := by
    obtain ⟨first, rest, hdigits, hall⟩ := Decimal.exists_toDigits_eq_cons n
    rw [hdigits]
    rintro ⟨⟩
    cases hall '-' List.mem_cons_self
  constructor
  · rw [isNumeral, if_neg (by simpa using hunsigned)]
    simp only [afterWhole?_toDigits]
    rfl
  · have hsign : (('-' :: Nat.toDigits 10 n).head? == some '-') = true := rfl
    rw [isNumeral, if_pos hsign, List.drop_one, List.tail_cons]
    simp only [afterWhole?_toDigits]
    rfl

theorem readNumber?_toDigits {n : Nat} (hfits : n ≤ significandLimit) :
    readNumber? (Nat.toDigits 10 n) = some (integerOf false n) ∧
      readNumber? ('-' :: Nat.toDigits 10 n) = some (integerOf true n) := by
  refine ⟨?_, readUnsigned?_toDigits hfits true⟩
  obtain ⟨first, rest, hdigits, hall⟩ := Decimal.exists_toDigits_eq_cons n
  rw [← readUnsigned?_toDigits hfits false, hdigits, readNumber?]
  rintro rest' ⟨⟩
  cases hall '-' List.mem_cons_self

/-- An integer within 64 bits, signed or not, is read back. -/
theorem readsAlone_integer {n : Int} (hleast : Int64.minValue.toInt ≤ n)
    (hgreatest : n ≤ significandLimit) : (Json.integer n).ReadsAlone := by
  obtain ⟨first, rest, htext, hfirst, hrest⟩ := isNumberText_integerText n
  refine ⟨first, rest, htext, hfirst, hrest, ?_⟩
  have hminimum : Int64.minValue.toInt = -9223372036854775808 := by decide
  have hlimit : significandLimit = 18446744073709551615 := by decide
  have hfits : n.natAbs ≤ significandLimit := by omega
  rw [← htext, integerText]
  split
  · rename_i hnegative
    have hchars : ("-" ++ numeral n.natAbs).toList = '-' :: Nat.toDigits 10 n.natAbs := by
      rw [numeral, String.toList_append, String.toList_ofList, String.toList_ofList]
      rfl
    have hinteger : integerOf true n.natAbs = .integer n := by
      have hequal : -(n.natAbs : Int) = n := by omega
      rw [integerOf, if_pos rfl, hequal, if_neg]
      rw [fitsInt64_iff]
      omega
    rw [hchars, numberToken?, if_pos (isNumeral_toDigits _).2, (readNumber?_toDigits hfits).2,
      hinteger]
  · rename_i hpositive
    have hinteger : integerOf false n.natAbs = .integer n := by
      have hequal : (n.natAbs : Int) = n := by omega
      rw [integerOf, if_neg Bool.false_ne_true, hequal]
    rw [numeral, String.toList_ofList, numberToken?, if_pos (isNumeral_toDigits _).1,
      (readNumber?_toDigits hfits).1, hinteger]

/-- The token of a run is a literal or a number that can be read, or nothing that can. -/
theorem exists_of_numberToken? {run : List Char} {token : Token}
    (htoken : numberToken? run = some token) : ∃ part, token = .scalar part := by
  rw [numberToken?] at htoken
  split at htoken
  · split at htoken
    · exact ⟨_, (Option.some.inj htoken).symm⟩
    · exact ⟨_, (Option.some.inj htoken).symm⟩
  · cases htoken

/-- What gives a float is the float. -/
theorem eq_float_of_json? {part : Part} {depth : Nat} {json : Json} {x : Binary64}
    (hjson : part.json? depth = some json) (hmerged : json.merged = .float x) :
    part = .float x := by
  obtain rfl : json = .float x := by
    cases json with
    | float => exact hmerged
    | object members => cases members; cases hmerged
    | null | boolean | integer | string | array => cases hmerged
  cases part with
  | float => exact congrArg Part.float (Json.float.inj (Option.some.inj hjson))
  | array items =>
    rw [Part.json?] at hjson
    split at hjson
    · cases hjson
    · obtain ⟨_, -, hfloat⟩ := Option.map_eq_some_iff.mp hjson
      cases hfloat
  | object members =>
    obtain ⟨members⟩ := members
    rw [Part.json?] at hjson
    split at hjson
    · cases hjson
    · obtain ⟨_, -, hfloat⟩ := Option.map_eq_some_iff.mp hjson
      cases hfloat
  | _ => cases hjson

/-- A float that is read back from its text is read back in a larger text as well. -/
theorem readsAlone_float {x : Binary64} (hread : read? (compact (.float x)) = some (.float x)) :
    (Json.float x).ReadsAlone := by
  cases hfinite : x.isFinite with
  | false =>
    have htext : compact (.float x) = "null" := text_of_not_isFinite hfinite
    rw [htext] at hread
    cases hread
  | true =>
    obtain ⟨first, rest, htext, hfirst, hrest⟩ := isNumberText_text hfinite
    refine ⟨first, rest, htext, hfirst, hrest, ?_⟩
    have htokens : tokens? (compact (.float x)) =
        (numberToken? (first :: rest)).map fun token => [token] := by
      have hrun := @lexFrom?_number first rest [] hfirst hrest nofun
      rw [tokens?, compact, htext]
      rw [List.append_nil] at hrun
      rw [hrun]
      cases numberToken? (first :: rest) <;> rfl
    rw [read?, part?, htokens] at hread
    cases htoken : numberToken? (first :: rest) with
    | none =>
      rw [htoken] at hread
      cases hread
    | some token =>
      obtain ⟨part, rfl⟩ := exists_of_numberToken? htoken
      rw [htoken] at hread
      obtain ⟨json, hjson, hmerged⟩ := Option.map_eq_some_iff.mp hread
      rw [eq_float_of_json? hjson hmerged]
      rfl

/-- Whether a float is read back from its text. -/
def readsBack (x : Binary64) : Bool :=
  match read? (float x).compact with
  | some (.float y) => y == x
  | _ => false

theorem readsBack_iff {x : Binary64} :
    readsBack x = true ↔ read? (float x).compact = some (.float x) := by
  unfold readsBack
  constructor
  · intro hsame
    split at hsame
    · rename_i y hread
      rw [hread, eq_of_beq hsame]
    · cases hsame
  · intro hread
    rw [hread]
    exact beq_self_eq_true x

instance (x : Binary64) : Decidable (read? (float x).compact = some (.float x)) :=
  decidable_of_iff _ readsBack_iff

/-- A large float of fourteen digits is not read back: its power of ten is rounded before it is
multiplied. -/
example : ¬ read? (float (.ofBits 0x5443e93e93e92dc9)).compact =
    some (.float (.ofBits 0x5443e93e93e92dc9)) := by decide +kernel

end Json

end Dataflow
