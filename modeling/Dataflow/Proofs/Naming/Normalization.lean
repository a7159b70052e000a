/-
# Normalization of names

Every text is normalized to a valid name, and the valid names are the texts that stay as they are,
so to normalize a name again changes nothing. What a text is normalized to depends on its letters
in lower case, on its digits and on the places of everything else between them: not on the case of
letters, not on which other characters separate the words, and not on such characters at the ends.
-/

import Dataflow.Proofs.Naming
import Mathlib.Data.List.Forall2

namespace Dataflow

/-- A character that separates the words of a name: anything but an ASCII letter or a digit. -/
def isSeparator (c : Char) : Bool := !c.isAlphanum

/-- Two characters that make no difference in a name: one ASCII letter in both cases, or one
character, or two that separate words. -/
inductive Interchangeable : Char → Char → Prop where
  | case {c d : Char} (hcase : c.toLower = d.toLower) : Interchangeable c d
  | separators {c d : Char} (hc : isSeparator c = true) (hd : isSeparator d = true) :
      Interchangeable c d

section

variable {c d : Char} {text other before after name : String}

theorem isUpper_iff : c.isUpper = true ↔ 65 ≤ c.toNat ∧ c.toNat ≤ 90 :=
  decide_eq_true_iff.trans (and_congr UInt32.le_iff_toNat_le UInt32.le_iff_toNat_le)

theorem isLower_iff : c.isLower = true ↔ 97 ≤ c.toNat ∧ c.toNat ≤ 122 :=
  (Bool.and_eq_true _ _).to_iff.trans
    (and_congr (decide_eq_true_iff.trans UInt32.le_iff_toNat_le)
      (decide_eq_true_iff.trans UInt32.le_iff_toNat_le))

/-- A character that is no ASCII capital stays as it is in lower case. -/
theorem toLower_of_not_isUpper (hc : ¬ c.isUpper = true) : c.toLower = c :=
  dif_neg fun hcapital => hc (decide_eq_true hcapital)

/-- What may stand in a name is fit for it. -/
theorem nameChar_of_isNameChar (hc : isNameChar c = true) : nameChar c = c := by
  have hupper : ¬ c.isUpper = true := by
    rw [isUpper_iff]
    rw [isNameChar, Bool.or_eq_true, Bool.or_eq_true, isLower_iff, beq_iff_eq] at hc
    rcases hc with (hlower | hdigit) | rfl
    · omega
    · simp [Char.isDigit, UInt32.le_iff_toNat_le] at hdigit
      omega
    · decide
  rw [nameChar, toLower_of_not_isUpper hupper, if_pos hc]

theorem nameChar_of_isSeparator (hc : isSeparator c = true) : nameChar c = '-' := by
  have hseparator : ((c.isUpper || c.isLower) || c.isDigit) = false :=
    (Bool.not_eq_true' _).to_iff.mp hc
  obtain ⟨hletter, hdigit⟩ := Bool.or_eq_false_iff.mp hseparator
  obtain ⟨hupper, hlower⟩ := Bool.or_eq_false_iff.mp hletter
  rw [nameChar, toLower_of_not_isUpper (Bool.eq_false_iff.mp hupper), isNameChar, hlower, hdigit]
  split
  · rename_i hdash
    exact eq_of_beq hdash
  · rfl

theorem Interchangeable.nameChar_eq (h : Interchangeable c d) : nameChar c = nameChar d := by
  cases h with
  | case hcase => rw [nameChar, nameChar, hcase]
  | separators hc hd => rw [nameChar_of_isSeparator hc, nameChar_of_isSeparator hd]

/-- What a text is normalized to depends on what is left of its fit characters between the dashes
at the ends. -/
theorem normalize_congr
    (hkept : Text.trimBoth (· == '-') (text.toList.map nameChar) =
      Text.trimBoth (· == '-') (other.toList.map nameChar)) :
    normalize text = normalize other := by
  rw [normalize, normalize, hkept]

/-- A valid name is normalized to itself. -/
theorem normalize_of_validName (h : ValidName name) : normalize name = name := by
  have hchars : name.toList.map nameChar = name.toList :=
    (List.map_congr_left fun c hc => nameChar_of_isNameChar (h.chars c hc)).trans
      (List.map_id name.toList)
  have hnotDash {found : Option Char} (hfound : found ≠ some '-') (c : Char)
      (hc : found = some c) : (c == '-') = false :=
    beq_eq_false_iff_ne.mpr fun hdash => hfound (hdash ▸ hc)
  have hkept : Text.trimBoth (· == '-') name.toList = name.toList :=
    Text.trimBoth_eq_self (hnotDash h.first) (hnotDash h.last)
  have hnonempty : name.toList.isEmpty = false := List.isEmpty_eq_false_iff.mpr h.nonempty
  rw [normalize, hchars, hkept]
  simp [hnonempty]

theorem normalize_eq_self_iff : normalize text = text ↔ ValidName text :=
  ⟨fun hself => hself ▸ validName_normalize text, normalize_of_validName⟩

/-- Characters that make no difference may take each other's place. -/
theorem map_nameChar_of_interchangeable {chars others : List Char}
    (h : List.Forall₂ Interchangeable chars others) : others.map nameChar = chars.map nameChar := by
  induction h with
  | nil => rfl
  | cons hfirst _ ih => rw [List.map_cons, List.map_cons, hfirst.nameChar_eq, ih]

/-- Characters that separate words make no difference at the ends. -/
theorem trimBoth_map_nameChar {chars first last : List Char}
    (hfirst : ∀ c ∈ first, isSeparator c = true) (hlast : ∀ c ∈ last, isSeparator c = true) :
    Text.trimBoth (· == '-') ((first ++ chars ++ last).map nameChar) =
      Text.trimBoth (· == '-') (chars.map nameChar) := by
  have hdashes {separators : List Char} (hall : ∀ c ∈ separators, isSeparator c = true) :
      ∀ c ∈ separators.map nameChar, (c == '-') = true := by
    intro c hc
    obtain ⟨separator, hmem, rfl⟩ := List.mem_map.mp hc
    rw [nameChar_of_isSeparator (hall separator hmem)]
    rfl
  rw [List.map_append, List.map_append, Text.trimBoth_append (hdashes hfirst) (hdashes hlast)]

/-- Normalization is a retraction onto the valid names: it gives a valid name for every text and
leaves the valid names, and no other texts, as they are, so that normalizing again changes nothing.
It takes no notice of the case of ASCII letters, of which characters other than ASCII letters and
digits stand between them, or of such characters at either end. -/
theorem normalize_retraction (text : String) :
    ValidName (normalize text) ∧ (normalize text = text ↔ ValidName text) ∧
      normalize (normalize text) = normalize text ∧
      ∀ before other after : String, List.Forall₂ Interchangeable text.toList other.toList →
        (∀ c ∈ before.toList, isSeparator c = true) →
        (∀ c ∈ after.toList, isSeparator c = true) →
        normalize (before ++ other ++ after) = normalize text := by
  refine ⟨validName_normalize text, normalize_eq_self_iff,
    normalize_of_validName (validName_normalize text), ?_⟩
  intro before other after hother hbefore hafter
  apply normalize_congr
  rw [String.toList_append, String.toList_append, trimBoth_map_nameChar hbefore hafter,
    map_nameChar_of_interchangeable hother]

/-- Capitals, another separator, and underscores and a letter beyond ASCII at the ends make no
difference. -/
theorem normalize_retraction_marked :
    normalize "__A-Bé! " = normalize "a b" ∧ ValidName (normalize "a b") ∧
      normalize "a b" ≠ "a b" := by
  obtain ⟨hvalid, hself, -, hsame⟩ := normalize_retraction "a b"
  refine ⟨hsame "__" "A-B" "é! " ?_ (List.all_eq_true.mp rfl)
    (List.all_eq_true.mp rfl), hvalid, ?_⟩
  · exact .cons (.case rfl) (.cons (.separators rfl rfl) (.cons (.case rfl) .nil))
  · rw [Ne, hself]
    decide

end

end Dataflow
