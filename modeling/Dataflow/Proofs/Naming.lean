/-
# Valid node names

A node name is valid if it is not empty, holds only lower-case ASCII letters, digits and
dashes, and has no dash at either end. Whatever text a name is normalized from and whatever
random digits are added to it, the result is valid. A valid name holds no slash, so the
names along a path can be read off the path.
-/

import Dataflow.Naming
import Dataflow.Proofs.Text.Blank

namespace Dataflow

/-- A node name is not empty, holds only name characters, and has no dash at either end. -/
structure ValidName (name : String) : Prop where
  nonempty : name.toList ≠ []
  chars : ∀ c ∈ name.toList, isNameChar c = true
  first : name.toList.head? ≠ some '-'
  last : name.toList.getLast? ≠ some '-'

instance (name : String) : Decidable (ValidName name) :=
  decidable_of_iff
    (name.toList ≠ [] ∧ name.toList.all isNameChar = true ∧
      name.toList.head? ≠ some '-' ∧ name.toList.getLast? ≠ some '-')
    ⟨fun h => ⟨h.1, List.all_eq_true.mp h.2.1, h.2.2.1, h.2.2.2⟩,
      fun h => ⟨h.nonempty, List.all_eq_true.mpr h.chars, h.first, h.last⟩⟩

theorem isNameChar_nameChar (c : Char) : isNameChar (nameChar c) = true := by
  unfold nameChar
  split
  · assumption
  · decide

/-- Every text is normalized to a valid name. -/
theorem validName_normalize (text : String) : ValidName (normalize text) := by
  unfold normalize
  simp only
  split
  · decide
  · rename_i hkept
    constructor
    · rw [String.toList_ofList]
      exact fun hempty => hkept (List.isEmpty_iff.mpr hempty)
    · intro c hc
      rw [String.toList_ofList] at hc
      obtain ⟨other, -, rfl⟩ := List.mem_map.mp (Text.trimBoth_subset _ _ hc)
      exact isNameChar_nameChar other
    · rw [String.toList_ofList]
      intro hhead
      cases Text.test_head?_trimBoth hhead
    · rw [String.toList_ofList]
      intro hlast
      cases Text.test_getLast?_trimBoth hlast

theorem isNameChar_digitChar {digit : Nat} (hdigit : digit < 16) :
    isNameChar digit.digitChar = true ∧ digit.digitChar ≠ '-' := by
  have hall : ∀ digit < 16, isNameChar (Nat.digitChar digit) = true ∧ Nat.digitChar digit ≠ '-' := by
    decide
  exact hall digit hdigit

theorem isNameChar_byteDigits {byte : UInt8} {c : Char} (hc : c ∈ byteDigits byte) :
    isNameChar c = true ∧ c ≠ '-' := by
  have hbyte := byte.toNat_lt
  simp only [byteDigits, List.mem_cons, List.not_mem_nil, or_false] at hc
  rcases hc with rfl | rfl
  · exact isNameChar_digitChar (by omega)
  · exact isNameChar_digitChar (by omega)

/-- A valid name stays valid when a dash and further characters that are no dashes are put
after it. -/
theorem ValidName.append_digits {name digits : String} (h : ValidName name)
    (hnonempty : digits.toList ≠ [])
    (hdigits : ∀ c ∈ digits.toList, isNameChar c = true ∧ c ≠ '-') :
    ValidName (name ++ "-" ++ digits) := by
  have hchars : (name ++ "-" ++ digits).toList = name.toList ++ '-' :: digits.toList := by
    rw [String.toList_append, String.toList_append, List.append_assoc]
    rfl
  constructor
  · rw [hchars]
    exact List.append_ne_nil_of_left_ne_nil h.nonempty _
  · intro c hc
    rw [hchars, List.mem_append, List.mem_cons] at hc
    rcases hc with hname | rfl | hdigit
    · exact h.chars c hname
    · decide
    · exact (hdigits c hdigit).1
  · rw [hchars, List.head?_append_of_ne_nil _ h.nonempty]
    exact h.first
  · rw [hchars, List.getLast?_append_of_ne_nil _ (List.cons_ne_nil _ _)]
    intro hlast
    rw [List.getLast?_cons_of_ne_nil hnonempty] at hlast
    exact (hdigits '-' (List.mem_of_getLast? hlast)).2 rfl

namespace Entropy

theorem isNameChar_suffix {entropy : Entropy} {length : Nat} {c : Char}
    (hc : c ∈ (entropy.suffix length).1.toList) : isNameChar c = true ∧ c ≠ '-' := by
  unfold suffix at hc
  rw [String.toList_ofList] at hc
  obtain ⟨byte, -, hdigit⟩ := List.mem_flatMap.mp (List.mem_of_mem_take hc)
  exact isNameChar_byteDigits hdigit

theorem length_flatMap_byteDigits (bytes : List UInt8) :
    (bytes.flatMap byteDigits).length = 2 * bytes.length := by
  induction bytes with
  | nil => rfl
  | cons byte rest ih =>
    rw [List.flatMap_cons, List.length_append, ih, List.length_cons, byteDigits]
    simp only [List.length_cons, List.length_nil]
    omega

theorem length_suffix (entropy : Entropy) (length : Nat) :
    (entropy.suffix length).1.toList.length = length := by
  unfold suffix take
  rw [String.toList_ofList, List.length_take, length_flatMap_byteDigits, List.length_map,
    List.length_range]
  omega

/-- Every generated name is valid. -/
theorem validName_generateName (entropy : Entropy) (base : String) (length : Nat) :
    ValidName (entropy.generateName base length).1 := by
  unfold generateName
  split
  · exact validName_normalize base
  · rename_i hlength
    apply (validName_normalize base).append_digits
    · intro hempty
      have hsize := length_suffix entropy length
      rw [hempty] at hsize
      exact hlength hsize.symm
    · exact fun c hc => isNameChar_suffix hc

end Entropy

theorem ValidName.not_mem_slash {name : String} (h : ValidName name) : '/' ∉ name.toList := by
  intro hmem
  cases h.chars '/' hmem

end Dataflow
