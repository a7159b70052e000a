/-
# Conversion of texts to integers

A text converts to the integer that it denotes when the blanks at its ends are trimmed. If it
denotes none, or none of 64 bits, the conversion fails. The text that an integer converts to
denotes it, with no blanks in it, so every integer is read back from its text, with any blanks
around it.
-/

import Dataflow.Proofs.Decimal.Reader
import Dataflow.Proofs.Operator.Overloads
import Dataflow.Proofs.Text.Blank

namespace Dataflow

/-- Trimming leaves the text of an integer as it is. -/
theorem trim_integerText (i : Int64) : Text.trim (integerText i) = integerText i := by
  have hchars := (Decimal.denotes_integerText i).isBlank_eq_false
  have htrim : Text.trimBoth Text.isBlank (integerText i).toList = (integerText i).toList :=
    Text.trimBoth_eq_self (fun c hc => hchars c (List.mem_of_head? hc))
      fun c hc => hchars c (List.mem_of_getLast? hc)
  rw [Text.trim, htrim, String.ofList_toList]

namespace Builtin

variable {s : String} {i : Int64}

/-- The operator computes the text of an integer. -/
theorem computes_integerText (i : Int64) :
    registry.Computes .toString [.integer i] (.ok (.string (integerText i))) :=
  .of_find rfl rfl

/-- The operator computes with the conversion of texts on a text. -/
theorem computes_textToInteger (s : String) :
    registry.Computes .toInteger [.string s] (textToInteger [.string s]) :=
  .of_find rfl rfl

/-- The conversion of a text gives the integer that the text denotes, blanks at its ends aside. -/
theorem textToInteger_eq_ok_iff :
    textToInteger [.string s] = .ok (.integer i) ↔
      Decimal.Denotes (Text.trim s).toList i.toInt := by
  rw [textToInteger_string, ← Decimal.readInt64_eq_ok_iff]
  cases Decimal.readInt64 (Text.trim s).toList <;> simp

/-- A text that denotes no integer of 64 bits does not convert. -/
theorem exists_textToInteger_eq_error
    (hnone : ∀ i : Int64, ¬ Decimal.Denotes (Text.trim s).toList i.toInt) :
    ∃ fault, textToInteger [.string s] = .error (.notAnInteger s fault) := by
  rw [textToInteger_string]
  cases hread : Decimal.readInt64 (Text.trim s).toList with
  | ok i => exact absurd (Decimal.readInt64_eq_ok_iff.mp hread) (hnone i)
  | error fault => exact ⟨fault, rfl⟩

/-- Every integer is read back from its text, whatever blanks are put around it. A text converts to
an integer if and only if what is left of it without the blanks at its ends denotes that integer:
an optional sign and one or more digits. Every other text fails to convert. -/
theorem toInteger_reads_numerals :
    (∀ (i : Int64) (before after : String), Text.isBlankText before = true →
      Text.isBlankText after = true →
      ∃ text, registry.Computes .toString [.integer i] (.ok (.string text)) ∧
        registry.Computes .toInteger [.string (before ++ text ++ after)] (.ok (.integer i))) ∧
    ∀ s : String,
      (∀ i, registry.Computes .toInteger [.string s] (.ok (.integer i)) ↔
        Decimal.Denotes (Text.trim s).toList i.toInt) ∧
      ((∀ i : Int64, ¬ Decimal.Denotes (Text.trim s).toList i.toInt) →
        ∃ fault, registry.Computes .toInteger [.string s] (.error (.notAnInteger s fault))) := by
  refine ⟨fun i before after hbefore hafter => ?_, fun s => ⟨fun i => ?_, fun hnone => ?_⟩⟩
  · refine ⟨integerText i, computes_integerText i, ?_⟩
    have hread : textToInteger [.string (before ++ integerText i ++ after)] = .ok (.integer i) := by
      rw [textToInteger_eq_ok_iff, Text.trim_append hbefore hafter, trim_integerText]
      exact Decimal.denotes_integerText i
    exact hread ▸ computes_textToInteger _
  · rw [← textToInteger_eq_ok_iff]
    exact ⟨fun hcomputes => (computes_textToInteger s).unique hcomputes,
      fun hread => hread ▸ computes_textToInteger s⟩
  · obtain ⟨fault, hread⟩ := exists_textToInteger_eq_error hnone
    exact ⟨fault, hread ▸ computes_textToInteger s⟩

/-- The least integer is read back with wide blanks around it. A plus and leading zeros are read,
and one more than the greatest integer is not. -/
theorem toInteger_reads_numerals_edges :
    (∃ text, registry.Computes .toString [.integer Int64.minValue] (.ok (.string text)) ∧
      registry.Computes .toInteger [.string ("\t" ++ text ++ "\u2003\n")]
        (.ok (.integer Int64.minValue))) ∧
    registry.Computes .toInteger [.string " +007"] (.ok (.integer 7)) ∧
    ∃ fault, registry.Computes .toInteger [.string "9223372036854775808"]
      (.error (.notAnInteger "9223372036854775808" fault)) := by
  obtain ⟨hback, hreads⟩ := toInteger_reads_numerals
  refine ⟨hback Int64.minValue "\t" "\u2003\n" (by decide) (by decide), ?_, ?_⟩
  · have htrim : (Text.trim " +007").toList = ['+', '0', '0', '7'] := by decide +kernel
    rw [(hreads " +007").1, htrim]
    exact .plus ⟨List.cons_ne_nil _ _, List.all_eq_true.mp rfl⟩
  · refine (hreads "9223372036854775808").2 fun i hdenotes => ?_
    have htrim : (Text.trim "9223372036854775808").toList = "9223372036854775808".toList := by
      decide +kernel
    have hvalue : Nat.ofDigitChars 10 "9223372036854775808".toList 0 = 9223372036854775808 := by
      decide +kernel
    rw [htrim, Decimal.denotes_unsigned_iff (by decide) (by decide), hvalue] at hdenotes
    have hfits := fitsInt64_iff.mp (fitsInt64_toInt i)
    omega

end Builtin

end Dataflow
