/-
# Trimmed text and lines

Trimming takes away what can be trimmed at the ends, and leaves characters that have nothing to
trim there. The last line of a text that is not blank is the one that has only blanks after it: it
stays the same whatever lines are put before the text and whatever blanks around it, and each text
has one unless it is blank throughout.
-/

import Dataflow.Text.Blank
import Mathlib.Data.List.DropRight

namespace Dataflow.Text

section Trimming

variable {test : Char → Bool} {chars before after : List Char} {c : Char}

theorem test_head?_dropWhile (hhead : (chars.dropWhile test).head? = some c) : test c = false := by
  have hnot := List.head?_dropWhile_not test chars
  rwa [hhead] at hnot

theorem trimEnd_eq_rdropWhile : trimEnd test chars = chars.rdropWhile test := rfl

/-- Around what is left by trimming stands only what can be trimmed. -/
theorem exists_eq_trimBoth (test : Char → Bool) (chars : List Char) :
    ∃ before after, chars = before ++ trimBoth test chars ++ after ∧
      (∀ c ∈ before, test c = true) ∧ ∀ c ∈ after, test c = true := by
  refine ⟨chars.takeWhile test, (trimStart test chars).rtakeWhile test, ?_, ?_, ?_⟩
  · rw [List.append_assoc, trimBoth, trimEnd_eq_rdropWhile, List.rdropWhile_append_rtakeWhile,
      trimStart, List.takeWhile_append_dropWhile]
  · exact fun c => List.mem_takeWhile_imp
  · exact fun c => List.mem_rtakeWhile_imp

theorem trimBoth_subset (test : Char → Bool) (chars : List Char) :
    trimBoth test chars ⊆ chars := fun _ hmem =>
  (List.dropWhile_suffix test).subset ((List.rdropWhile_prefix test _).subset hmem)

theorem test_head?_trimBoth (hhead : (trimBoth test chars).head? = some c) : test c = false := by
  obtain ⟨rest, hrest⟩ := List.rdropWhile_prefix test (trimStart test chars)
  have hstart : (trimStart test chars).head? = some c := by
    rw [← hrest, List.head?_append]
    rw [trimBoth, trimEnd_eq_rdropWhile] at hhead
    rw [hhead]
    rfl
  exact test_head?_dropWhile hstart

theorem test_getLast?_trimBoth (hlast : (trimBoth test chars).getLast? = some c) :
    test c = false := by
  rw [trimBoth, trimEnd, List.getLast?_reverse] at hlast
  exact test_head?_dropWhile hlast

theorem trimBoth_eq_nil_iff : trimBoth test chars = [] ↔ ∀ c ∈ chars, test c = true := by
  rw [trimBoth, trimEnd_eq_rdropWhile, List.rdropWhile_eq_nil_iff]
  constructor
  · intro hrest c hc
    rw [← List.takeWhile_append_dropWhile (p := test) (l := chars), List.mem_append] at hc
    exact hc.elim List.mem_takeWhile_imp (hrest c)
  · exact fun hall c hc => hall c ((List.dropWhile_suffix test).subset hc)

theorem trimEnd_append (hafter : ∀ c ∈ after, test c = true) :
    trimEnd test (chars ++ after) = trimEnd test chars := by
  rw [trimEnd, trimEnd, List.reverse_append, List.dropWhile_append_of_pos]
  exact fun c hc => hafter c (List.mem_reverse.mp hc)

/-- What can be trimmed makes no difference around other characters. -/
theorem trimBoth_append (hbefore : ∀ c ∈ before, test c = true)
    (hafter : ∀ c ∈ after, test c = true) :
    trimBoth test (before ++ chars ++ after) = trimBoth test chars := by
  rw [trimBoth, trimBoth, trimStart, trimStart, List.append_assoc,
    List.dropWhile_append_of_pos hbefore, List.dropWhile_append]
  by_cases hempty : (chars.dropWhile test).isEmpty = true
  · rw [if_pos hempty, List.isEmpty_iff.mp hempty, List.dropWhile_eq_nil_iff.mpr hafter]
  · rw [if_neg hempty, trimEnd_append hafter]

/-- Characters that have nothing to trim at their ends are left as they are. -/
theorem trimBoth_eq_self (hfirst : ∀ c, chars.head? = some c → test c = false)
    (hlast : ∀ c, chars.getLast? = some c → test c = false) : trimBoth test chars = chars := by
  have hstart : trimStart test chars = chars := by
    cases chars with
    | nil => rfl
    | cons c rest => exact List.dropWhile_cons_of_neg (Bool.eq_false_iff.mp (hfirst c rfl))
  rw [trimBoth, hstart, trimEnd_eq_rdropWhile, List.rdropWhile_eq_self_iff]
  exact fun hne => Bool.eq_false_iff.mp (hlast _ (List.getLast?_eq_some_getLast hne))

theorem trimBoth_trimBoth (test : Char → Bool) (chars : List Char) :
    trimBoth test (trimBoth test chars) = trimBoth test chars :=
  trimBoth_eq_self (fun _ => test_head?_trimBoth) fun _ => test_getLast?_trimBoth

end Trimming

section Blanks

variable {text line before after : String}

theorem isBlankText_iff : isBlankText text = true ↔ ∀ c ∈ text.toList, isBlank c = true :=
  List.all_eq_true

theorem isBlankText_append :
    isBlankText (before ++ after) = (isBlankText before && isBlankText after) := by
  rw [isBlankText, String.toList_append, List.all_append]
  rfl

theorem trim_eq_empty_iff : trim text = "" ↔ isBlankText text = true := by
  rw [isBlankText_iff, ← trimBoth_eq_nil_iff, trim, String.ofList_eq_empty_iff]

theorem trim_append (hbefore : isBlankText before = true) (hafter : isBlankText after = true) :
    trim (before ++ text ++ after) = trim text := by
  rw [trim, trim, String.toList_append, String.toList_append,
    trimBoth_append (isBlankText_iff.mp hbefore) (isBlankText_iff.mp hafter)]

theorem trim_trim (text : String) : trim (trim text) = trim text := by
  rw [trim, trim, String.toList_ofList, trimBoth_trimBoth]

/-- Around a trimmed text there are only blanks. -/
theorem exists_eq_trim (text : String) : ∃ before after, text = before ++ trim text ++ after ∧
    isBlankText before = true ∧ isBlankText after = true := by
  obtain ⟨before, after, htext, hbefore, hafter⟩ := exists_eq_trimBoth isBlank text.toList
  refine ⟨.ofList before, .ofList after, ?_, ?_, ?_⟩
  · rw [← String.toList_inj, String.toList_append, String.toList_append, String.toList_ofList,
      String.toList_ofList, trim, String.toList_ofList, ← htext]
  · rw [isBlankText_iff, String.toList_ofList]
    exact hbefore
  · rw [isBlankText_iff, String.toList_ofList]
    exact hafter

end Blanks

section Lines

variable {α : Type} {text line earlier before after : String}

theorem splitAt_eq_splitOnP (test : α → Bool) (members : List α) :
    splitAt test members = members.splitOnP test := by
  induction members with
  | nil => rfl
  | cons a rest ih =>
    rw [splitAt, ih, List.splitOnP_cons_eq_if_modifyHead]
    obtain ⟨piece, pieces, hpieces⟩ :=
      List.exists_cons_of_ne_nil (List.splitOnP_ne_nil test rest)
    rw [hpieces]
    rfl

theorem toList_newline (earlier rest : String) :
    (earlier ++ "\n" ++ rest).toList = earlier.toList ++ '\n' :: rest.toList := by
  rw [String.toList_append, String.toList_append, List.append_assoc]
  rfl

theorem lines_append (earlier rest : String) :
    lines (earlier ++ "\n" ++ rest) = lines earlier ++ lines rest := by
  rw [lines, lines, lines, toList_newline, splitAt_eq_splitOnP, splitAt_eq_splitOnP,
    splitAt_eq_splitOnP, List.splitOnP_append_cons (p := fun c => c == '\n') _ _ rfl,
    List.map_append]

theorem lines_eq_singleton (hline : '\n' ∉ line.toList) : lines line = [line] := by
  have hnone : ∀ c ∈ line.toList, (c == '\n') = false :=
    fun c hc => beq_eq_false_iff_ne.mpr fun heq => hline (heq ▸ hc)
  rw [lines, splitAt_eq_splitOnP, List.splitOnP_eq_singleton hnone, List.map_singleton,
    String.ofList_toList]

/-- A text is one line, or a text and a line after it. -/
@[elab_as_elim]
theorem induct_lines {motive : String → Prop}
    (single : ∀ line : String, '\n' ∉ line.toList → motive line)
    (append : ∀ earlier line : String, '\n' ∉ line.toList → motive earlier →
      motive (earlier ++ "\n" ++ line)) (text : String) : motive text := by
  induction hlength : text.toList.length using Nat.strong_induction_on generalizing text with
  | h length ih =>
    by_cases hmem : '\n' ∈ text.toList
    · -- The line after the last newline is the first one of the text in reverse.
      obtain ⟨line, earlier, hreverse, hline⟩ :=
        List.eq_append_cons_of_mem (List.mem_reverse.mpr hmem)
      have hchars : text.toList = earlier.reverse ++ '\n' :: line.reverse := by
        rw [← text.toList.reverse_reverse, hreverse, List.reverse_append, List.reverse_cons,
          List.append_assoc]
        rfl
      have htext : text = .ofList earlier.reverse ++ "\n" ++ .ofList line.reverse := by
        rw [← String.toList_inj, hchars, toList_newline, String.toList_ofList,
          String.toList_ofList]
      have hshorter : earlier.reverse.length < length := by
        rw [← hlength, hchars, List.length_append, List.length_cons]
        omega
      rw [htext]
      apply append
      · rw [String.toList_ofList, List.mem_reverse]
        exact hline
      · exact ih _ hshorter _ (congrArg List.length String.toList_ofList)
    · exact single text hmem

theorem lastLine?_append (earlier rest : String) :
    lastLine? (earlier ++ "\n" ++ rest) = (lastLine? rest).or (lastLine? earlier) := by
  rw [lastLine?, lines_append, List.map_append, List.reverse_append, List.find?_append]
  rfl

theorem lastLine?_of_not_mem (hline : '\n' ∉ line.toList) :
    lastLine? line = if isBlankText line = true then none else some (trim line) := by
  rw [lastLine?, lines_eq_singleton hline, List.map_singleton, List.reverse_singleton,
    List.find?_singleton]
  by_cases hblank : isBlankText line = true
  · rw [if_pos hblank, trim_eq_empty_iff.mpr hblank]
    rfl
  · have hne : (trim line).isEmpty = false := by
      rw [Bool.eq_false_iff, Ne, String.isEmpty_iff, trim_eq_empty_iff]
      exact hblank
    rw [if_neg hblank, hne]
    rfl

/-- A text has a last line unless it is blank. -/
theorem lastLine?_eq_none_iff : lastLine? text = none ↔ isBlankText text = true := by
  induction text using induct_lines with
  | single line hline => rw [lastLine?_of_not_mem hline]; simp
  | append earlier line hline ih =>
    rw [lastLine?_append, Option.or_eq_none_iff, ih, lastLine?_of_not_mem hline,
      isBlankText_append, isBlankText_append]
    have hnewline : isBlankText "\n" = true := by decide
    simp [hnewline, and_comm]

/-- Blanks on a line make no difference to it. -/
theorem lastLine?_pad (hline : '\n' ∉ (before ++ line ++ after).toList)
    (hbefore : isBlankText before = true) (hafter : isBlankText after = true) :
    lastLine? (before ++ line ++ after) = lastLine? line := by
  have hinner : '\n' ∉ line.toList := by
    intro hmem
    apply hline
    rw [String.toList_append, String.toList_append]
    exact List.mem_append_left _ (List.mem_append_right _ hmem)
  rw [lastLine?_of_not_mem hline, lastLine?_of_not_mem hinner, trim_append hbefore hafter,
    isBlankText_append, isBlankText_append, hbefore, hafter, Bool.true_and, Bool.and_true]

/-- Blanks after a text make no difference to its last line. -/
theorem lastLine?_append_blank (hafter : isBlankText after = true) :
    lastLine? (text ++ after) = lastLine? text := by
  induction after using induct_lines with
  | single after hnewline =>
    have hpad {line : String} (hline : '\n' ∉ line.toList) :
        lastLine? (line ++ after) = lastLine? line := by
      rw [← String.empty_append (s := line)]
      refine lastLine?_pad ?_ rfl hafter
      simp [hline, hnewline]
    cases text using induct_lines with
    | single line hline => exact hpad hline
    | append earlier line hline _ =>
      rw [String.append_assoc, lastLine?_append, lastLine?_append, hpad hline]
  | append earlier line hline ih =>
    simp only [isBlankText_append, Bool.and_eq_true] at hafter
    rw [← String.append_assoc, ← String.append_assoc, lastLine?_append,
      lastLine?_eq_none_iff.mpr hafter.2, Option.none_or, ih hafter.1.1]

/-- Nor do blanks before it. -/
theorem lastLine?_blank_append (hbefore : isBlankText before = true) :
    lastLine? (before ++ text) = lastLine? text := by
  induction text using induct_lines with
  | single line hline =>
    have hpad {indent : String} (hnewline : '\n' ∉ indent.toList)
        (hindent : isBlankText indent = true) : lastLine? (indent ++ line) = lastLine? line := by
      rw [← String.append_empty (s := indent ++ line)]
      refine lastLine?_pad ?_ hindent rfl
      simp [hline, hnewline]
    cases before using induct_lines with
    | single indent hnewline => exact hpad hnewline hbefore
    | append earlier indent hnewline _ =>
      simp only [isBlankText_append, Bool.and_eq_true] at hbefore
      rw [String.append_assoc, lastLine?_append, hpad hnewline hbefore.2,
        lastLine?_eq_none_iff.mpr hbefore.1.1, Option.or_none]
  | append earlier line hline ih =>
    rw [← String.append_assoc, ← String.append_assoc, lastLine?_append, lastLine?_append, ih]

/-- What comes after a text stands at the start of a line. -/
def EndsLine (text : String) : Prop := text = "" ∨ ∃ earlier, text = earlier ++ "\n"

/-- Lines before a text that is not blank make no difference to its last line. -/
theorem lastLine?_append_of_endsLine (hbefore : EndsLine before)
    (htext : isBlankText text = false) : lastLine? (before ++ text) = lastLine? text := by
  rcases hbefore with rfl | ⟨earlier, rfl⟩
  · rw [String.empty_append]
  · cases hline : lastLine? text with
    | none => cases htext.symm.trans (lastLine?_eq_none_iff.mp hline)
    | some line => rw [lastLine?_append, hline, Option.some_or]

/-- A line without blanks at its ends is the last one of a text that is not blank: before it are
other lines and blanks, and after it only blanks. -/
structure IsLastLine (text line : String) : Prop where
  stands : ∃ before indent after, text = before ++ indent ++ line ++ after ∧ EndsLine before ∧
    isBlankText indent = true ∧ isBlankText after = true
  newline : '\n' ∉ line.toList
  trimmed : trim line = line
  nonempty : line ≠ ""

theorem IsLastLine.lastLine? (h : IsLastLine text line) : lastLine? text = some line := by
  obtain ⟨before, indent, after, rfl, hbefore, hindent, hafter⟩ := h.stands
  have hblank : isBlankText line = false := by
    rw [Bool.eq_false_iff, Ne, ← trim_eq_empty_iff, h.trimmed]
    exact h.nonempty
  have hindented : isBlankText (indent ++ line) = false := by
    rw [isBlankText_append, hblank, Bool.and_false]
  rw [lastLine?_append_blank hafter, String.append_assoc,
    lastLine?_append_of_endsLine hbefore hindented, lastLine?_blank_append hindent,
    lastLine?_of_not_mem h.newline, hblank, h.trimmed]
  rfl

/-- What trimming leaves of a line that is not blank is its last line. -/
theorem isLastLine_trim (hline : '\n' ∉ line.toList) (hblank : isBlankText line = false) :
    IsLastLine line (trim line) := by
  obtain ⟨indent, after, heq, hindent, hafter⟩ := exists_eq_trim line
  refine ⟨⟨"", indent, after, ?_, .inl rfl, hindent, hafter⟩, ?_, trim_trim line, ?_⟩
  · rw [String.empty_append]
    exact heq
  · intro hmem
    rw [trim, String.toList_ofList] at hmem
    exact hline (trimBoth_subset _ _ hmem)
  · rw [Ne, trim_eq_empty_iff, hblank]
    exact Bool.false_ne_true

/-- The last line is found, and nothing else is found for it. -/
theorem lastLine?_eq_some_iff : lastLine? text = some line ↔ IsLastLine text line := by
  refine ⟨fun hfound => ?_, IsLastLine.lastLine?⟩
  induction text using induct_lines with
  | single raw hraw =>
    rw [lastLine?_of_not_mem hraw] at hfound
    split at hfound
    · cases hfound
    · rename_i hblank
      exact Option.some.inj hfound ▸ isLastLine_trim hraw (Bool.eq_false_iff.mpr hblank)
  | append earlier raw hraw ih =>
    rw [lastLine?_append] at hfound
    cases hblank : isBlankText raw with
    | true =>
      rw [lastLine?_eq_none_iff.mpr hblank, Option.none_or] at hfound
      have hearlier := ih hfound
      obtain ⟨before, indent, after, rfl, hbefore, hindent, hafter⟩ := hearlier.stands
      have hrest : isBlankText (after ++ "\n" ++ raw) = true := by
        rw [isBlankText_append, isBlankText_append, hafter, hblank]
        rfl
      exact { hearlier with
        stands := ⟨before, indent, _, by simp only [String.append_assoc], hbefore, hindent, hrest⟩ }
    | false =>
      have hlast := isLastLine_trim hraw hblank
      rw [hlast.lastLine?, Option.some_or] at hfound
      obtain rfl := Option.some.inj hfound
      obtain ⟨indent, after, heq, hindent, hafter⟩ := exists_eq_trim raw
      have hstands : earlier ++ "\n" ++ raw = earlier ++ "\n" ++ indent ++ trim raw ++ after := by
        conv_lhs => rw [heq]
        simp only [String.append_assoc]
      exact { hlast with
        stands := ⟨_, indent, after, hstands, .inr ⟨earlier, rfl⟩, hindent, hafter⟩ }

end Lines

end Dataflow.Text
