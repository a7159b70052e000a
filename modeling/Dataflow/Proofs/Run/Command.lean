/-
# Results of commands

What a command wrote is read from its last line that is not blank, so lines before it and blanks
around it make no difference. Whatever is wrong with this line is an error of the backend at the
component that the command was run for. A value that is written on the last line, as the member
`output` of an object, is the result.
-/

import Dataflow.Proofs.Text.Blank
import Dataflow.Proofs.Value.Text
import Dataflow.Run.Command

namespace Dataflow

open Text

/-- A line with no blanks at its ends is its own last line. -/
theorem Text.IsLastLine.self {text line : String} (h : IsLastLine text line) :
    IsLastLine line line :=
  { h with stands := ⟨"", "", "", by simp, .inl rfl, rfl, rfl⟩ }

namespace Json

/-- An object is written as a line with no blanks at its ends. -/
theorem isLastLine_compact {members : Named Json} {before after : String}
    (hbefore : EndsLine before) (hafter : isBlankText after = true) :
    IsLastLine (before ++ (object members).compact ++ after) (object members).compact := by
  obtain ⟨members⟩ := members
  have hchars := toList_compact_object members
  refine ⟨⟨before, "", after, by simp, hbefore, rfl, hafter⟩, newline_not_mem_compact _, ?_, ?_⟩
  · rw [trim, hchars, trimBoth_eq_self, ← hchars, String.ofList_toList]
    · intro c hfirst
      cases hfirst
      decide
    · intro c hlast
      rw [List.getLast?_append_of_ne_nil _ (List.cons_ne_nil _ _)] at hlast
      cases hlast
      decide
  · intro hempty
    rw [hempty] at hchars
    cases hchars

end Json

/-- The object that a command gives a value with. -/
def Value.reply (v : Value) : Json := .object ⟨[("output", v.toJson)]⟩

/-- A reply is read back from its text, if it does not nest too deep and the floats of the value are
read back where they stand alone. -/
theorem Value.read?_reply {v : Value} (hformed : v.WellFormed)
    (hdepth : v.toJson.nesting < Json.usualDepth)
    (hfloats : ∀ x ∈ v.floats, Json.read? (Json.float x).compact = some (.float x)) :
    Json.read? v.reply.compact = some v.reply := by
  have hnumbers : ∀ number ∈ v.reply.numbers, number.ReadsAlone := by
    intro number hnumber
    rw [reply, Json.numbers, Json.mem_numbersOfMembers] at hnumber
    obtain ⟨member, hmember, hmem⟩ := hnumber
    rw [List.mem_singleton.mp hmember] at hmem
    exact readsAlone_of_mem_numbers hfloats number hmem
  have hnesting : v.reply.nesting ≤ Json.usualDepth := by
    have heq : v.reply.nesting = max v.toJson.nesting 0 + 1 := rfl
    omega
  have hmerged : v.reply.merged = v.reply := by
    rw [reply, Json.merged, Json.mergedMembers, v.merged_toJson hformed]
    rfl
  rw [Json.read?_compact hnumbers hnesting, hmerged]

section

variable {component text line : String}

theorem readOutput_of_blank (hblank : isBlankText text = true) :
    readOutput component text = .error (.backend component .noOutput) := by
  rw [readOutput, lastLine?_eq_none_iff.mpr hblank]

theorem readOutput_congr {other : String} (hline : lastLine? text = lastLine? other) :
    readOutput component text = readOutput component other := by
  rw [readOutput, readOutput, hline]

/-- Reading what a command wrote fails with errors of the backend at the component alone. -/
theorem exists_backend_of_readOutput {fault : GraphError}
    (herror : readOutput component text = .error fault) :
    ∃ cause, fault = .backend component cause := by
  unfold readOutput at herror
  split at herror
  · exact ⟨_, (Except.error.inj herror).symm⟩
  · split at herror
    · exact ⟨_, (Except.error.inj herror).symm⟩
    · split at herror
      · exact ⟨_, (Except.error.inj herror).symm⟩
      · rename_i result _
        cases hvalue : Value.ofJson result with
        | ok v => simp [hvalue, Except.mapError] at herror
        | error violation =>
          rw [hvalue] at herror
          exact ⟨_, (Except.error.inj herror).symm⟩

/-- A value is read back from what is written to give it, if that is read back as a tree. -/
theorem readOutput_of_reply {v : Value} (hformed : v.WellFormed)
    (hfinite : ∀ x ∈ v.floats, x.isFinite = true)
    (hread : Json.read? v.reply.compact = some v.reply)
    (hline : lastLine? text = some v.reply.compact) : readOutput component text = .ok v := by
  obtain ⟨hvalue, -⟩ := (v.json_reads_back hformed).1 hfinite
  have hmember : v.reply.member? "output" = some v.toJson := rfl
  simp only [readOutput, hline, hread, hmember, hvalue]
  rfl

end

/-- What a command wrote is read from the last of its lines that is not blank: no other lines before
it make a difference, nor do blanks around it. Without such a line, and whatever else is wrong, the
error is one of the backend at the component. A value with finite floats that is given on the last
line is the result, if the text of JSON that it is given with is read back as what was written. -/
theorem readOutput_reads_last_line (component : String) :
    (∀ text, isBlankText text = true →
      readOutput component text = .error (.backend component .noOutput)) ∧
    (∀ text, isBlankText text = false → ∃ line, IsLastLine text line ∧
      readOutput component text = readOutput component line) ∧
    (∀ text before indent after, isBlankText text = false → EndsLine before →
      isBlankText indent = true → isBlankText after = true →
        readOutput component (before ++ indent ++ text ++ after) = readOutput component text) ∧
    (∀ text fault, readOutput component text = .error fault →
      ∃ cause, fault = .backend component cause) ∧
    ∀ (v : Value) (before after : String), v.WellFormed → (∀ x ∈ v.floats, x.isFinite = true) →
      Json.read? v.reply.compact = some v.reply → EndsLine before → isBlankText after = true →
        '\n' ∉ v.reply.compact.toList ∧
          readOutput component (before ++ v.reply.compact ++ after) = .ok v := by
  refine ⟨fun _ => readOutput_of_blank, ?_, ?_, fun _ _ => exists_backend_of_readOutput, ?_⟩
  · intro text htext
    cases hlast : lastLine? text with
    | none => cases htext.symm.trans (lastLine?_eq_none_iff.mp hlast)
    | some line =>
      have hline := lastLine?_eq_some_iff.mp hlast
      exact ⟨line, hline, readOutput_congr (hlast.trans hline.self.lastLine?.symm)⟩
  · intro text before indent after htext hbefore hindent hafter
    have hindented : isBlankText (indent ++ text) = false := by
      rw [isBlankText_append, htext, Bool.and_false]
    apply readOutput_congr
    rw [lastLine?_append_blank hafter, String.append_assoc,
      lastLine?_append_of_endsLine hbefore hindented, lastLine?_blank_append hindent]
  · intro v before after hformed hfinite hread hbefore hafter
    have hline : IsLastLine (before ++ v.reply.compact ++ after) v.reply.compact :=
      Json.isLastLine_compact hbefore hafter
    exact ⟨hline.newline, readOutput_of_reply hformed hfinite hread hline.lastLine?⟩

namespace Probe

/-- A value with a newline in a text, numbers of both kinds, and records of both kinds. -/
def measured : Value :=
  .record ⟨[("station", .string "upper\nridge"), ("level", .float (.ofBits 0x3ff8000000000000)),
    ("counts", .tuple [.integer 3, .integer (-1)])]⟩

end Probe

/-- The value is read back after other lines and before blank ones; without its line, and with one
that is no object, there is an error at the component. -/
theorem readOutput_reads_last_line_measured :
    readOutput "probe" ("starting\n[]\n" ++ Probe.measured.reply.compact ++ "\n \t\n") =
        .ok Probe.measured ∧
      readOutput "probe" "\n \n" = .error (.backend "probe" .noOutput) ∧
      ∃ cause, readOutput "probe" "starting\n" = .error (.backend "probe" cause) := by
  obtain ⟨hblank, -, -, hfails, hgives⟩ := readOutput_reads_last_line "probe"
  have hread : Json.read? Probe.measured.reply.compact = some Probe.measured.reply :=
    Value.read?_reply (by decide) (by decide) (by decide +kernel)
  have hlines : EndsLine "starting\n[]\n" := .inr ⟨"starting\n[]", rfl⟩
  refine ⟨(hgives _ _ _ (by decide) (by decide) hread hlines (by decide)).2,
    hblank _ (by decide), ?_⟩
  cases hresult : readOutput "probe" "starting\n" with
  | ok v => cases hresult
  | error fault =>
    obtain ⟨cause, rfl⟩ := hfails _ fault hresult
    exact ⟨cause, rfl⟩

end Dataflow
