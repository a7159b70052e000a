/-
# The characters of written JSON

Numbers are written in characters that can stand in a number, and strings have their controls
escaped. So the compact text of a tree has no control character in it: it is one line, whatever
newlines are in the strings of the tree.
-/

import Dataflow.Json.Token
import Dataflow.Json.Writer
import Dataflow.Proofs.Binary64
import Dataflow.Proofs.Decimal.Reader

namespace Dataflow

namespace Decimal

variable {property : Char → Prop} {digits : List Char} {suffix mark : String}

/-- What holds of digits, of zero, of the point and of the suffix holds of all characters of a
positional numeral. -/
theorem forall_pointed (hdigits : ∀ c ∈ digits, property c) (hzero : property '0')
    (hpoint : property '.') (hsuffix : ∀ c ∈ suffix.toList, property c) (before : Int) :
    ∀ c ∈ (pointed digits before suffix).toList, property c := by
  have hpadding (count : Nat) : ∀ c ∈ List.replicate count '0', property c :=
    fun c hc => List.eq_of_mem_replicate hc ▸ hzero
  simp only [pointed]
  split
  · have hstart : ∀ c ∈ "0.".toList, property c := by simp [hzero, hpoint]
    simp only [String.toList_append, String.toList_ofList, List.forall_mem_append]
    exact ⟨hstart, hpadding _, hdigits⟩
  · split
    · simp only [String.toList_append, String.toList_ofList, List.forall_mem_append]
      exact ⟨⟨hdigits, hpadding _⟩, hsuffix⟩
    · have hmiddle : ∀ c ∈ ".".toList, property c := by simp [hpoint]
      simp only [String.toList_append, String.toList_ofList, List.forall_mem_append]
      exact ⟨⟨fun c hc => hdigits c (List.mem_of_mem_take hc), hmiddle⟩,
        fun c hc => hdigits c (List.mem_of_mem_drop hc)⟩

/-- What holds of digits, of the point and of the marks of exponents holds of all characters of a
numeral with an exponent. -/
theorem forall_scientific (hdigits : ∀ c ∈ digits, property c) (hpoint : property '.')
    (hmark : ∀ c ∈ mark.toList, property c) (hnegative : ∀ c ∈ "e-".toList, property c)
    {leading : Int} (hexponent : ∀ c ∈ (numeral leading.natAbs).toList, property c) :
    ∀ c ∈ (scientific digits leading mark).toList, property c := by
  have hmantissa : ∀ c ∈ (String.ofList (digits.take 1) ++
      if (digits.drop 1).isEmpty = true then "" else "." ++ .ofList (digits.drop 1)).toList,
        property c := by
    have hmiddle : ∀ c ∈ ".".toList, property c := by simp [hpoint]
    rw [String.toList_append, String.toList_ofList, List.forall_mem_append]
    refine ⟨fun c hc => hdigits c (List.mem_of_mem_take hc), ?_⟩
    split
    · exact nofun
    · rw [String.toList_append, String.toList_ofList, List.forall_mem_append]
      refine ⟨hmiddle, ?_⟩
      rw [String.toList_ofList]
      exact fun c hc => hdigits c (List.mem_of_mem_drop hc)
  simp only [scientific]
  split
  · rw [String.toList_append, String.toList_append, List.forall_mem_append,
      List.forall_mem_append]
    exact ⟨⟨hmantissa, hnegative⟩, hexponent⟩
  · rw [String.toList_append, String.toList_append, List.forall_mem_append,
      List.forall_mem_append]
    exact ⟨⟨hmantissa, hmark⟩, hexponent⟩

/-- The text starts with a digit. -/
def StartsWithDigit (text : String) : Prop :=
  ∃ first rest, text.toList = first :: rest ∧ first.isDigit = true

theorem startsWithDigit_ofList {first : Char} (hfirst : first.isDigit = true) (rest : List Char) :
    StartsWithDigit (String.ofList (first :: rest)) :=
  ⟨first, rest, String.toList_ofList, hfirst⟩

theorem StartsWithDigit.append {text : String} (h : StartsWithDigit text) (more : String) :
    StartsWithDigit (text ++ more) := by
  obtain ⟨first, rest, htext, hfirst⟩ := h
  refine ⟨first, rest ++ more.toList, ?_, hfirst⟩
  rw [String.toList_append, htext, List.cons_append]

/-- A positional numeral starts with a digit. -/
theorem startsWithDigit_pointed {first : Char} (hfirst : first.isDigit = true) (rest : List Char)
    (before : Int) : StartsWithDigit (pointed (first :: rest) before suffix) := by
  simp only [pointed]
  split
  · exact (startsWithDigit_ofList (by decide) ['.']).append _
  · rename_i hpositive
    split
    · rw [List.cons_append]
      exact (startsWithDigit_ofList hfirst _).append _
    · obtain ⟨count, hcount⟩ : ∃ count, before.toNat = count + 1 :=
        ⟨before.toNat - 1, by omega⟩
      rw [hcount, List.take_succ_cons]
      exact ((startsWithDigit_ofList hfirst _).append _).append _

/-- A numeral with an exponent starts with a digit. -/
theorem startsWithDigit_scientific {first : Char} (hfirst : first.isDigit = true)
    (rest : List Char) (leading : Int) :
    StartsWithDigit (scientific (first :: rest) leading mark) := by
  have hmantissa : StartsWithDigit (String.ofList ((first :: rest).take 1)) :=
    startsWithDigit_ofList hfirst _
  simp only [scientific]
  split
  · exact ((hmantissa.append _).append _).append _
  · exact ((hmantissa.append _).append _).append _

end Decimal

namespace Json

/-- The text starts as a number does and goes on with characters of numbers. -/
def IsNumberText (text : String) : Prop :=
  ∃ first rest, text.toList = first :: rest ∧ startsNumber first = true ∧
    ∀ c ∈ rest, isNumberChar c = true

theorem isNumberChar_of_isDigit {c : Char} (hc : c.isDigit = true) : isNumberChar c = true := by
  simp [isNumberChar, hc]

theorem IsNumberText.isNumberChar {text : String} (h : IsNumberText text) :
    ∀ c ∈ text.toList, isNumberChar c = true := by
  obtain ⟨first, rest, htext, hfirst, hrest⟩ := h
  rw [htext, List.forall_mem_cons]
  refine ⟨?_, hrest⟩
  rw [startsNumber, Bool.or_eq_true, beq_iff_eq] at hfirst
  rcases hfirst with hdigit | rfl
  · exact isNumberChar_of_isDigit hdigit
  · rfl

/-- Digits that go on with characters of numbers are a number, and so they are after a sign. -/
theorem isNumberText_signed {text : String} (hstarts : Decimal.StartsWithDigit text)
    (hchars : ∀ c ∈ text.toList, isNumberChar c = true) :
    IsNumberText text ∧ IsNumberText ("-" ++ text) := by
  obtain ⟨first, rest, htext, hfirst⟩ := hstarts
  refine ⟨⟨first, rest, htext, ?_, ?_⟩, '-', text.toList, ?_, rfl, hchars⟩
  · rw [startsNumber, hfirst, Bool.true_or]
  · intro c hc
    exact hchars c (htext ▸ List.mem_cons_of_mem _ hc)
  · rw [String.toList_append]
    rfl

theorem isNumberChar_numeral (n : Nat) : ∀ c ∈ (numeral n).toList, isNumberChar c = true := by
  obtain ⟨first, rest, hdigits, hall⟩ := Decimal.exists_toDigits_eq_cons n
  rw [numeral, String.toList_ofList, hdigits]
  exact fun c hc => isNumberChar_of_isDigit (hall c hc)

theorem isNumberText_integerText (n : Int) : IsNumberText (integerText n) := by
  obtain ⟨first, rest, hdigits, hall⟩ := Decimal.exists_toDigits_eq_cons n.natAbs
  have hstarts : Decimal.StartsWithDigit (numeral n.natAbs) := by
    rw [numeral, hdigits]
    exact Decimal.startsWithDigit_ofList (hall first List.mem_cons_self) rest
  obtain ⟨hplain, hnegative⟩ := isNumberText_signed hstarts (isNumberChar_numeral _)
  rw [integerText]
  split
  · exact hnegative
  · exact hplain

theorem isNumberText_text {x : Binary64} (hfinite : x.isFinite = true) :
    IsNumberText (numberLayout.text x) := by
  have hrender (d : Decimal) : IsNumberText (numberLayout.render d) ∧
      IsNumberText ("-" ++ numberLayout.render d) := by
    obtain ⟨first, rest, hdigits, hall⟩ := Decimal.exists_toDigits_eq_cons d.digits
    have hchars : ∀ c ∈ first :: rest, isNumberChar c = true :=
      fun c hc => isNumberChar_of_isDigit (hall c hc)
    have hfirst : first.isDigit = true := hall first List.mem_cons_self
    simp only [Decimal.Layout.render, numberLayout, hdigits]
    split
    · exact isNumberText_signed (Decimal.startsWithDigit_pointed hfirst rest _)
        (Decimal.forall_pointed hchars (by decide) (by decide) (by simp [isNumberChar]) _)
    · exact isNumberText_signed (Decimal.startsWithDigit_scientific hfirst rest _)
        (Decimal.forall_scientific hchars (by decide) (by simp [isNumberChar])
          (by simp [isNumberChar]) (isNumberChar_numeral _))
  rw [Decimal.Layout.text, Binary64.isNaN_of_isFinite hfinite,
    Binary64.isInfinite_of_isFinite hfinite, if_neg Bool.false_ne_true, if_neg Bool.false_ne_true]
  simp only
  split
  · exact (hrender _).2
  · exact (hrender _).1

/-- A float that is not finite is written as null. -/
theorem text_of_not_isFinite {x : Binary64} (hnot : x.isFinite = false) :
    numberLayout.text x = "null" := by
  have hinfinite : x.isNaN = true ∨ x.isInfinite = true := by
    simp only [Binary64.isFinite, decide_eq_false_iff_not] at hnot
    simp only [Binary64.isNaN, Binary64.isInfinite, decide_eq_true_eq]
    omega
  rw [Decimal.Layout.text]
  rcases hinfinite with hnan | hinfinite
  · rw [if_pos hnan]
    rfl
  · rw [if_pos hinfinite]
    simp [numberLayout]

/-- The characters of numbers are no controls. -/
theorem le_toNat_of_isNumberChar {c : Char} (hc : isNumberChar c = true) : 0x20 ≤ c.toNat := by
  simp only [isNumberChar, Bool.or_eq_true, beq_iff_eq] at hc
  rcases hc with ((((hdigit | rfl) | rfl) | rfl) | rfl) | rfl
  · exact Nat.le_trans (by decide) (Char.isDigit_iff_toNat.mp hdigit).1
  all_goals decide

theorem le_toNat_escapedChar (c : Char) : ∀ shown ∈ escapedChar c, 0x20 ≤ shown.toNat := by
  have hdigit : ∀ n < 16, 0x20 ≤ (Nat.digitChar n).toNat := by decide
  unfold escapedChar
  split
  · simp
  split
  · simp
  split
  · simp
  split
  · simp
  split
  · simp
  split
  · simp
  split
  · simp
  split
  · have hlow := hdigit _ (Nat.mod_lt c.toNat (by decide : 0 < 16))
    have hhigh := hdigit _ (Nat.mod_lt (c.toNat / 16) (by decide : 0 < 16))
    simp [hexDigit, hlow, hhigh]
  · rename_i hcontrol
    simpa using Nat.not_lt.mp hcontrol

theorem le_toNat_quotedText (s : String) : ∀ c ∈ (quotedText s).toList, 0x20 ≤ c.toNat := by
  intro c hc
  rw [quotedText, String.toList_ofList, List.cons_append, List.mem_cons, List.mem_append] at hc
  rcases hc with rfl | hc | hc
  · decide
  · obtain ⟨raw, -, hraw⟩ := List.mem_flatMap.mp hc
    exact le_toNat_escapedChar raw c hraw
  · rw [List.mem_singleton.mp hc]
    decide

/-- The trees by what they are made of. -/
@[elab_as_elim]
theorem induct {motive : Json → Prop} (null : motive .null) (boolean : ∀ b, motive (.boolean b))
    (integer : ∀ n, motive (.integer n)) (float : ∀ x, motive (.float x))
    (string : ∀ s, motive (.string s))
    (array : ∀ items : List Json, (∀ item ∈ items, motive item) → motive (.array items))
    (object : ∀ members : List (String × Json), (∀ member ∈ members, motive member.2) →
      motive (.object ⟨members⟩)) (json : Json) : motive json :=
  -- Items and members are lists, so each has a part of its own in the recursion.
  @Json.rec motive (fun items => ∀ item ∈ items, motive item)
    (fun members => ∀ member ∈ members.entries, motive member.2)
    (fun members => ∀ member ∈ members, motive member.2) (fun member => motive member.2)
    null boolean integer float string array (fun members => object members.entries)
    (fun _ hmem => absurd hmem List.not_mem_nil)
    (fun _ _ hitem hitems => List.forall_mem_cons.mpr ⟨hitem, hitems⟩) (fun _ hentries => hentries)
    (fun _ hmem => absurd hmem List.not_mem_nil)
    (fun _ _ hmember hmembers => List.forall_mem_cons.mpr ⟨hmember, hmembers⟩)
    (fun _ _ hmember => hmember) json

theorem compactItems_eq_map (items : List Json) : compactItems items = items.map compact := by
  induction items with
  | nil => rfl
  | cons item rest ih => rw [compactItems, ih, List.map_cons]

theorem compactMembers_eq_map (members : List (String × Json)) :
    compactMembers members =
      members.map fun member => quotedText member.1 ++ ":" ++ member.2.compact := by
  induction members with
  | nil => rfl
  | cons member rest ih => rw [compactMembers, ih, List.map_cons]

/-- The first of separated lists, and the others with the separator before each. -/
theorem intercalate_cons {α : Type} (separator : α) (first : List α) (rest : List (List α)) :
    [separator].intercalate (first :: rest) = first ++ rest.flatMap (separator :: ·) := by
  induction rest generalizing first with
  | nil => simp
  | cons second rest ih => rw [List.intercalate_cons_cons, ih]; simp

/-- If no character of any list is a control, none is between the brackets around them. -/
theorem le_toNat_enclosed {opening closing : Char} {lists : List (List Char)}
    (hopening : 0x20 ≤ opening.toNat) (hclosing : 0x20 ≤ closing.toNat)
    (hlists : ∀ chars ∈ lists, ∀ c ∈ chars, 0x20 ≤ c.toNat) :
    ∀ c ∈ opening :: [','].intercalate lists ++ [closing], 0x20 ≤ c.toNat := by
  have hinner : ∀ c ∈ [','].intercalate lists, 0x20 ≤ c.toNat := by
    cases lists with
    | nil => exact nofun
    | cons first rest =>
      obtain ⟨hfirst, hrest⟩ := List.forall_mem_cons.mp hlists
      rw [intercalate_cons, List.forall_mem_append]
      refine ⟨hfirst, fun c hc => ?_⟩
      obtain ⟨chars, hchars, hmem⟩ := List.mem_flatMap.mp hc
      rcases List.mem_cons.mp hmem with rfl | hmem
      · decide
      · exact hrest chars hchars c hmem
  rw [List.cons_append, List.forall_mem_cons, List.forall_mem_append, List.forall_mem_singleton]
  exact ⟨hopening, hinner, hclosing⟩

theorem toList_compact_array (items : List Json) : (compact (.array items)).toList =
    '[' :: [','].intercalate (items.map fun item => item.compact.toList) ++ [']'] := by
  rw [compact, compactItems_eq_map, String.toList_append, String.toList_append,
    String.toList_intercalate, List.map_map]
  rfl

/-- The characters of a member. -/
def memberChars (member : String × Json) : List Char :=
  (quotedText member.1).toList ++ ':' :: member.2.compact.toList

theorem toList_compact_object (members : List (String × Json)) :
    (compact (.object ⟨members⟩)).toList =
      '\x7b' :: [','].intercalate (members.map memberChars) ++ ['\x7d'] := by
  have hmember (member : String × Json) :
      (quotedText member.1 ++ ":" ++ member.2.compact).toList = memberChars member := by
    rw [String.toList_append, String.toList_append, List.append_assoc]
    rfl
  rw [compact, compactMembers_eq_map, String.toList_append, String.toList_append,
    String.toList_intercalate, List.map_map]
  simp only [Function.comp_def, hmember]
  rfl

/-- No character of the compact text is a control. -/
theorem le_toNat_compact (json : Json) : ∀ c ∈ json.compact.toList, 0x20 ≤ c.toNat := by
  induction json using induct with
  | null => simp [compact]
  | boolean b => cases b <;> simp [compact]
  | integer n =>
    exact fun c hc => le_toNat_of_isNumberChar ((isNumberText_integerText n).isNumberChar c hc)
  | float x =>
    rw [compact]
    cases hfinite : x.isFinite with
    | true =>
      exact fun c hc => le_toNat_of_isNumberChar ((isNumberText_text hfinite).isNumberChar c hc)
    | false =>
      rw [text_of_not_isFinite hfinite]
      simp
  | string s => exact le_toNat_quotedText s
  | array items ih =>
    rw [toList_compact_array]
    exact le_toNat_enclosed (by decide) (by decide) (List.forall_mem_map.mpr ih)
  | object members ih =>
    rw [toList_compact_object]
    refine le_toNat_enclosed (by decide) (by decide) (List.forall_mem_map.mpr ?_)
    intro member hmember
    rw [memberChars, List.forall_mem_append, List.forall_mem_cons]
    exact ⟨le_toNat_quotedText member.1, by decide, ih member hmember⟩

/-- So the compact text is one line. -/
theorem newline_not_mem_compact (json : Json) : '\n' ∉ json.compact.toList := by
  intro hmem
  exact absurd (le_toNat_compact json '\n' hmem) (by decide)

end Json

end Dataflow
