/-
# The tokens of written JSON

The compact text of a tree is read as the tokens of the tree, by induction on the tree. A number or
a word ends where something else begins, so what is read of a text depends on what comes after it:
the text spells its tokens before the end of the whole text, and before a character that can go on
with neither. The characters that the writer puts between values are such.
-/

import Dataflow.Json.Reader
import Dataflow.Proofs.Json.Writer

namespace Dataflow.Json

open Document (Part)

section Steps

variable {state next : Lexing} {c : Char} {token : Token} {rest : List Char}

theorem lexFrom?_silent (h : lexChar? state c = some ([], next)) :
    lexFrom? state (c :: rest) = lexFrom? next rest := by
  rw [lexFrom?, h, Option.bind_some]
  simp only [List.nil_append, Option.map_id']

theorem lexFrom?_token (h : lexChar? state c = some ([token], next)) :
    lexFrom? state (c :: rest) = (lexFrom? next rest).map (token :: ·) := by
  rw [lexFrom?, h, Option.bind_some]
  rfl

end Steps

section Strings

variable {c : Char} {s : String} {read : List Nat} {rest : List Char}

theorem hexValue?_digitChar {digit : Nat} (hdigit : digit < 16) :
    hexValue? (Nat.digitChar digit) = some digit := by
  have hall : ∀ digit < 16, hexValue? (Nat.digitChar digit) = some digit := by decide
  exact hall digit hdigit

/-- A backslash and a letter are the character that they stand for. -/
theorem lexFrom?_unescaped {letter meant : Char} (hletter : letter ≠ 'u')
    (hmeant : unescaped? letter = some meant) :
    lexFrom? (.text read) ('\\' :: letter :: rest) = lexFrom? (.text (meant.toNat :: read)) rest := by
  have hescape : lexChar? (.text read) '\\' = some ([], .escape read) := rfl
  rw [lexFrom?_silent hescape]
  apply lexFrom?_silent
  rw [lexChar?, if_neg hletter, hmeant]
  rfl

/-- The digits of a code are the code, if it has no more than two. -/
theorem lexFrom?_code (hlow : c.toNat < 0x100) :
    lexFrom? (.text read)
        ('\\' :: 'u' :: '0' :: '0' :: hexDigit (c.toNat / 16) :: hexDigit c.toNat :: rest) =
      lexFrom? (.text (c.toNat :: read)) rest := by
  have hescape : lexChar? (.text read) '\\' = some ([], .escape read) := rfl
  have hcode : lexChar? (.escape read) 'u' = some ([], .hex read 4 0) := rfl
  have hfirst : lexChar? (.hex read 4 0) '0' = some ([], .hex read 3 0) := rfl
  have hsecond : lexChar? (.hex read 3 0) '0' = some ([], .hex read 2 0) := rfl
  have hthird : lexChar? (.hex read 2 0) (hexDigit (c.toNat / 16)) =
      some ([], .hex read 1 (c.toNat / 16)) := by
    rw [lexChar?, hexDigit, hexValue?_digitChar (Nat.mod_lt _ (by decide))]
    simp
    omega
  have hfourth : lexChar? (.hex read 1 (c.toNat / 16)) (hexDigit c.toNat) =
      some ([], .text (c.toNat :: read)) := by
    rw [lexChar?, hexDigit, hexValue?_digitChar (Nat.mod_lt _ (by decide))]
    simp
    omega
  rw [lexFrom?_silent hescape, lexFrom?_silent hcode, lexFrom?_silent hfirst,
    lexFrom?_silent hsecond, lexFrom?_silent hthird, lexFrom?_silent hfourth]

/-- Inside a string an escaped character is read as the character. -/
theorem lexFrom?_escapedChar :
    lexFrom? (.text read) (escapedChar c ++ rest) = lexFrom? (.text (c.toNat :: read)) rest := by
  unfold escapedChar
  split
  · subst_vars; exact lexFrom?_unescaped (by decide) rfl
  split
  · subst_vars; exact lexFrom?_unescaped (by decide) rfl
  split
  · subst_vars; exact lexFrom?_unescaped (by decide) rfl
  split
  · subst_vars; exact lexFrom?_unescaped (by decide) rfl
  split
  · subst_vars; exact lexFrom?_unescaped (by decide) rfl
  split
  · subst_vars; exact lexFrom?_unescaped (by decide) rfl
  split
  · subst_vars; exact lexFrom?_unescaped (by decide) rfl
  split
  · rename_i hcontrol
    exact lexFrom?_code (Nat.lt_trans hcontrol (by decide))
  · rename_i hquote hslash _ _ _ _ _ hcontrol
    apply lexFrom?_silent
    rw [lexChar?, if_neg hquote, if_neg hslash, if_neg hcontrol]

/-- The codes of the characters of a text are joined to the text. -/
theorem joined?_toNat (chars : List Char) : joined? (chars.map Char.toNat) = some chars := by
  have hhalf (c : Char) : isLeading c.toNat = false ∧ isTrailing c.toNat = false := by
    have hvalid : c.toNat < 0xd800 ∨ 0xdfff < c.toNat ∧ c.toNat < 0x110000 := c.valid
    simp only [isLeading, isTrailing, Bool.and_eq_false_iff, decide_eq_false_iff_not]
    omega
  induction chars with
  | nil => rfl
  | cons c rest ih =>
    cases rest with
    | nil => simp [joined?, hhalf c]
    | cons next rest =>
      rw [List.map_cons, List.map_cons, joined?, ← List.map_cons, ih]
      simp [hhalf c]

/-- A quoted text is read as a string, whatever comes after it. -/
theorem lexFrom?_quotedText :
    lexFrom? .idle ((quotedText s).toList ++ rest) =
      (lexFrom? .idle rest).map (.string (some s) :: ·) := by
  have hchars (chars : List Char) (read : List Nat) :
      lexFrom? (.text read) (chars.flatMap escapedChar ++ '"' :: rest) =
        (lexFrom? .idle rest).map (stringToken (read.reverse ++ chars.map Char.toNat) :: ·) := by
    induction chars generalizing read with
    | nil =>
      have hend : lexChar? (.text read) '"' = some ([stringToken read.reverse], .idle) := rfl
      rw [List.flatMap_nil, List.nil_append, lexFrom?_token hend, List.map_nil, List.append_nil]
    | cons c chars ih =>
      rw [List.flatMap_cons, List.append_assoc, lexFrom?_escapedChar, ih, List.reverse_cons,
        List.append_assoc]
      rfl
  have hstart : lexChar? .idle '"' = some ([], .text []) := rfl
  rw [quotedText, String.toList_ofList, List.cons_append, List.cons_append, lexFrom?_silent hstart,
    List.append_assoc]
  have hend := hchars s.toList []
  rw [List.reverse_nil, List.nil_append, stringToken, joined?_toNat, Option.map_some,
    String.ofList_toList] at hend
  exact hend

end Strings

/-- What can stand after a number or a word: nothing, or something that starts with a character
that can go on with neither. -/
def Separates (rest : List Char) : Prop :=
  ∀ c, rest.head? = some c → isNumberChar c = false ∧ c.isAlpha = false

/-- Characters are read as tokens, whatever comes after them as long as it separates. -/
def Spells (chars : List Char) (tokens : List Token) : Prop :=
  ∀ rest, Separates rest → lexFrom? .idle (chars ++ rest) = (lexFrom? .idle rest).map (tokens ++ ·)

section Runs

variable {c first : Char} {chars rest : List Char} {token : Token}

/-- What has ended is before the tokens of the rest. -/
theorem lexFrom?_before {state : Lexing} {ended : Option Token}
    (hend : lexEnd? state = ended.map fun token => [token])
    (hstep : ∀ c, rest.head? = some c → lexChar? state c = beforeToken? ended c) :
    lexFrom? state rest = ended.bind fun token => (lexFrom? .idle rest).map (token :: ·) := by
  cases rest with
  | nil =>
    rw [lexFrom?, hend]
    cases ended <;> rfl
  | cons c rest =>
    have hstart : lexChar? .idle c = startToken? c := rfl
    rw [lexFrom?, lexFrom?, hstep c rfl, hstart, beforeToken?]
    cases ended with
    | none => rfl
    | some token =>
      cases startToken? c with
      | none => rfl
      | some started =>
        obtain ⟨tokens, next⟩ := started
        simp [Function.comp_def]

/-- A run of characters that go on with each other is read as what it is when it ends. -/
theorem lexFrom?_run (run : List Char → Lexing) (goesOn : Char → Bool)
    (ended : List Char → Option Token)
    (hstep : ∀ read c, goesOn c = true → lexChar? (run read) c = some ([], run (c :: read)))
    (hother : ∀ read c, goesOn c = false →
      lexChar? (run read) c = beforeToken? (ended read.reverse) c)
    (hend : ∀ read, lexEnd? (run read) = (ended read.reverse).map fun token => [token])
    (hfirst : lexChar? .idle first = some ([], run [first]))
    (hchars : ∀ c ∈ chars, goesOn c = true) (hrest : ∀ c, rest.head? = some c → goesOn c = false) :
    lexFrom? .idle (first :: chars ++ rest) =
      (ended (first :: chars)).bind fun token => (lexFrom? .idle rest).map (token :: ·) := by
  have hrun (chars read : List Char) (hchars : ∀ c ∈ chars, goesOn c = true) :
      lexFrom? (run read) (chars ++ rest) =
        (ended (read.reverse ++ chars)).bind fun token =>
          (lexFrom? .idle rest).map (token :: ·) := by
    induction chars generalizing read with
    | nil =>
      rw [List.nil_append, List.append_nil]
      exact lexFrom?_before (hend read) fun c hc => hother read c (hrest c hc)
    | cons c chars ih =>
      obtain ⟨hc, hmore⟩ := List.forall_mem_cons.mp hchars
      rw [List.cons_append, lexFrom?_silent (hstep read c hc), ih _ hmore, List.reverse_cons,
        List.append_assoc]
      rfl
  rw [List.cons_append, lexFrom?_silent hfirst, hrun _ _ hchars]
  rfl

theorem lexChar?_of_startsNumber (hc : startsNumber c = true) :
    lexChar? .idle c = some ([], .number [c]) := by
  have hne (mark : Char) (hmark : startsNumber mark = false) : c ≠ mark := by
    rintro rfl
    cases hc.symm.trans hmark
  have hspace : isSpace c = false := by
    simp [isSpace, hne ' ' rfl, hne '\n' rfl, hne '\t' rfl, hne '\r' rfl]
  rw [lexChar?, startToken?, if_neg (Bool.eq_false_iff.mp hspace), if_neg (hne _ rfl),
    if_neg (hne _ rfl), if_neg (hne _ rfl), if_neg (hne _ rfl), if_neg (hne _ rfl),
    if_neg (hne _ rfl), if_neg (hne _ rfl), if_pos hc]

/-- A run of characters of numbers is read as a number. -/
theorem lexFrom?_number (hfirst : startsNumber first = true)
    (hchars : ∀ c ∈ chars, isNumberChar c = true) (hrest : Separates rest) :
    lexFrom? .idle (first :: chars ++ rest) =
      (numberToken? (first :: chars)).bind fun token =>
        (lexFrom? .idle rest).map (token :: ·) :=
  lexFrom?_run .number isNumberChar numberToken? (fun _ _ hc => if_pos hc)
    (fun _ _ hc => if_neg (Bool.eq_false_iff.mp hc)) (fun _ => rfl)
    (lexChar?_of_startsNumber hfirst) hchars fun c hc => (hrest c hc).1

/-- A run of letters is read as a word. -/
theorem lexFrom?_word (hfirst : lexChar? .idle first = some ([], .word [first]))
    (hchars : ∀ c ∈ chars, c.isAlpha = true) (hrest : Separates rest) :
    lexFrom? .idle (first :: chars ++ rest) =
      (wordToken? (String.ofList (first :: chars))).bind fun token =>
        (lexFrom? .idle rest).map (token :: ·) :=
  lexFrom?_run .word Char.isAlpha (fun run => wordToken? (String.ofList run))
    (fun _ _ hc => if_pos hc) (fun _ _ hc => if_neg (Bool.eq_false_iff.mp hc)) (fun _ => rfl)
    hfirst hchars fun c hc => (hrest c hc).2

theorem spells_number (hfirst : startsNumber first = true)
    (hchars : ∀ c ∈ chars, isNumberChar c = true)
    (htoken : numberToken? (first :: chars) = some token) : Spells (first :: chars) [token] := by
  intro rest hrest
  rw [lexFrom?_number hfirst hchars hrest, htoken]
  rfl

theorem spells_word (hfirst : lexChar? .idle first = some ([], .word [first]))
    (hchars : ∀ c ∈ chars, c.isAlpha = true)
    (htoken : wordToken? (String.ofList (first :: chars)) = some token) :
    Spells (first :: chars) [token] := by
  intro rest hrest
  rw [lexFrom?_word hfirst hchars hrest, htoken]
  rfl

theorem spells_null : Spells (compact .null).toList [.scalar .null] := by
  show Spells ['n', 'u', 'l', 'l'] _
  exact spells_word rfl (by simp) rfl

theorem spells_boolean (b : Bool) :
    Spells (compact (.boolean b)).toList [.scalar (.boolean b)] := by
  cases b with
  | false =>
    show Spells ['f', 'a', 'l', 's', 'e'] _
    exact spells_word rfl (by simp) rfl
  | true =>
    show Spells ['t', 'r', 'u', 'e'] _
    exact spells_word rfl (by simp) rfl

end Runs

section Spelling

variable {chars others : List Char} {read further : List Token} {c : Char} {token : Token}

theorem spells_nil : Spells [] [] := by
  intro rest _
  simp only [List.nil_append, Option.map_id']

theorem spells_quotedText (s : String) : Spells (quotedText s).toList [.string (some s)] :=
  fun _ _ => lexFrom?_quotedText

/-- A mark that is a token ends what is before it. -/
theorem Spells.mark (hchars : Spells chars read) (hothers : Spells others further)
    (hmark : lexChar? .idle c = some ([token], .idle))
    (hends : isNumberChar c = false ∧ c.isAlpha = false) :
    Spells (chars ++ c :: others) (read ++ token :: further) := by
  intro rest hrest
  have hseparates : Separates (c :: (others ++ rest)) := by
    rintro first hfirst
    cases hfirst
    exact hends
  rw [List.append_assoc, List.cons_append, hchars _ hseparates, lexFrom?_token hmark,
    hothers rest hrest]
  simp [Function.comp_def]

/-- Between two marks stands what is spelled there. -/
theorem Spells.enclosed {opening closing : Char} {first last : Token} (hchars : Spells chars read)
    (hopening : lexChar? .idle opening = some ([first], .idle))
    (hopens : isNumberChar opening = false ∧ opening.isAlpha = false)
    (hclosing : lexChar? .idle closing = some ([last], .idle))
    (hcloses : isNumberChar closing = false ∧ closing.isAlpha = false) :
    Spells (opening :: chars ++ [closing]) (first :: read ++ [last]) :=
  spells_nil.mark (hchars.mark spells_nil hclosing hcloses) hopening hopens

/-- Texts with commas between them spell their tokens with commas between them. -/
theorem spells_intercalate {texts : List (List Char)} {tokens : List (List Token)}
    (h : List.Forall₂ Spells texts tokens) :
    Spells ([','].intercalate texts) ([Token.comma].intercalate tokens) := by
  induction h with
  | nil => exact spells_nil
  | cons hfirst hrest ih =>
    cases hrest with
    | nil => simpa using hfirst
    | cons hsecond hrest =>
      rw [List.intercalate_cons_cons, List.intercalate_cons_cons, List.append_assoc,
        List.append_assoc]
      exact hfirst.mark ih rfl ⟨rfl, rfl⟩

end Spelling

mutual

/-- The numbers in a tree. -/
def numbers : Json → List Json
  | .integer n => [.integer n]
  | .float x => [.float x]
  | .array items => numbersOfItems items
  | .object ⟨members⟩ => numbersOfMembers members
  | _ => []

/-- The numbers in items. -/
def numbersOfItems : List Json → List Json
  | [] => []
  | item :: rest => numbers item ++ numbersOfItems rest

/-- The numbers in members. -/
def numbersOfMembers : List (String × Json) → List Json
  | [] => []
  | (_, member) :: rest => numbers member ++ numbersOfMembers rest

end

mutual

/-- The tokens of the compact text of a tree. -/
def tokens : Json → List Token
  | .string s => [.string (some s)]
  | .array items => .openArray :: [Token.comma].intercalate (tokensOfItems items) ++ [.closeArray]
  | .object ⟨members⟩ =>
    .openObject :: [Token.comma].intercalate (tokensOfMembers members) ++ [.closeObject]
  | scalar => [.scalar (.ofJson scalar)]

/-- The tokens of the items of an array. -/
def tokensOfItems : List Json → List (List Token)
  | [] => []
  | item :: rest => tokens item :: tokensOfItems rest

/-- The tokens of the members of an object. -/
def tokensOfMembers : List (String × Json) → List (List Token)
  | [] => []
  | (name, member) :: rest =>
    (.string (some name) :: .colon :: tokens member) :: tokensOfMembers rest

end

theorem mem_numbersOfItems {number : Json} {items : List Json} :
    number ∈ numbersOfItems items ↔ ∃ item ∈ items, number ∈ item.numbers := by
  induction items with
  | nil => simp [numbersOfItems]
  | cons item rest ih =>
    rw [numbersOfItems, List.mem_append, ih, List.exists_mem_cons_iff]

theorem mem_numbersOfMembers {number : Json} {members : List (String × Json)} :
    number ∈ numbersOfMembers members ↔ ∃ member ∈ members, number ∈ member.2.numbers := by
  induction members with
  | nil => simp [numbersOfMembers]
  | cons member rest ih =>
    rw [numbersOfMembers, List.mem_append, ih, List.exists_mem_cons_iff]

theorem tokensOfItems_eq_map (items : List Json) : tokensOfItems items = items.map tokens := by
  induction items with
  | nil => rfl
  | cons item rest ih => rw [tokensOfItems, ih, List.map_cons]

/-- The tokens of a member. -/
def memberTokens (member : String × Json) : List Token :=
  .string (some member.1) :: .colon :: member.2.tokens

theorem tokensOfMembers_eq_map (members : List (String × Json)) :
    tokensOfMembers members = members.map memberTokens := by
  induction members with
  | nil => rfl
  | cons member rest ih =>
    rw [tokensOfMembers, ih, List.map_cons]
    rfl

/-- A number is read as the token that it is. -/
def ReadsAlone (number : Json) : Prop :=
  ∃ first rest, number.compact.toList = first :: rest ∧ startsNumber first = true ∧
    (∀ c ∈ rest, isNumberChar c = true) ∧
    numberToken? (first :: rest) = some (.scalar (.ofJson number))

/-- The compact text spells the tokens of the tree, if its numbers are read back. -/
theorem spells_compact (json : Json)
    (hnumbers : ∀ number ∈ json.numbers, number.ReadsAlone) :
    Spells json.compact.toList json.tokens := by
  have hnumber {number : Json} (hreads : number.ReadsAlone) :
      Spells number.compact.toList [.scalar (.ofJson number)] := by
    obtain ⟨first, rest, htext, hfirst, hrest, htoken⟩ := hreads
    rw [htext]
    exact spells_number hfirst hrest htoken
  induction json using induct with
  | null => exact spells_null
  | boolean b => exact spells_boolean b
  | integer n => exact hnumber (hnumbers _ List.mem_cons_self)
  | float x => exact hnumber (hnumbers _ List.mem_cons_self)
  | string s => exact spells_quotedText s
  | array items ih =>
    rw [toList_compact_array, tokens, tokensOfItems_eq_map]
    refine (spells_intercalate ?_).enclosed rfl ⟨rfl, rfl⟩ rfl ⟨rfl, rfl⟩
    rw [List.forall₂_map_left_iff, List.forall₂_map_right_iff, List.forall₂_same]
    exact fun item hitem => ih item hitem fun number hmem =>
      hnumbers number (mem_numbersOfItems.mpr ⟨item, hitem, hmem⟩)
  | object members ih =>
    rw [toList_compact_object, tokens, tokensOfMembers_eq_map]
    refine (spells_intercalate ?_).enclosed rfl ⟨rfl, rfl⟩ rfl ⟨rfl, rfl⟩
    rw [List.forall₂_map_left_iff, List.forall₂_map_right_iff, List.forall₂_same]
    intro member hmember
    have hread := ih member hmember fun number hmem =>
      hnumbers number (mem_numbersOfMembers.mpr ⟨member, hmember, hmem⟩)
    exact (spells_quotedText member.1).mark hread rfl ⟨rfl, rfl⟩

/-- The tokens of the compact text are those of the tree, if its numbers are read back. -/
theorem tokens?_compact {json : Json} (hnumbers : ∀ number ∈ json.numbers, number.ReadsAlone) :
    tokens? json.compact = some json.tokens := by
  have hall := spells_compact json hnumbers [] nofun
  have hend : lexFrom? .idle [] = some [] := rfl
  rw [List.append_nil, hend, Option.map_some, List.append_nil] at hall
  exact hall

end Dataflow.Json
