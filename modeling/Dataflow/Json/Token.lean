/-
# JSON tokens

The lexer walks over the characters of a text once, with a small state that says
whether it is inside a string, a number or a word. Numbers and words are runs of
the characters that can occur in them; a run is judged when it ends.

A string is read as code points, of which escapes may spell halves of a pair. Halves
that do not meet are no text, and a number may be too large: such a token is part of
a text that is well formed, but it cannot be read.
-/

import Dataflow.Document.Part
import Dataflow.Json.Number

namespace Dataflow.Json

open Document (Part)

/-- A token of a JSON text. -/
inductive Token where
  | openArray
  | closeArray
  | openObject
  | closeObject
  | comma
  | colon
  /-- A string, if it spells a text. -/
  | string (s : Option String)
  | scalar (part : Part)

/-- The value of a hexadecimal digit. -/
def hexValue? (c : Char) : Option Nat :=
  if '0' ≤ c ∧ c ≤ '9' then some (c.toNat - '0'.toNat)
  else if 'a' ≤ c ∧ c ≤ 'f' then some (c.toNat - 'a'.toNat + 10)
  else if 'A' ≤ c ∧ c ≤ 'F' then some (c.toNat - 'A'.toNat + 10)
  else none

/-- What the lexer is in the middle of. Characters and codes read so far are in
reverse. -/
inductive Lexing where
  | idle
  | text (read : List Nat)
  | escape (read : List Nat)
  /-- Inside a string, with this many hexadecimal digits of an escape to come. -/
  | hex (read : List Nat) (left : Nat) (code : Nat)
  | number (read : List Char)
  | word (read : List Char)

/-- Whether a character separates tokens and means nothing. -/
def isSpace (c : Char) : Bool := c == ' ' || c == '\n' || c == '\t' || c == '\r'

/-- Whether a character can occur in a number. -/
def isNumberChar (c : Char) : Bool :=
  c.isDigit || c == '-' || c == '+' || c == '.' || c == 'e' || c == 'E'

/-- Whether a number can start with a character. -/
def startsNumber (c : Char) : Bool := c.isDigit || c == '-'

/-- The character that an escape of one letter stands for. -/
def unescaped? (c : Char) : Option Char :=
  if c = '"' then some '"'
  else if c = '\\' then some '\\'
  else if c = '/' then some '/'
  else if c = 'b' then some '\x08'
  else if c = 'f' then some '\x0c'
  else if c = 'n' then some '\n'
  else if c = 'r' then some '\r'
  else if c = 't' then some '\t'
  else none

/-- Whether a code is the first half of a pair. -/
def isLeading (code : Nat) : Bool := 0xd800 ≤ code && code ≤ 0xdbff

/-- Whether a code is the second half of a pair. -/
def isTrailing (code : Nat) : Bool := 0xdc00 ≤ code && code ≤ 0xdfff

/-- The characters of codes, halves of pairs joined; none if a half is left over. -/
def joined? : List Nat → Option (List Char)
  | [] => some []
  | [code] => if isLeading code || isTrailing code then none else some [Char.ofNat code]
  | code :: next :: rest =>
    if isLeading code then
      if isTrailing next then
        (joined? rest).map
          (Char.ofNat (0x10000 + (code - 0xd800) * 0x400 + (next - 0xdc00)) :: ·)
      else none
    else if isTrailing code then none
    else (joined? (next :: rest)).map (Char.ofNat code :: ·)

/-- The token of a string. -/
def stringToken (codes : List Nat) : Token := .string ((joined? codes).map String.ofList)

/-- The token of a run of number characters. -/
def numberToken? (run : List Char) : Option Token :=
  if isNumeral run then
    match readNumber? run with
    | some json => some (.scalar (.ofJson json))
    | none => some (.scalar .unreadable)
  else none

/-- The token of a run of letters. -/
def wordToken? (word : String) : Option Token :=
  if word = "true" then some (.scalar (.boolean true))
  else if word = "false" then some (.scalar (.boolean false))
  else if word = "null" then some (.scalar .null)
  else none

/-- A character between tokens: the token that it is, and what it starts. -/
def startToken? (c : Char) : Option (List Token × Lexing) :=
  if isSpace c then some ([], .idle)
  else if c = '[' then some ([.openArray], .idle)
  else if c = ']' then some ([.closeArray], .idle)
  else if c = '\x7b' then some ([.openObject], .idle)
  else if c = '\x7d' then some ([.closeObject], .idle)
  else if c = ',' then some ([.comma], .idle)
  else if c = ':' then some ([.colon], .idle)
  else if c = '"' then some ([], .text [])
  else if startsNumber c then some ([], .number [c])
  else if c.isAlpha then some ([], .word [c])
  else none

/-- A token that has ended, before the token that a character is or starts. -/
def beforeToken? (ended : Option Token) (c : Char) : Option (List Token × Lexing) :=
  ended.bind fun token => (startToken? c).map fun (tokens, next) => (token :: tokens, next)

/-- One character: the tokens that it ends or is, and the next state. -/
def lexChar? (state : Lexing) (c : Char) : Option (List Token × Lexing) :=
  match state with
  | .idle => startToken? c
  | .text read =>
    if c = '"' then some ([stringToken read.reverse], .idle)
    else if c = '\\' then some ([], .escape read)
    else if c.toNat < 0x20 then none
    else some ([], .text (c.toNat :: read))
  | .escape read =>
    if c = 'u' then some ([], .hex read 4 0)
    else (unescaped? c).map fun meant => ([], .text (meant.toNat :: read))
  | .hex read left code =>
    (hexValue? c).map fun digit =>
      let sofar := code * 16 + digit
      if left ≤ 1 then ([], .text (sofar :: read)) else ([], .hex read (left - 1) sofar)
  | .number read =>
    if isNumberChar c then some ([], .number (c :: read))
    else beforeToken? (numberToken? read.reverse) c
  | .word read =>
    if c.isAlpha then some ([], .word (c :: read))
    else beforeToken? (wordToken? (String.ofList read.reverse)) c

/-- The tokens that the end of the text completes. -/
def lexEnd? : Lexing → Option (List Token)
  | .idle => some []
  | .number read => (numberToken? read.reverse).map fun token => [token]
  | .word read => (wordToken? (String.ofList read.reverse)).map fun token => [token]
  | _ => none

/-- The tokens of the rest of a text, read from a state. -/
def lexFrom? (state : Lexing) : List Char → Option (List Token)
  | [] => lexEnd? state
  | c :: rest =>
    (lexChar? state c).bind fun (tokens, next) =>
      (lexFrom? next rest).map fun further => tokens ++ further

def tokens? (text : String) : Option (List Token) :=
  lexFrom? .idle text.toList

end Dataflow.Json
