/-
# UTF-8

Bytes as characters. Reading goes byte by byte: between characters, or inside one
with the bytes that may follow. A sequence that breaks off is no character, and the
byte that broke it off is read as the start of the next one.
-/

namespace Dataflow.Text

abbrev Byte := UInt8

/-- A character that has begun: the bits of its code so far, how many bytes are
missing, and the range of the next one. -/
structure PartialChar where
  /-- The bits of the code so far. -/
  code : Nat
  /-- How many bytes are missing. -/
  missing : Nat
  /-- The least next byte. -/
  least : Nat
  /-- The greatest next byte. -/
  greatest : Nat

/-- What a byte between characters is: a character of its own, the start of one, or
no part of any. -/
inductive FirstByte where
  | whole (c : Char)
  | opening (started : PartialChar)
  | stray

/-- What a byte between characters is. The ranges exclude longer forms of shorter
characters, surrogates, and codes beyond the last character. -/
def firstByte (b : Nat) : FirstByte :=
  if b < 0x80 then .whole (Char.ofNat b)
  else if b < 0xC2 then .stray
  else if b < 0xE0 then .opening ⟨b - 0xC0, 1, 0x80, 0xBF⟩
  else if b = 0xE0 then .opening ⟨0, 2, 0xA0, 0xBF⟩
  else if b = 0xED then .opening ⟨0xD, 2, 0x80, 0x9F⟩
  else if b < 0xF0 then .opening ⟨b - 0xE0, 2, 0x80, 0xBF⟩
  else if b = 0xF0 then .opening ⟨0, 3, 0x90, 0xBF⟩
  else if b < 0xF4 then .opening ⟨b - 0xF0, 3, 0x80, 0xBF⟩
  else if b = 0xF4 then .opening ⟨4, 3, 0x80, 0x8F⟩
  else .stray

/-- A byte between characters: what is complete after it, and what has begun. -/
def readFirst (b : Nat) : List (Option Char) × Option PartialChar :=
  match firstByte b with
  | .whole c => ([some c], none)
  | .opening started => ([], some started)
  | .stray => ([none], none)

/-- A byte: what is complete after it, and what has begun. A sequence that is no
character is `none`. -/
def readByte (b : Nat) : Option PartialChar → List (Option Char) × Option PartialChar
  | none => readFirst b
  | some ⟨code, missing, least, greatest⟩ =>
    if least ≤ b ∧ b ≤ greatest then
      let code := code * 0x40 + (b - 0x80)
      if missing ≤ 1 then ([some (Char.ofNat code)], none)
      else ([], some ⟨code, missing - 1, 0x80, 0xBF⟩)
    else
      let (complete, begun) := readFirst b
      (none :: complete, begun)

/-- The characters of bytes after what has begun, with `none` for each sequence that
is none. -/
def readBytes (begun : Option PartialChar) : List Byte → List (Option Char)
  | [] => if begun.isSome then [none] else []
  | b :: rest =>
    let (complete, next) := readByte b.toNat begun
    complete ++ readBytes next rest

/-- The text of bytes, if all of them are parts of characters. -/
def decode? (bytes : List Byte) : Option String :=
  ((readBytes none bytes).mapM id).map String.ofList

/-- The character that stands for what is none. -/
def replacement : Char := '\ufffd'

/-- The text of bytes, with a replacement for each sequence that is no character. -/
def decodeLossy (bytes : List Byte) : String :=
  String.ofList ((readBytes none bytes).map fun c => c.getD replacement)

def encode (text : String) : List Byte := text.toUTF8.toList

end Dataflow.Text
