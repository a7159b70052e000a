/-
# Tags of YAML nodes

What a tag says about its node. A tag is spelled as bytes, some of them through
escapes; one that starts with an exclamation mark names an alternative, and a few
others name kinds of scalars.
-/

import Dataflow.Text.Utf8

namespace Dataflow.Yaml

/-- What a tag says. -/
inductive Tag where
  | absent
  /-- The node is the content of an alternative. -/
  | alternative (name : String)
  | boolean
  | integer
  | float
  | null
  /-- The name of an alternative is no text. -/
  | unnamed
  | other
deriving DecidableEq, Repr

/-- What the common tags of scalars start with. -/
def commonTagStart : String := "tag:yaml.org,2002:"

/-- What the bytes of a tag say. -/
def Tag.ofBytes (bytes : List Text.Byte) : Tag :=
  let named (kind : String) : Bool := bytes == Text.encode (commonTagStart ++ kind)
  match bytes with
  | 0x21 :: name =>
    match Text.decode? name with
    | some name => .alternative name
    | none => .unnamed
  | _ =>
    if named "bool" then .boolean
    else if named "int" then .integer
    else if named "float" then .float
    else if named "null" then .null
    else .other

/-- The value of a hexadecimal digit in a tag. -/
def tagDigit? (c : Char) : Option Nat :=
  if '0' ≤ c ∧ c ≤ '9' then some (c.toNat - '0'.toNat)
  else if 'a' ≤ c ∧ c ≤ 'f' then some (c.toNat - 'a'.toNat + 10)
  else if 'A' ≤ c ∧ c ≤ 'F' then some (c.toNat - 'A'.toNat + 10)
  else none

/-- How many bytes follow a byte that begins a character; none if it cannot. -/
def furtherBytes? (byte : Nat) : Option Nat :=
  if byte < 0x80 then some 0
  else if byte < 0xC0 then none
  else if byte < 0xE0 then some 1
  else if byte < 0xF0 then some 2
  else if byte < 0xF8 then some 3
  else none

/-- The bytes that the characters of a tag spell, when that many bytes of a character
are missing. A character that an escape begins is ended by escapes, and a percent sign
is always part of one. -/
def tagBytes? : Nat → List Char → Option (List Text.Byte)
  | 0, [] => some []
  | missing, '%' :: high :: low :: rest => do
    let byte := (← tagDigit? high) * 16 + (← tagDigit? low)
    let further ←
      match missing with
      | 0 => furtherBytes? byte
      | left + 1 => if 0x80 ≤ byte ∧ byte < 0xC0 then some left else none
    let read ← tagBytes? further rest
    return UInt8.ofNat byte :: read
  | 0, c :: rest =>
    if c == '%' then none
    else (tagBytes? 0 rest).map fun read => UInt8.ofNat c.toNat :: read
  | _ + 1, _ => none

/-- The bytes of a tag end where a zero is among them. -/
def endedAtZero (bytes : List Text.Byte) : List Text.Byte := bytes.takeWhile (· != 0)

/-- Whether a character may occur in the name of an anchor or of a namespace. -/
def isNameChar (c : Char) : Bool := c.isAlphanum || c == '_' || c == '-'

/-- Whether a character may occur in a tag; between angle brackets there are a few
more. -/
def isTagChar (isVerbatim : Bool) (c : Char) : Bool :=
  isNameChar c || ";/?:@&=+$.%!~*'()".toList.contains c ||
    (isVerbatim && [',', '[', ']'].contains c)

/-- The bytes of a tag, or of a part of one, and what comes after it. -/
def readTagBytes? (isVerbatim : Bool) (chars : List Char) :
    Option (List Text.Byte × List Char) :=
  let written := chars.takeWhile (isTagChar isVerbatim)
  (tagBytes? 0 written).map fun bytes => (endedAtZero bytes, chars.drop written.length)

/-- The name of a namespace with the marks around it, and the rest of a tag under it;
a tag without a namespace of its own has an empty one. -/
structure TagSpelling where
  /-- The name of the namespace. -/
  handle : String
  suffix : List Text.Byte
deriving DecidableEq, Repr

/-- A tag, and what comes after it. The tag that is only its mark belongs to no
namespace. -/
def readTag? (chars : List Char) : Option (TagSpelling × List Char) :=
  match chars with
  | '!' :: '<' :: rest => do
    let (suffix, after) ← readTagBytes? true rest
    match after with
    | '>' :: further =>
      if after.length == rest.length then none else return (⟨"", suffix⟩, further)
    | _ => none
  | '!' :: rest => do
    let name := rest.takeWhile isNameChar
    match rest.drop name.length with
    | '!' :: after => do
      let (suffix, further) ← readTagBytes? false after
      if further.length == after.length then none
      else return (⟨String.ofList ('!' :: name ++ ['!']), suffix⟩, further)
    | after => do
      let (bytes, further) ← readTagBytes? false after
      let suffix := Text.encode (String.ofList name) ++ bytes
      if suffix.isEmpty then return (⟨"", [0x21]⟩, further)
      else return (⟨"!", suffix⟩, further)
  | _ => none

end Dataflow.Yaml
