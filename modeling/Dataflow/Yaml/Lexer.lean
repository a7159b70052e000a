/-
# YAML texts as tokens

The lexer keeps the indentations of the open blocks and, for each level of
brackets, the place of a node that turns out to be a key if a colon follows it on
the same line. A text without a reading has no tokens.
-/

import Dataflow.Yaml.Scalar.Block
import Dataflow.Yaml.Scalar.Plain
import Dataflow.Yaml.Scalar.Quoted
import Dataflow.Yaml.Token

namespace Dataflow.Yaml

/-- A node that is a key if a colon follows. -/
structure PossibleKey where
  /-- How many tokens come before it. -/
  position : Nat
  /-- Whether it has to be a key. -/
  isRequired : Bool
  /-- Where it starts. -/
  cursor : Cursor

/-- What the lexer knows after part of a text. -/
structure Lexer where
  /-- The place that has been reached. -/
  cursor : Cursor
  /-- The tokens so far, the last first. -/
  tokens : List Token
  /-- The indentation of the innermost block; less than zero outside of blocks. -/
  indent : Int
  /-- The indentations of the blocks around that, the innermost first. -/
  outer : List Int
  /-- The possible key of each level, the innermost level of brackets first. -/
  keys : List (Option PossibleKey)
  /-- Whether a key may start here. -/
  keyAllowed : Bool

namespace Lexer

/-- At the start of a text. -/
def start (chars : List Char) : Lexer := ⟨.start chars, [], -1, [], [none], true⟩

/-- Whether the place is between brackets. -/
def inFlow (lexer : Lexer) : Bool := lexer.keys.length > 1

def push (lexer : Lexer) (token : Token) : Lexer :=
  { lexer with tokens := token :: lexer.tokens }

/-- With a token after that many others. -/
def insertAt (lexer : Lexer) (position : Nat) (token : Token) : Lexer :=
  let newer := lexer.tokens.length - position
  { lexer with tokens := lexer.tokens.take newer ++ token :: lexer.tokens.drop newer }

/-- That many characters further on. -/
def skip (lexer : Lexer) (count : Nat) : Lexer :=
  { lexer with cursor := lexer.cursor.skip count }

/-- At the place where only this is still to be read. -/
def moveTo (lexer : Lexer) (rest : List Char) : Lexer :=
  { lexer with cursor := lexer.cursor.moveTo rest }

/-- With or without leave to start a key. -/
def allowKey (lexer : Lexer) (keyAllowed : Bool) : Lexer :=
  { lexer with keyAllowed := keyAllowed }

/-- Without the possible key of this level; it fails if that had to be a key. -/
def forgetKey? (lexer : Lexer) : Option Lexer :=
  match lexer.keys with
  | some key :: keys =>
    if key.isRequired then none else some { lexer with keys := none :: keys }
  | _ => some lexer

/-- Note that a key may start here, if it may. A node at the indentation of the
block outside of brackets has to be one. -/
def offerKey? (lexer : Lexer) : Option Lexer :=
  if lexer.keyAllowed then do
    let lexer ← lexer.forgetKey?
    let isRequired := !lexer.inFlow && lexer.indent == (lexer.cursor.column : Int)
    let key : PossibleKey := ⟨lexer.tokens.length, isRequired, lexer.cursor⟩
    return { lexer with keys := some key :: lexer.keys.drop 1 }
  else some lexer

/-- How many bytes a key may have before its colon. -/
def keyLimit : Nat := 1024

/-- A possible key, unless the place is too far from it; it fails if that had to be
a key. -/
def freshKey? (cursor : Cursor) : Option PossibleKey → Option (Option PossibleKey)
  | some key =>
    if key.cursor.line < cursor.line || key.cursor.index + keyLimit < cursor.index then
      if key.isRequired then none else some none
    else some (some key)
  | none => some none

/-- Without the possible keys that are too far away. -/
def dropStaleKeys? (lexer : Lexer) : Option Lexer :=
  (lexer.keys.mapM (freshKey? lexer.cursor)).map fun keys => { lexer with keys := keys }

/-- Open a block at a column, unless one at least as far in is open; its token comes
after that many others. -/
def openBlock (lexer : Lexer) (column position : Nat) (token : Token) : Lexer :=
  if !lexer.inFlow && lexer.indent < column then
    { lexer.insertAt position token with
      indent := column, outer := lexer.indent :: lexer.outer }
  else lexer

/-- The indentations and the tokens when all blocks further in than a column have
been closed. -/
def closedBlocks (column : Int) (indent : Int) (tokens : List Token) :
    List Int → Int × List Int × List Token
  | next :: further =>
    if column < indent then closedBlocks column next (.blockClose :: tokens) further
    else (indent, next :: further, tokens)
  | [] => (indent, [], tokens)

/-- Close all blocks further in than a column. -/
def closeBlocks (lexer : Lexer) (column : Int) : Lexer :=
  if lexer.inFlow then lexer
  else
    let (indent, outer, tokens) := closedBlocks column lexer.indent lexer.tokens lexer.outer
    { lexer with indent := indent, outer := outer, tokens := tokens }

/-- Where skipping blanks has come to on a line. -/
inductive BlankPlace where
  | lineStart
  | inside
  | comment
deriving DecidableEq

/-- What remains after white space, comments and line ends, and whether a key may
start there. Tabs are white space only where no key may start, and the mark of the
byte order is skipped at the start of a line. -/
def afterBlanks (inFlow keyAllowed : Bool) (place : BlankPlace) :
    List Char → List Char × Bool
  | [] => ([], keyAllowed)
  | c :: rest =>
    if isBreak c then afterBlanks inFlow (keyAllowed || !inFlow) .lineStart rest
    else if place == .comment then afterBlanks inFlow keyAllowed .comment rest
    else if c == ' ' || (c == '\t' && (inFlow || !keyAllowed)) then
      afterBlanks inFlow keyAllowed .inside rest
    else if c == '\ufeff' && place == .lineStart then afterBlanks inFlow keyAllowed .inside rest
    else if c == '#' then afterBlanks inFlow keyAllowed .comment rest
    else (c :: rest, keyAllowed)

/-- At the start of the next token. -/
def skipBlanks (lexer : Lexer) : Lexer :=
  let place : BlankPlace := if lexer.cursor.column = 0 then .lineStart else .inside
  let (rest, keyAllowed) := afterBlanks lexer.inFlow lexer.keyAllowed place lexer.cursor.rest
  (lexer.moveTo rest).allowKey keyAllowed

/-- A bound of a document, which closes all blocks. -/
def bound? (lexer : Lexer) (token : Token) : Option Lexer :=
  ((lexer.closeBlocks (-1)).forgetKey?).map fun lexer =>
    ((lexer.allowKey false).push token).skip 3

def directive? (lexer : Lexer) (rest : List Char) : Option Lexer := do
  let lexer ← (lexer.closeBlocks (-1)).forgetKey?
  let (directive, after) ← readDirective? rest
  return ((lexer.allowKey false).push (.directive directive)).moveTo after

/-- An opening bracket: a new level, with no possible key yet. -/
def openBracket? (lexer : Lexer) (token : Token) : Option Lexer :=
  lexer.offerKey?.map fun lexer =>
    (({ lexer with keys := none :: lexer.keys }.allowKey true).push token).skip 1

/-- A closing bracket. -/
def closeBracket? (lexer : Lexer) (token : Token) : Option Lexer :=
  lexer.forgetKey?.map fun lexer =>
    let keys := if lexer.inFlow then lexer.keys.drop 1 else lexer.keys
    (({ lexer with keys := keys }.allowKey false).push token).skip 1

/-- A separator between brackets. -/
def separator? (lexer : Lexer) : Option Lexer :=
  lexer.forgetKey?.map fun lexer => ((lexer.allowKey true).push .separator).skip 1

/-- The block that a mark opens where there is none yet; it fails where no key may
start. -/
def openAtMark? (lexer : Lexer) (block : Token) : Option Lexer :=
  if lexer.inFlow then some lexer
  else if lexer.keyAllowed then
    some (lexer.openBlock lexer.cursor.column lexer.tokens.length block)
  else none

/-- The mark of an item. -/
def item? (lexer : Lexer) : Option Lexer := do
  let lexer ← (← lexer.openAtMark? .itemsOpen).forgetKey?
  return ((lexer.allowKey true).push .item).skip 1

/-- The mark of a key. -/
def key? (lexer : Lexer) : Option Lexer := do
  let lexer ← (← lexer.openAtMark? .membersOpen).forgetKey?
  return ((lexer.allowKey (!lexer.inFlow)).push .key).skip 1

/-- The mark of a value: a possible key before it is a key. -/
def value? (lexer : Lexer) : Option Lexer :=
  match lexer.keys with
  | some key :: keys =>
    let lexer := { lexer.insertAt key.position .key with keys := none :: keys }
    let lexer := lexer.openBlock key.cursor.column key.position .membersOpen
    some (((lexer.allowKey false).push .value).skip 1)
  | _ =>
    (lexer.openAtMark? .membersOpen).map fun lexer =>
      ((lexer.allowKey (!lexer.inFlow)).push .value).skip 1

/-- The name of an anchor or of an alias. -/
def name? (lexer : Lexer) (token : String → Token) (rest : List Char) : Option Lexer := do
  let lexer ← lexer.offerKey?
  let name := rest.takeWhile isNameChar
  let after := rest.drop name.length
  let ended := atWordEnd after ||
    after.head?.any ['?', ':', ',', ']', '\x7d', '%', '@', '\x60'].contains
  if name.isEmpty || !ended then none
  else some (((lexer.allowKey false).push (token (String.ofList name))).moveTo after)

def tag? (lexer : Lexer) : Option Lexer := do
  let lexer ← lexer.offerKey?
  let (spelling, after) ← readTag? lexer.cursor.rest
  if atWordEnd after || (lexer.inFlow && after.head? == some ',') then
    some (((lexer.allowKey false).push (.tag spelling)).moveTo after)
  else none

/-- A block scalar. -/
def block? (lexer : Lexer) (isFolded : Bool) (rest : List Char) : Option Lexer := do
  let lexer ← lexer.forgetKey?
  let (text, after) ← readBlock? isFolded lexer.indent rest
  let form : Form := if isFolded then .other else .literal
  return ((lexer.allowKey true).push (.scalar form (String.ofList text))).moveTo after

/-- A scalar between quotes. -/
def quoted? (lexer : Lexer) (scalar? : Option QuotedScalar) : Option Lexer := do
  let lexer ← lexer.offerKey?
  let scalar ← scalar?
  let token : Token := .scalar .other (String.ofList scalar.text)
  return ((lexer.allowKey false).push token).moveTo scalar.rest

def plain? (lexer : Lexer) : Option Lexer := do
  let lexer ← lexer.offerKey?
  let cursor := lexer.cursor
  let scalar ←
    readPlain? lexer.inFlow (lexer.indent + 1).toNat cursor.column [] .empty cursor.rest
  let token : Token := .scalar .plain (String.ofList scalar.text)
  return ((lexer.allowKey scalar.endsLine).push token).moveTo scalar.rest

/-- Whether a plain scalar can start with a character. -/
def startsPlain (inFlow : Bool) (c : Char) (rest : List Char) : Bool :=
  if c == '-' then !rest.head?.any isWhite
  else if c == '?' || c == ':' then !inFlow && !atWordEnd rest
  else !isWhite c && !indicators.contains c

/-- The token that starts with a character. -/
def token? (lexer : Lexer) (c : Char) (rest : List Char) : Option Lexer :=
  let lineStart := lexer.cursor.column == 0
  let marks := lexer.inFlow || atWordEnd rest
  if lineStart && c == '%' then lexer.directive? rest
  else if lineStart && atBound (c :: rest) then
    lexer.bound? (if c == '-' then .documentStart else .documentEnd)
  else if c == '[' then lexer.openBracket? .bracketOpen
  else if c == '\x7b' then lexer.openBracket? .braceOpen
  else if c == ']' then lexer.closeBracket? .bracketClose
  else if c == '\x7d' then lexer.closeBracket? .braceClose
  else if c == ',' then lexer.separator?
  else if c == '-' && atWordEnd rest then lexer.item?
  else if c == '?' && marks then lexer.key?
  else if c == ':' && marks then lexer.value?
  else if c == '*' then lexer.name? .alias rest
  else if c == '&' then lexer.name? .anchor rest
  else if c == '!' then lexer.tag?
  else if c == '|' && !lexer.inFlow then lexer.block? false rest
  else if c == '>' && !lexer.inFlow then lexer.block? true rest
  else if c == '\'' then lexer.quoted? (readSingleQuoted? false [] .empty rest)
  else if c == '"' then lexer.quoted? (readDoubleQuoted? false [] .empty rest)
  else if startsPlain lexer.inFlow c rest then lexer.plain?
  else none

/-- The tokens of the rest of a text, of which there are at most that many. -/
def run? : Nat → Lexer → Option (List Token)
  | 0, _ => none
  | fuel + 1, lexer => do
    let lexer ← lexer.skipBlanks.dropStaleKeys?
    let lexer := lexer.closeBlocks lexer.cursor.column
    match lexer.cursor.rest with
    | [] => do
      let lexer ← (lexer.closeBlocks (-1)).forgetKey?
      return lexer.tokens.reverse
    | c :: rest => run? fuel (← lexer.token? c rest)

end Lexer

/-- The tokens of a text: none if it has no reading. -/
def tokens? (text : String) : Option (List Token) :=
  (documentChars? text).bind fun chars => (Lexer.start chars).run? (chars.length + 1)

end Dataflow.Yaml
