/-
# Tests of shell scripts

A test asks about texts, numbers and files. Its words are taken from the left; whether
one is an operator depends on the words after it.
-/

import Dataflow.FileTree
import Dataflow.Shell.Chars

namespace Dataflow.Shell

/-- What a word of a test may mean. -/
inductive TestSign where
  | unary
  | binary
  | both
  | either
  | negation
  | opening
  | closing
deriving DecidableEq, Repr

/-- Why words are no test. -/
inductive TestFault where
  | unexpected (word : String)
  | noArgument (word : String)
  | noClose
  | noNumber (word : String)
deriving DecidableEq, Repr

def TestFault.message : TestFault → String
  | .unexpected word => (if word.isEmpty then "" else word ++ ": ") ++ "unexpected operator"
  | .noArgument word => word ++ ": argument expected"
  | .noClose => "closing paren expected"
  | .noNumber word => "Illegal number: " ++ word

namespace TestSign

/-- The meaning of a word by itself. -/
def of? (word : String) : Option TestSign :=
  if ["-r", "-w", "-x", "-e", "-f", "-d", "-c", "-b", "-p", "-u", "-g", "-k", "-s", "-t", "-z",
      "-n", "-h", "-O", "-G", "-L", "-S"].contains word then some .unary
  else if ["=", "!=", "<", ">", "-eq", "-ne", "-ge", "-gt", "-le", "-lt", "-nt", "-ot",
      "-ef"].contains word then some .binary
  else
    match word with
    | "-a" => some .both
    | "-o" => some .either
    | "!" => some .negation
    | "(" => some .opening
    | ")" => some .closing
    | _ => none

/-- The meaning of the first of some words, if it is an operator there. -/
def at? (words : List String) : Option TestSign :=
  match words with
  | [] => none
  | word :: after =>
    match of? word, after with
    | some .unary, [] => none
    | some .unary, [_] => some .unary
    | some .unary, next :: _ => if of? next == some .binary then none else some .unary
    | some .opening, [] => none
    | sign, _ => sign

end TestSign

/-- The mark that programs start with. -/
def programMark : List Text.Byte := [0x7f, 0x45, 0x4c, 0x46]

/-- Whether something is a program. -/
def isProgram : FileEntry → Bool
  | .file content => programMark.isPrefixOf content
  | .directory => false

/-- What is at a path, as far as it is known. -/
abbrev Lookup := String → Option FileEntry

/-- The answer to a question about one word. -/
def asks (lookup : Lookup) (question word : String) : Bool :=
  match question with
  | "-z" => word.isEmpty
  | "-n" => !word.isEmpty
  | "-e" | "-r" | "-w" => (lookup word).isSome
  | "-f" => (lookup word).any fun entry => entry != .directory
  | "-d" => (lookup word).any fun entry => entry == .directory
  | "-x" => (lookup word).any fun entry => entry == .directory || isProgram entry
  | "-s" => (lookup word).any fun entry => entry != .file []
  | _ => false

/-- The answer to a question about two words. -/
def asksBoth (question left right : String) : Except TestFault Bool :=
  let compare (holds : Int → Int → Bool) : Except TestFault Bool :=
    match decimal? left, decimal? right with
    | some n, some m => .ok (holds n m)
    | none, _ => .error (.noNumber left)
    | _, none => .error (.noNumber right)
  match question with
  | "=" => .ok (left == right)
  | "!=" => .ok (left != right)
  | "<" => .ok (left < right)
  | ">" => .ok (right < left)
  | "-eq" => compare fun n m => n == m
  | "-ne" => compare fun n m => n != m
  | "-lt" => compare fun n m => n < m
  | "-le" => compare fun n m => n ≤ m
  | "-gt" => compare fun n m => n > m
  | "-ge" => compare fun n m => n ≥ m
  | _ => .ok false

namespace Testing

mutual

/-- Tests of which one has to hold, at words of which the first has this meaning. The
answer comes with the words from the last one that was taken. -/
def anyOf (lookup : Lookup) :
    Nat → Option TestSign → List String → Except TestFault (Bool × List String)
  | 0, _, words => .ok (false, words)
  | fuel + 1, sign, words => do
    let (holds, words) ← allOf lookup fuel sign words
    if TestSign.at? (words.drop 1) == some .either then
      let words := words.drop 2
      let (further, words) ← anyOf lookup fuel (TestSign.at? words) words
      return (holds || further, words)
    else return (holds, words)

/-- Tests of which all have to hold. -/
def allOf (lookup : Lookup) :
    Nat → Option TestSign → List String → Except TestFault (Bool × List String)
  | 0, _, words => .ok (false, words)
  | fuel + 1, sign, words => do
    let (holds, words) ← one lookup fuel sign words
    if TestSign.at? (words.drop 1) == some .both then
      let words := words.drop 2
      let (further, words) ← allOf lookup fuel (TestSign.at? words) words
      return (holds && further, words)
    else return (holds, words)

def one (lookup : Lookup) :
    Nat → Option TestSign → List String → Except TestFault (Bool × List String)
  | 0, _, words => .ok (false, words)
  | fuel + 1, sign, words => do
    match sign, words with
    | _, [] => return (false, [])
    | some .negation, word :: rest =>
      let (holds, words) ← one lookup fuel (TestSign.at? rest) (if rest.isEmpty then [word] else rest)
      return (!holds && !rest.isEmpty || rest.isEmpty, words)
    | some .opening, _ :: rest =>
      if TestSign.at? rest == some .closing then return (false, rest)
      else
        let (holds, words) ← anyOf lookup fuel (TestSign.at? rest) rest
        if TestSign.at? (words.drop 1) == some .closing then return (holds, words.drop 1)
        else throw .noClose
    | some .unary, question :: rest =>
      match rest with
      | word :: _ => return (asks lookup question word, rest)
      | [] => throw (.noArgument question)
    | _, left :: rest =>
      match TestSign.at? rest, rest with
      | some .binary, question :: after =>
        match after with
        | right :: _ => return (← asksBoth question left right, after)
        | [] => throw (.noArgument question)
      | _, _ => return (!left.isEmpty, words)

end

end Testing

/-- Whether all of some words make a test that holds, the first having this meaning. -/
def testAll (lookup : Lookup) (sign : Option TestSign) (words : List String) :
    Except TestFault Bool := do
  let (holds, left) ← Testing.anyOf lookup (4 * words.length + 4) sign words
  match left with
  | word :: _ :: _ => throw (.unexpected word)
  | _ => return holds

/-- Whether the middle one of three words decides what they mean. -/
def isQuestion (words : List String) : Bool :=
  words.length == 3 && (words[1]?.bind TestSign.of?) == some .binary

/-- Words without the opposites that stand before three or two others, and whether
there are any. -/
def withoutOpposites : List String → Bool × List String
  | [] => (false, [])
  | word :: rest =>
    let isLong := rest.length == 2 || rest.length == 3
    if isLong && word == "!" && !isQuestion (word :: rest) then
      (true, (withoutOpposites rest).2)
    else (false, word :: rest)

/-- Whether the test of some words holds. Of three words the middle one decides first
what they mean, and of three or four an opposite or parentheses count for all. However
many opposites stand first, they count as one. -/
def test (lookup : Lookup) (words : List String) : Except TestFault Bool := do
  let (isNegated, words) := withoutOpposites words
  let isLong := words.length == 3 || words.length == 4
  let holds ←
    if isQuestion words then testAll lookup none words
    else if isLong && words.head? == some "(" && words.getLast? == some ")" then
      let inner := (words.drop 1).dropLast
      testAll lookup (TestSign.at? inner) inner
    else testAll lookup (TestSign.at? words) words
  return isNegated != holds

end Dataflow.Shell
