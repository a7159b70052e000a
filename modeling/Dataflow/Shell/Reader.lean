/-
# Reading shell scripts

A script is read from its start, one complete line of commands at a time, so that
what stands before a fault can already have run. Words are read together with the
scripts within them.
-/

import Dataflow.Shell.Chars
import Dataflow.Shell.Script

namespace Dataflow.Shell

/-- What is left of a script, and the number of the line where it starts. -/
structure Source where
  chars : List Char
  line : Nat

/-- Why a text is no script. -/
inductive SyntaxFault where
  | openQuote
  | openBackquote
  | openSum
  | openBraces
  | loopVariable
  | functionName
  | unexpected (found : String) (expected : Option String)
  | tooDeep
deriving DecidableEq, Repr

def SyntaxFault.message (fault : SyntaxFault) : String :=
  "Syntax error: " ++
    match fault with
    | .openQuote => "Unterminated quoted string"
    | .openBackquote => "EOF in backquote substitution"
    | .openSum => "Missing '))'"
    | .openBraces => "Missing '\x7d'"
    | .loopVariable => "Bad for loop variable"
    | .functionName => "Bad function name"
    | .unexpected found none => found ++ " unexpected"
    | .unexpected found (some expected) =>
      found ++ " unexpected (expecting \"" ++ expected ++ "\")"
    | .tooDeep => "too deep"

/-- A fault and the number of its line. -/
structure ReadError where
  line : Nat
  fault : SyntaxFault

/-- The source after some of its characters. -/
def Source.advanced (source : Source) (rest : List Char) : Source :=
  ⟨rest, source.line + (source.chars.count '\n' - rest.count '\n')⟩

/-- Reading from a source. -/
abbrev Reading := StateT Source (Except ReadError)

/-- Characters without the blanks and the comment at their start. -/
def afterGaps : List Char → List Char
  | '\\' :: '\n' :: rest => afterGaps rest
  | c :: rest =>
    if c == ' ' || c == '\t' then afterGaps rest
    else if c == '#' then rest.dropWhile (· != '\n')
    else c :: rest
  | [] => []

/-- Characters without the blanks, comments and line ends at their start, at most so
many. -/
def afterLineEnds : Nat → List Char → List Char
  | 0, chars => chars
  | fuel + 1, chars =>
    match afterGaps chars with
    | '\n' :: rest => afterLineEnds fuel rest
    | rest => rest

/-- Whether a character ends a word. -/
def endsWord (c : Char) : Bool :=
  isGap c || [';', '&', '|', '<', '>', '(', ')'].contains c

/-- The operators between commands, each before those that it starts with. -/
def operators : List String := ["&&", "||", ";;", ";", "&", "|", "(", ")"]

/-- The words that have a meaning where a command may start. -/
def keywords : List String :=
  ["!", "\x7b", "\x7d", "case", "do", "done", "elif", "else", "esac", "fi", "for", "if", "then",
    "until", "while"]

/-- The words that close a part of a command. -/
def closingWords : List String := ["\x7d", "do", "done", "elif", "else", "esac", "fi", "then"]

/-- Whether characters start with a text. -/
def startsWith (text : String) (chars : List Char) : Bool := text.toList.isPrefixOf chars

/-- The characters up to the end of a word. -/
def wordAt (chars : List Char) : String := String.ofList (chars.takeWhile (!endsWord ·))

/-- What a complaint calls the start of characters. -/
def tokenName (chars : List Char) : String :=
  match chars with
  | [] => "end of file"
  | '\n' :: _ => "newline"
  | '<' :: _ | '>' :: _ => "redirection"
  | _ =>
    match (operators.find? fun text => startsWith text chars).or
        (keywords.find? fun text => text == wordAt chars) with
    | some text => "\"" ++ text ++ "\""
    | none => "word"

/-- Whether a list of commands ends here. -/
def endsList (chars : List Char) : Bool :=
  chars.isEmpty || startsWith ")" chars || startsWith ";;" chars ||
    closingWords.contains (wordAt chars)

/-- The operators that change channels, each before those that it starts with. -/
def redirectOperators : List String := ["<<-", "<<", "<&", "<>", "<", ">>", ">&", ">|", ">"]

/-- The change of a channel that starts here: the number of the channel if it is
given, the operator, and what comes after it. -/
def redirectAt? (chars : List Char) : Option (Option Nat × String × List Char) :=
  let (channel, rest) :=
    match chars with
    | c :: rest => if c.isDigit then (some (c.toNat - '0'.toNat), rest) else (none, chars)
    | [] => (none, [])
  (redirectOperators.find? fun text => startsWith text rest).map fun text =>
    (channel, text, rest.drop text.length)

/-- What surrounds text in which blanks have no meaning. -/
inductive Frame where
  | quotes
  | braces
  | document
deriving DecidableEq, Repr

namespace Frame

/-- Whether a character closes a frame. -/
def closes (frame : Frame) (c : Char) : Bool :=
  match frame with
  | .quotes => c == '"'
  | .braces => c == '\x7d'
  | .document => false

/-- Whether a backslash before a character takes its meaning away. -/
def escapes (frame : Frame) (c : Char) : Bool :=
  c == '$' || c == '\x60' || c == '\\' || (c == '"' && frame != .document) || frame.closes c

/-- Whether a character stands for itself. -/
def isPlain (frame : Frame) (c : Char) : Bool :=
  !frame.closes c && !(['\\', '$', '\x60'].contains c) && !(c == '"' && frame == .braces)

end Frame

/-- Names of variables that are single characters. -/
def specialNames : List Char := ['@', '*', '#', '?', '$', '!', '-']

/-- The name of a variable at the start of characters, and what comes after it. Digits
are taken together only between braces. -/
def splitName (inBraces : Bool) (chars : List Char) : List Char × List Char :=
  match chars with
  | c :: rest =>
    if specialNames.contains c then ([c], rest)
    else if c.isDigit then if inBraces then chars.span Char.isDigit else ([c], rest)
    else chars.span isNameChar
  | [] => ([], [])

/-- The change that characters after the name of a variable start, as far as its word:
what the word makes of it, and the characters of the word. -/
def changeAt? (chars : List Char) : Option ((Word → Change) × List Char) :=
  let fallback (emptyToo : Bool) : List Char → Option ((Word → Change) × List Char)
    | '-' :: rest => some (.fallback .instead emptyToo, rest)
    | '=' :: rest => some (.fallback .assigned emptyToo, rest)
    | '+' :: rest => some (.fallback .replaced emptyToo, rest)
    | '?' :: rest => some (.fallback .required emptyToo, rest)
    | _ => none
  match chars with
  | '#' :: '#' :: rest => some (.cut false true, rest)
  | '#' :: rest => some (.cut false false, rest)
  | '%' :: '%' :: rest => some (.cut true true, rest)
  | '%' :: rest => some (.cut true false, rest)
  | ':' :: rest => fallback true rest
  | _ => fallback false chars

/-- Whether a word of a change is a pattern. -/
def isPatternMark (chars : List Char) : Bool :=
  chars.head? == some '#' || chars.head? == some '%'

/-- The characters up to the first of a kind that no backslash precedes, and what comes
after it. -/
def splitAtMark? (mark : Char) : List Char → Option (List Char × List Char)
  | '\\' :: c :: rest =>
    (splitAtMark? mark rest).map fun (text, after) => ('\\' :: c :: text, after)
  | c :: rest =>
    if c == mark then some ([], rest)
    else (splitAtMark? mark rest).map fun (text, after) => (c :: text, after)
  | [] => none

/-- A script between backquotes as it would stand by itself. -/
def withoutBackquoteEscapes (isQuoted : Bool) : List Char → List Char
  | '\\' :: c :: rest =>
    let isEscaped := c == '$' || c == '\x60' || c == '\\' || (isQuoted && c == '"')
    (if isEscaped then [c] else ['\\', c]) ++ withoutBackquoteEscapes isQuoted rest
  | c :: rest => c :: withoutBackquoteEscapes isQuoted rest
  | [] => []

/-- The text of a word without expansions, and whether a part of it is quoted. -/
def literal? (word : Word) : Option (List Char × Bool) :=
  let partOf? : Piece → Option (List Char × Bool)
    | .text isQuoted chars => some (chars, isQuoted)
    | _ => none
  (word.mapM partOf?).map fun parts => (parts.flatMap Prod.fst, parts.any Prod.snd)

/-- A word with the value of `HOME` for a tilde that stands alone or before a slash at
its start. -/
def withHome : Word → Word
  | .text false ('~' :: chars) :: rest =>
    let home : Piece := .variable true "HOME" (.fallback .instead false [.text true ['~']])
    if chars.isEmpty && rest.isEmpty then [home]
    else if chars.head? == some '/' then home :: .text false chars :: rest
    else .text false ('~' :: chars) :: rest
  | word => word

/-- An assignment: a name and the word that is its value. -/
def assignment? : Word → Option (String × Word)
  | .text false chars :: rest =>
    let name := chars.takeWhile (· != '=')
    match chars.drop name.length with
    | '=' :: value =>
      if isName name then
        some (String.ofList name, if value.isEmpty then rest else withHome (.text false value :: rest))
      else none
    | _ => none
  | _ => none

/-- The lines of a document up to the one that ends it, and those after that. -/
def splitDocument (isIndented : Bool) (ending : List Char) :
    List (List Char) → List (List Char) × List (List Char)
  | [] => ([], [])
  | line :: rest =>
    let line := if isIndented then line.dropWhile (· == '\t') else line
    if line == ending then ([], rest)
    else
      let (body, after) := splitDocument isIndented ending rest
      (line :: body, after)

namespace Reading

/-- What is left. -/
def rest : Reading (List Char) := do return (← get).chars

/-- Go on at these characters, which end what is left. -/
def moveTo (chars : List Char) : Reading Unit := modify fun source => source.advanced chars

/-- Give up. -/
def fail {α : Type} (fault : SyntaxFault) : Reading α := do throw ⟨(← get).line, fault⟩

/-- Give up because of what stands here. -/
def unexpected {α : Type} (expected : Option String) : Reading α := do
  fail (.unexpected (tokenName (← rest)) expected)

/-- Go to the start of the next word or operator on the line. -/
def skipGaps : Reading Unit := do moveTo (afterGaps (← rest))

/-- Go to the start of the next word or operator. -/
def skipLineEnds : Reading Unit := do
  let chars ← rest
  moveTo (afterLineEnds (chars.length + 1) chars)

/-- Go past an operator if it stands here. -/
def accept (text : String) : Reading Bool := do
  let chars ← rest
  if startsWith text chars then
    moveTo (chars.drop text.length)
    return true
  else return false

/-- Go past a word if it stands here. -/
def acceptWord (text : String) : Reading Bool := do
  if wordAt (← rest) == text then accept text else return false

/-- Go past an operator that has to stand here. -/
def expect (text : String) : Reading Unit := do
  skipGaps
  if !(← accept text) then unexpected (some text)

/-- Go past a word that has to stand here. -/
def expectWord (text : String) : Reading Unit := do
  skipLineEnds
  if !(← acceptWord text) then unexpected (some text)

/-- Read from another source. -/
def within {α : Type} (chars : List Char) (read : Reading α) : Reading α := do
  match read.run ⟨chars, (← get).line⟩ with
  | .ok (result, _) => return result
  | .error fault => throw fault

end Reading

open Reading

mutual

/-- The pieces of a word up to a character that ends it. -/
def readPieces (ends : Char → Bool) : Nat → Reading Word
  | 0 => fail .tooDeep
  | fuel + 1 => do
    match ← rest with
    | [] => return []
    | '\\' :: '\n' :: rest =>
      moveTo rest
      readPieces ends fuel
    | '\\' :: c :: rest =>
      moveTo rest
      return .text true [c] :: (← readPieces ends fuel)
    | '\'' :: rest =>
      let quoted := rest.takeWhile (· != '\'')
      if rest.length == quoted.length then fail .openQuote
      else
        moveTo (rest.drop (quoted.length + 1))
        return .text true quoted :: (← readPieces ends fuel)
    | '"' :: rest =>
      moveTo rest
      let quoted ← readFramed .quotes fuel
      moveTo ((← Reading.rest).drop 1)
      let quoted := if quoted.isEmpty then [.text true []] else quoted
      return quoted ++ (← readPieces ends fuel)
    | '$' :: rest =>
      moveTo rest
      return (← readExpansion false fuel) :: (← readPieces ends fuel)
    | '\x60' :: rest =>
      moveTo rest
      return (← readBackquoted false fuel) :: (← readPieces ends fuel)
    | c :: rest =>
      if ends c then return []
      else
        let isPlain (c : Char) : Bool := !ends c && !(['\\', '\'', '"', '$', '\x60'].contains c)
        moveTo (rest.dropWhile isPlain)
        return .text false (c :: rest.takeWhile isPlain) :: (← readPieces ends fuel)

/-- The pieces up to the end of a frame. -/
def readFramed (frame : Frame) : Nat → Reading Word
  | 0 => fail .tooDeep
  | fuel + 1 => do
    match ← rest with
    | [] =>
      match frame with
      | .quotes => fail .openQuote
      | .braces => fail .openBraces
      | .document => return []
    | '\\' :: '\n' :: rest =>
      moveTo rest
      readFramed frame fuel
    | '\\' :: c :: rest =>
      moveTo rest
      return .text true (if frame.escapes c then [c] else ['\\', c]) :: (← readFramed frame fuel)
    | '$' :: rest =>
      moveTo rest
      return (← readExpansion true fuel) :: (← readFramed frame fuel)
    | '\x60' :: rest =>
      moveTo rest
      return (← readBackquoted true fuel) :: (← readFramed frame fuel)
    | c :: rest =>
      if frame.closes c then return []
      else
        moveTo (rest.dropWhile frame.isPlain)
        let text := c :: rest.takeWhile frame.isPlain
        let text := if frame == .braces then text.filter (· != '"') else text
        return .text true text :: (← readFramed frame fuel)

/-- The pieces of an arithmetic expression up to its end, with so many parentheses
open in it. -/
def readSum (depth : Nat) : Nat → Reading Word
  | 0 => fail .tooDeep
  | fuel + 1 => do
    match ← rest with
    | [] => fail .openSum
    | '$' :: rest =>
      moveTo rest
      return (← readExpansion true fuel) :: (← readSum depth fuel)
    | '\x60' :: rest =>
      moveTo rest
      return (← readBackquoted true fuel) :: (← readSum depth fuel)
    | '(' :: rest =>
      moveTo rest
      return .text true ['('] :: (← readSum (depth + 1) fuel)
    | ')' :: rest =>
      match depth, rest with
      | depth + 1, _ =>
        moveTo rest
        return .text true [')'] :: (← readSum depth fuel)
      | 0, ')' :: rest =>
        moveTo rest
        return []
      | 0, _ => fail .openSum
    | '\\' :: c :: rest =>
      moveTo rest
      return (if c == '\n' then [] else [.text true ['\\', c]]) ++ (← readSum depth fuel)
    | '"' :: rest =>
      moveTo rest
      readSum depth fuel
    | c :: rest =>
      let isPlain (c : Char) : Bool := !(['$', '\x60', '(', ')', '\\', '"'].contains c)
      moveTo (rest.dropWhile isPlain)
      return .text true (c :: rest.takeWhile isPlain) :: (← readSum depth fuel)

/-- The expansion after a dollar sign. -/
def readExpansion (isQuoted : Bool) : Nat → Reading Piece
  | 0 => fail .tooDeep
  | fuel + 1 => do
    match ← rest with
    | '(' :: '(' :: rest =>
      moveTo rest
      return .sum isQuoted (← readSum 0 fuel)
    | '(' :: rest =>
      moveTo rest
      let script ← readList false true fuel
      skipLineEnds
      expect ")"
      return .output isQuoted script
    | '\x7b' :: rest =>
      moveTo rest
      readBraced isQuoted fuel
    | chars =>
      match splitName false chars with
      | ([], _) => return .text isQuoted ['$']
      | (name, after) =>
        moveTo after
        return .variable isQuoted (String.ofList name) .none

/-- The expansion after its opening brace. -/
def readBraced (isQuoted : Bool) : Nat → Reading Piece
  | 0 => fail .tooDeep
  | fuel + 1 => do
    let chars ← rest
    let close (name : List Char) (change : Change) : Reading Piece := do
      if ← accept "\x7d" then return .variable isQuoted (String.ofList name) change
      else fail .openBraces
    let measured : Option (List Char × List Char) :=
      match chars with
      | '#' :: rest =>
        match splitName true rest with
        | ([], _) => none
        | (name, after) => if after.head? == some '\x7d' then some (name, after) else none
      | _ => none
    match measured with
    | some (name, after) =>
      moveTo after
      close name .length
    | none =>
      let (name, after) := splitName true chars
      if !name.isEmpty && after.head? == some '\x7d' then
        moveTo after
        close name .none
      else
        match if name.isEmpty then none else changeAt? after with
        | some (change, word) =>
          moveTo word
          let word ←
            if isQuoted && !isPatternMark after then readFramed .braces fuel
            else readPieces (· == '\x7d') fuel
          close name (change word)
        | none =>
          let mark := if startsWith ":" after then 2 else if startsWith "\x7d" after then 0 else 1
          moveTo (after.drop mark)
          let _ ← readFramed .braces fuel
          close name .meaningless

/-- The script after a backquote. -/
def readBackquoted (isQuoted : Bool) : Nat → Reading Piece
  | 0 => fail .tooDeep
  | fuel + 1 => do
    match splitAtMark? '\x60' (← rest) with
    | none => fail .openBackquote
    | some (text, after) =>
      let script ← within (withoutBackquoteEscapes isQuoted text) (readList false true fuel)
      moveTo after
      return .output isQuoted script

/-- A text that is given as input, after its operator. -/
def readDocument (isIndented : Bool) : Nat → Reading Redirect
  | 0 => fail .tooDeep
  | fuel + 1 => do
    skipGaps
    match ← readPieces endsWord fuel with
    | [] => unexpected none
    | word =>
      let (ending, isQuoted) := (literal? word).getD ([], true)
      let chars ← rest
      let line := chars.takeWhile (· != '\n')
      let below := chars.drop (line.length + 1)
      let (body, after) := splitDocument isIndented ending (linesOf below)
      moveTo (line ++ '\n' :: unlines after)
      let body := unlines body
      if isQuoted then return .text [.text true body]
      else return .text (← within body (readFramed .document fuel))

/-- The changes of channels here. -/
def readRedirects : Nat → Reading (List Redirect)
  | 0 => fail .tooDeep
  | fuel + 1 => do
    skipGaps
    match redirectAt? (← rest) with
    | none => return []
    | some (channel, operator, after) =>
      moveTo after
      let redirect ←
        if operator == "<<" then readDocument false fuel
        else if operator == "<<-" then readDocument true fuel
        else do
          skipGaps
          let word := withHome (← readPieces endsWord fuel)
          if word.isEmpty then unexpected none
          else
            match operator with
            | "<&" => pure (.join (channel.getD 0) word)
            | ">&" => pure (.join (channel.getD 1) word)
            | "<" | "<>" => pure (.file (channel.getD 0) .read word)
            | ">>" => pure (.file (channel.getD 1) .append word)
            | _ => pure (.file (channel.getD 1) .write word)
      return redirect :: (← readRedirects fuel)

/-- The assignments, words and changes of channels of a simple command. -/
def readItems (hasWords : Bool) :
    Nat → Reading (List (String × Word) × List Word × List Redirect)
  | 0 => fail .tooDeep
  | fuel + 1 => do
    let redirects ← readRedirects fuel
    match ← readPieces endsWord fuel with
    | [] => return ([], [], redirects)
    | word =>
      match if hasWords then none else assignment? word with
      | some assignment =>
        let (assignments, words, further) ← readItems false fuel
        return (assignment :: assignments, words, redirects ++ further)
      | none =>
        skipGaps
        if !hasWords && startsWith "(" (← rest) then return ([], [word], redirects)
        else
          let (assignments, words, further) ← readItems true fuel
          return (assignments, withHome word :: words, redirects ++ further)

/-- A simple command or the definition of a function. -/
def readSimple : Nat → Reading Action
  | 0 => fail .tooDeep
  | fuel + 1 => do
    let line := (← get).line
    let (assignments, words, redirects) ← readItems false fuel
    if assignments.isEmpty && words.isEmpty && redirects.isEmpty then unexpected none
    else if startsWith "(" (← rest) && words.length == 1 && assignments.isEmpty then do
      let name := (words.head?.bind literal?).getD ([], true)
      moveTo ((← rest).drop 1)
      expect ")"
      if name.2 || !isName name.1 then fail .functionName
      else
        skipLineEnds
        return .define (String.ofList name.1) (← readCommand fuel)
    else return .simple line assignments words redirects

/-- A command. -/
def readCommand : Nat → Reading Action
  | 0 => fail .tooDeep
  | fuel + 1 => do
    skipGaps
    let redirected (body : Action) : Reading Action := do
      match ← readRedirects fuel with
      | [] => return body
      | redirects => return .redirected body redirects
    if ← accept "(" then
      let body ← readList false false fuel
      expect ")"
      redirected (.separate body)
    else
      let word := wordAt (← rest)
      if !keywords.contains word then readSimple fuel
      else if closingWords.contains word || word == "!" then unexpected none
      else
        let _ ← accept word
        match word with
        | "if" => redirected (← readChoice fuel)
        | "for" => redirected (← readFor fuel)
        | "case" => redirected (← readCases fuel)
        | "\x7b" =>
          let body ← readList false false fuel
          expectWord "\x7d"
          redirected body
        | _ =>
          let condition ← readList false false fuel
          redirected (.loop (word == "until") condition (← readBody fuel))

/-- The body of a loop between its words. -/
def readBody : Nat → Reading Action
  | 0 => fail .tooDeep
  | fuel + 1 => do
    expectWord "do"
    let body ← readList false false fuel
    expectWord "done"
    return body

/-- A choice after its first word. -/
def readChoice : Nat → Reading Action
  | 0 => fail .tooDeep
  | fuel + 1 => do
    let condition ← readList false false fuel
    expectWord "then"
    let whenSo ← readList false false fuel
    skipLineEnds
    if ← acceptWord "elif" then return .choice condition whenSo (← readChoice fuel)
    else if ← acceptWord "else" then
      let otherwise ← readList false false fuel
      expectWord "fi"
      return .choice condition whenSo otherwise
    else
      expectWord "fi"
      return .choice condition whenSo .nothing

/-- Words up to the end of a line or a semicolon. -/
def readWords : Nat → Reading (List Word)
  | 0 => fail .tooDeep
  | fuel + 1 => do
    skipGaps
    match ← readPieces endsWord fuel with
    | [] => return []
    | word => return withHome word :: (← readWords fuel)

/-- A loop over words after its first word. -/
def readFor : Nat → Reading Action
  | 0 => fail .tooDeep
  | fuel + 1 => do
    skipGaps
    match literal? (← readPieces endsWord fuel) with
    | some (name, false) =>
      if !isName name then fail .loopVariable
      else
        skipLineEnds
        let words ←
          if ← acceptWord "in" then do
            let words ← readWords fuel
            if !(startsWith ";" (← rest) || startsWith "\n" (← rest)) then unexpected none
            else pure (some words)
          else pure none
        let _ ← accept ";"
        return .forEach (String.ofList name) words (← readBody fuel)
    | _ => fail .loopVariable

/-- A choice by patterns after its first word. -/
def readCases : Nat → Reading Action
  | 0 => fail .tooDeep
  | fuel + 1 => do
    skipGaps
    match ← readPieces endsWord fuel with
    | [] => unexpected none
    | subject =>
      expectWord "in"
      return .cases (withHome subject) (← readBranches fuel)

/-- The branches of a choice by patterns, and the word that closes it. -/
def readBranches : Nat → Reading (List (List Word × Action))
  | 0 => fail .tooDeep
  | fuel + 1 => do
    skipLineEnds
    if ← acceptWord "esac" then return []
    else
      let _ ← accept "("
      let patterns ← readPatterns fuel
      let body ← readList false true fuel
      skipLineEnds
      if ← accept ";;" then return (patterns, body) :: (← readBranches fuel)
      else if ← acceptWord "esac" then return [(patterns, body)]
      else unexpected (some ";;")

/-- The patterns of a branch up to the parenthesis after them. -/
def readPatterns : Nat → Reading (List Word)
  | 0 => fail .tooDeep
  | fuel + 1 => do
    skipGaps
    match ← readPieces endsWord fuel with
    | [] => unexpected none
    | pattern =>
      skipGaps
      if ← accept "|" then return pattern :: (← readPatterns fuel)
      else
        expect ")"
        return [pattern]

/-- Commands of which each reads what the one before writes. -/
def readPipe : Nat → Reading Action
  | 0 => fail .tooDeep
  | fuel + 1 => do
    let first ← readCommand fuel
    skipGaps
    if !startsWith "||" (← rest) then
      if ← accept "|" then
        skipLineEnds
        return .pipe first (← readPipe fuel)
      else return first
    else return first

/-- A pipe that may be negated. -/
def readNegated : Nat → Reading Action
  | 0 => fail .tooDeep
  | fuel + 1 => do
    skipGaps
    if ← acceptWord "!" then return .negated (← readPipe fuel) else readPipe fuel

/-- What depends on how a command ends. -/
def readChain (first : Action) : Nat → Reading Action
  | 0 => fail .tooDeep
  | fuel + 1 => do
    skipGaps
    if ← accept "&&" then
      skipLineEnds
      readChain (.both first (← readNegated fuel)) fuel
    else if ← accept "||" then
      skipLineEnds
      readChain (.either first (← readNegated fuel)) fuel
    else return first

/-- The commands up to the end of a line, or up to the end of what they are a part of.
There may have to be one. -/
def readList (oneLine mayBeEmpty : Bool) : Nat → Reading Action
  | 0 => fail .tooDeep
  | fuel + 1 => do
    if oneLine then skipGaps else skipLineEnds
    let chars ← rest
    if chars.isEmpty || (mayBeEmpty && (endsList chars || (oneLine && startsWith "\n" chars))) then
      return .nothing
    else
      let first ← readChain (← readNegated fuel) fuel
      let chars ← rest
      if startsWith ";;" chars then return first
      else if ← accept ";" then return .sequence first (← readList oneLine true fuel)
      else if ← accept "&" then
        return .sequence (.detached first) (← readList oneLine true fuel)
      else if startsWith "\n" chars && !oneLine then
        return .sequence first (← readList oneLine true fuel)
      else return first

end

/-- The next complete line of commands, and what comes after it; none at the end. -/
def readLine? (source : Source) : Except ReadError (Option (Action × Source)) :=
  let source := source.advanced (afterLineEnds (source.chars.length + 1) source.chars)
  if source.chars.isEmpty then .ok none
  else
    let read : Reading Action := do
      let action ← readList true false (12 * source.chars.length + 24)
      skipGaps
      if (← rest).isEmpty || (← accept "\n") then return action else unexpected none
    (read.run source).map some

end Dataflow.Shell
