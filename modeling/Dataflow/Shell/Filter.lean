/-
# Filters

Tools that turn texts into texts: they read files or what is given to them, and write
what they make of it.
-/

import Dataflow.Shell.Arguments
import Dataflow.Shell.Edit
import Dataflow.Shell.Format

namespace Dataflow.Shell

/-- What a tool leaves. -/
structure Report where
  /-- Whether it failed, and how; zero means success. -/
  status : Nat
  /-- What it writes. -/
  output : List Char
  /-- What it complains about. -/
  complaints : List Char

/-- Why a file cannot be read. -/
inductive FileTrouble where
  | missing
  | directory
deriving DecidableEq, Repr

def FileTrouble.message : FileTrouble → String
  | .missing => "No such file or directory"
  | .directory => "Is a directory"

/-- What a tool can read. -/
structure Supply where
  /-- What is given to it. -/
  input : List Char
  read : String → Except FileTrouble (List Char)

namespace Report

/-- Success with an output. -/
def success (output : List Char) : Report := ⟨0, output, []⟩

/-- A complaint of a tool. -/
def trouble (status : Nat) (tool text : String) : Report :=
  ⟨status, [], (tool ++ ": " ++ text ++ "\n").toList⟩

/-- A complaint of a tool about how it was called. -/
def misuse (status : Nat) (tool text : String) : Report :=
  trouble status tool (text ++ "\nTry '" ++ tool ++ " --help' for more information.")

/-- One report after the other; the later status counts unless it is success. -/
def append (first second : Report) : Report :=
  ⟨if second.status == 0 then first.status else second.status, first.output ++ second.output,
    first.complaints ++ second.complaints⟩

end Report

/-- A tool that reads and writes texts. -/
abbrev Filter := Supply → List String → Report

namespace Filter

/-- How some tools say that they are called, after a complaint. -/
def usageOf? (tool : String) : Option String :=
  if tool == "grep" then some "\nUsage: grep [OPTION]... PATTERNS [FILE]..." else none

/-- A tool with the options that it knows. -/
def withOptions (tool known valued : String) (status : Nat) (onlyFirst : Bool)
    (run : Supply → Arguments → Report) : Filter := fun supply words =>
  match Arguments.read ⟨known.toList, valued.toList, longOptions tool, onlyFirst⟩ words with
  | .ok arguments => run supply arguments
  | .error fault => .misuse status tool (fault.message ++ (usageOf? tool).getD "")

/-- The texts that operands name, or what is given if there are none, each turned into
an output; a complaint where there is none. What is given can be read only once. -/
def each (tool : String) (status : Nat) (trouble : String → FileTrouble → String)
    (supply : Supply) (operands : List String) (run : String → List Char → List Char) : Report :=
  let one (operand : String) (input : List Char) : Report :=
    if operand == "-" then .success (run operand input)
    else
      match supply.read operand with
      | .ok text => .success (run operand text)
      | .error cause => .trouble status tool (trouble operand cause)
  if operands.isEmpty then .success (run "" supply.input)
  else
    (operands.foldl
      (fun (report, input) operand =>
        (Report.append report (one operand input), if operand == "-" then [] else input))
      (Report.success [], supply.input)).1

/-- A complaint that names a file first. -/
def named (operand : String) (cause : FileTrouble) : String := operand ++ ": " ++ cause.message

/-- A complaint of a tool that looks at parts of files. -/
def opened (operand : String) : FileTrouble → String
  | .missing => "cannot open '" ++ operand ++ "' for reading: " ++ FileTrouble.missing.message
  | .directory => "error reading '" ++ operand ++ "': " ++ FileTrouble.directory.message

/-- Texts with what stands in all files, one after the other. -/
def whole (tool : String) (status : Nat) (supply : Supply) (operands : List String)
    (run : List Char → List Char) : Report :=
  let read := each tool status named supply operands fun _ text => text
  { read with output := run read.output }

/-- A number with blanks before it up to a width. -/
def column (width n : Nat) : List Char :=
  let digits := Nat.toDigits 10 n
  List.replicate (width - digits.length) ' ' ++ digits

/-- The files one after the other. -/
def cat : Filter := withOptions "cat" "nu" "" 1 false fun supply arguments =>
  let numbered (text : List Char) : List Char :=
    let lines := (linesOf text).zipIdx.flatMap fun (line, position) =>
      column 6 (position + 1) ++ '\t' :: line ++ ['\n']
    if isCutOff text then lines.dropLast else lines
  if arguments.has 'n' then whole "cat" 1 supply arguments.operands numbered
  else each "cat" 1 named supply arguments.operands fun _ text => text

/-- Words of which the first may be a number of lines after a dash. -/
def withCount (words : List String) : List String :=
  match words with
  | word :: rest =>
    match word.toList with
    | '-' :: digits =>
      if digits.isEmpty || !digits.all Char.isDigit then words
      else ("-n" ++ String.ofList digits) :: rest
    | _ => words
  | [] => []

/-- The first lines or characters of a text, or all but the last. -/
def head : Filter := fun supply words =>
  withOptions "head" "qvz" "nc" 1 false
    (fun supply arguments =>
      let isChars := arguments.has 'c'
      let value := (if isChars then arguments.value? 'c' else arguments.value? 'n').getD "10"
      match decimal? value with
      | none =>
        .trouble 1 "head"
          ("invalid number of " ++ (if isChars then "bytes" else "lines") ++ ": '" ++ value ++ "'")
      | some n =>
        let isRest := value.toList.head? == some '-'
        let first {α : Type} (items : List α) : List α :=
          items.take (if isRest then items.length - n.natAbs else n.toNat)
        each "head" 1 opened supply arguments.operands fun _ text =>
          if isChars then first text
          else
            let lines := linesOf text
            let kept := unlines (first lines)
            if isCutOff text && (first lines).length == lines.length then kept.dropLast else kept)
    supply (withCount words)

/-- The last lines or characters of a text, or those from a number on. -/
def tail : Filter := fun supply words =>
  withOptions "tail" "qvzf" "nc" 1 false
    (fun supply arguments =>
      let isChars := arguments.has 'c'
      let value := (if isChars then arguments.value? 'c' else arguments.value? 'n').getD "10"
      match decimal? value with
      | none =>
        .trouble 1 "tail"
          ("invalid number of " ++ (if isChars then "bytes" else "lines") ++ ": '" ++ value ++ "'")
      | some n =>
        let isFrom := value.toList.head? == some '+'
        let last {α : Type} (items : List α) : List α :=
          items.drop (if isFrom then n.natAbs - 1 else items.length - n.natAbs)
        each "tail" 1 opened supply arguments.operands fun _ text =>
          if isChars then last text
          else
            let lines := last (linesOf text)
            if isCutOff text && !lines.isEmpty then (unlines lines).dropLast else unlines lines)
    supply (withCount words)

/-- The words of a text. -/
def wordCount (text : List Char) : Nat :=
  ((Text.splitAt (fun c => c == ' ' || ('\t' ≤ c && c ≤ '\x0d')) text).filter fun word =>
    !word.isEmpty).length

/-- How many lines, words and characters there are. -/
def wc : Filter := withOptions "wc" "lwcmL" "" 1 false fun supply arguments =>
  let counts (text : List Char) : List Nat :=
    let wanted (letter : Char) : Bool := arguments.has letter
    let all := arguments.options.isEmpty
    let lengths := (linesOf text).map List.length
    (if all || wanted 'l' then [text.count '\n'] else []) ++
      (if all || wanted 'w' then [wordCount text] else []) ++
      (if wanted 'm' then [text.length] else []) ++
      (if all || wanted 'c' then [text.length] else []) ++
      (if wanted 'L' then [lengths.foldl max 0] else [])
  each "wc" 1 named supply arguments.operands fun operand text =>
    let numbers := counts text
    let width := if numbers.length ≤ 1 then 1
      else if operand.isEmpty || operand == "-" then 7
      else (Nat.toDigits 10 text.length).length
    (String.intercalate " " (numbers.map fun n => String.ofList (column width n))).toList ++
      (if operand.isEmpty then [] else ' ' :: operand.toList) ++ ['\n']

/-- A list of positions, each alone or from one to another. -/
abbrev Positions := List (Nat × Option Nat)

/-- The positions that a text lists. -/
def positions? (text : String) : Option Positions :=
  (Text.splitAt (· == ',') text.toList).mapM fun item =>
    match Text.splitAt (· == '-') item with
    | [single] => (natural? single).map fun n => (n, some n)
    | [first, last] =>
      if first.isEmpty && last.isEmpty then none
      else do
        let start ← if first.isEmpty then some 1 else natural? first
        if last.isEmpty then return (start, none) else return (start, some (← natural? last))
    | _ => none

/-- Whether a position is listed. -/
def Positions.holds (positions : Positions) (n : Nat) : Bool :=
  positions.any fun (first, last) => first ≤ n && (last.getD n) ≥ n

/-- The items at listed positions. -/
def Positions.select {α : Type} (positions : Positions) (items : List α) : List α :=
  (items.zipIdx.filter fun (_, position) => positions.holds (position + 1)).map Prod.fst

/-- Parts of lines. -/
def cut : Filter := withOptions "cut" "sn" "dfcb" 1 false fun supply arguments =>
  let misuse (text : String) : Report := .misuse 1 "cut" text
  let isFields := arguments.has 'f'
  let list := ((arguments.value? 'f').or (arguments.value? 'c')).or (arguments.value? 'b')
  match list, (arguments.value? 'd').getD "\t" with
  | none, _ => misuse "you must specify a list of bytes, characters, or fields"
  | some list, mark =>
    match mark.toList, positions? list with
    | [mark], some positions =>
      if positions.any fun (first, _) => first == 0 then
        misuse (if isFields then "fields are numbered from 1"
          else "byte/character positions are numbered from 1")
      else
        let part (line : List Char) : Option (List Char) :=
          if !isFields then some (positions.select line)
          else if !line.contains mark then if arguments.has 's' then none else some line
          else
            some (List.intercalate [mark] (positions.select (Text.splitAt (· == mark) line)))
        each "cut" 1 named supply arguments.operands fun _ text =>
          unlines ((linesOf text).filterMap part)
    | [_], none =>
      misuse ("invalid " ++ (if isFields then "field value" else "byte/character position") ++
        " '" ++ list ++ "'")
    | _, _ => misuse "the delimiter must be a single character"

/-- The characters that are listed one after the other. -/
def listed : Nat → List Char → List Char
  | 0, _ | _, [] => []
  | fuel + 1, '[' :: ':' :: rest =>
    match CharSet.readClass? (Regex.unmarked rest) with
    | some (ranges, after) =>
      (ranges.flatMap fun (first, last) => span first last) ++ listed fuel (after.map Prod.fst)
    | none => '[' :: listed fuel (':' :: rest)
  | fuel + 1, c :: rest =>
    let (first, rest) := if c == '\\' then escaped rest else (c, rest)
    match rest with
    | '-' :: last :: after =>
      let (last, after) := if last == '\\' then escaped after else (last, after)
      span first last ++ listed fuel after
    | _ => first :: listed fuel rest
where
  /-- The characters from one to another. -/
  span (first last : Char) : List Char :=
    (List.range (last.toNat + 1 - first.toNat)).map fun n => Char.ofNat (first.toNat + n)
  /-- The character after a backslash, and what comes after it. -/
  escaped (chars : List Char) : Char × List Char :=
    match Escape.read false chars with
    | ([c], after) => if c == '\\' then (chars.headD '\\', chars.drop 1) else (c, after)
    | (_, after) => ('\\', after)

/-- Characters with runs of some of them made single. -/
def squeezed (repeats : Char → Bool) : List Char → List Char
  | a :: b :: rest =>
    if a == b && repeats a then squeezed repeats (b :: rest) else a :: squeezed repeats (b :: rest)
  | chars => chars

/-- Characters in place of others. -/
def tr : Filter := withOptions "tr" "cCdst" "" 1 true fun supply arguments =>
  let isNegated := arguments.has 'c' || arguments.has 'C'
  let sets := arguments.operands.map fun operand => listed (operand.length + 1) operand.toList
  let squeeze (chars : List Char) : List Char :=
    if arguments.has 's' then
      match sets.reverse with
      | set :: others => squeezed (fun c => set.contains c != (isNegated && others.isEmpty)) chars
      | [] => chars
    else chars
  match sets with
  | [] => .misuse 1 "tr" "missing operand"
  | old :: more =>
    let isMeant (c : Char) : Bool := old.contains c != isNegated
    match more with
    | [] =>
      if arguments.has 'd' then .success (squeeze (supply.input.filter (!isMeant ·)))
      else if arguments.has 's' then .success (squeeze supply.input)
      else
        .misuse 1 "tr" ("missing operand after '" ++ arguments.operands.headD "" ++
          "'\nTwo strings must be given when translating.")
    | new :: _ =>
      if arguments.has 'd' then .success (squeeze (supply.input.filter (!isMeant ·)))
      else
        let last := new.getLastD ' '
        let exchange (c : Char) : Char :=
          if isNegated then if old.contains c then c else last
          else
            match old.reverse.findIdx? (· == c) with
            | some position => (new[old.length - 1 - position]?).getD last
            | none => c
        .success (squeeze (supply.input.map exchange))

/-- The number at the start of a line, as whether it is negative, its whole part and the
digits of its fraction. -/
def leadingNumber (line : List Char) : Int :=
  let line := line.dropWhile isGap
  let (isNegative, digits) :=
    match line with
    | '-' :: rest => (true, rest)
    | _ => (false, line)
  let n : Int := Decimal.spelled 0 (digits.takeWhile Char.isDigit)
  if isNegative then -n else n

/-- Whether a line does not come after another. -/
def linesOrdered (isNumeric : Bool) (first second : List Char) : Bool :=
  let n := leadingNumber first
  let m := leadingNumber second
  if isNumeric && n != m then n < m else String.ofList first ≤ String.ofList second

/-- Lines in order. -/
def sort : Filter := withOptions "sort" "nrus" "" 2 false fun supply arguments =>
  let order (first second : List Char) : Bool :=
    if arguments.has 'r' then linesOrdered (arguments.has 'n') second first
    else linesOrdered (arguments.has 'n') first second
  whole "sort" 2 supply arguments.operands fun text =>
    let lines := (linesOf text).mergeSort order
    unlines (if arguments.has 'u' then lines.eraseDups else lines)

/-- Lines with how often each occurs one after the other. -/
def runs : List (List Char) → List (List Char × Nat)
  | [] => []
  | line :: rest =>
    match runs rest with
    | (next, count) :: others =>
      if next == line then (line, count + 1) :: others else (line, 1) :: (next, count) :: others
    | [] => [(line, 1)]

/-- Lines of which none is the same as the one before. -/
def uniq : Filter := withOptions "uniq" "cdu" "" 1 false fun supply arguments =>
  each "uniq" 1 named supply arguments.operands fun _ text =>
    let kept := (runs (linesOf text)).filter fun (_, count) =>
      (!arguments.has 'd' || count > 1) && (!arguments.has 'u' || count == 1)
    unlines (kept.map fun (line, count) =>
      if arguments.has 'c' then column 7 count ++ ' ' :: line else line)

/-- Lines with their characters in the opposite order. -/
def rev : Filter := withOptions "rev" "" "" 1 false fun supply arguments =>
  each "rev" 1 named supply arguments.operands fun _ text =>
    let lines := unlines ((linesOf text).map List.reverse)
    if isCutOff text then lines.dropLast else lines

/-- Lines in the opposite order. -/
def tac : Filter := withOptions "tac" "" "" 1 false fun supply arguments =>
  each "tac" 1 named supply arguments.operands fun _ text => unlines (linesOf text).reverse

/-- A path without the slashes at its end. -/
def withoutSlashes (path : List Char) : List Char :=
  let trimmed := Text.trimEnd (· == '/') path
  if trimmed.isEmpty then path.take 1 else trimmed

/-- The last step of a path, without an ending if one is given. -/
def basename : Filter := withOptions "basename" "" "" 1 true fun _ arguments =>
  match arguments.operands with
  | [] => .misuse 1 "basename" "missing operand"
  | path :: rest =>
    match rest with
    | _ :: extra :: _ => .misuse 1 "basename" ("extra operand '" ++ extra ++ "'")
    | _ =>
      let path := withoutSlashes path.toList
      let name := if path == ['/'] then path else (path.reverse.takeWhile (· != '/')).reverse
      let ending := (rest.headD "").toList
      let kept := if ending != name && ending.isSuffixOf name then
          name.take (name.length - ending.length) else name
      .success (kept ++ ['\n'])

/-- The path to what a path leads to. -/
def dirname : Filter := withOptions "dirname" "" "" 1 true fun _ arguments =>
  if arguments.operands.isEmpty then .misuse 1 "dirname" "missing operand"
  else
    .success (arguments.operands.flatMap fun path =>
      let path := withoutSlashes path.toList
      let before := (path.reverse.dropWhile (· != '/')).reverse
      (if before.isEmpty then ['.'] else withoutSlashes before) ++ ['\n'])

/-- Integers from one to another in equal steps, in so many steps. -/
def counted : Nat → Int → Int → Int → List Int
  | 0, _, _, _ => []
  | fuel + 1, first, step, last =>
    if (step > 0 && first > last) || (step < 0 && first < last) then []
    else first :: counted fuel (first + step) step last

/-- Numbers one after the other. -/
def seq : Filter := fun supply words =>
  let (options, operands) := words.span fun word =>
    match word.toList with
    | '-' :: c :: _ => !c.isDigit
    | _ => false
  let joined := words.take (options.length + if options.getLast? == some "-s" then 1 else 0)
  let operands := if options.getLast? == some "-s" then operands.drop 1 else operands
  withOptions "seq" "w" "s" 1 true
    (fun _ arguments =>
      match operands.find? fun operand => (decimal? operand).isNone with
      | some operand => .misuse 1 "seq" ("invalid floating point argument: '" ++ operand ++ "'")
      | none =>
        let numbers := operands.filterMap decimal?
        let write (first step last : Int) : Report :=
          if step == 0 then .misuse 1 "seq" "invalid Zero increment value: '0'"
          else
            let texts := (counted ((last - first).natAbs / step.natAbs + 1) first step last).map
              Json.integerText
            let mark := (arguments.value? 's').getD "\n"
            if texts.isEmpty then .success []
            else .success ((String.intercalate mark texts).toList ++ ['\n'])
        match numbers with
        | [] => .misuse 1 "seq" "missing operand"
        | [last] => write 1 1 last
        | [first, last] => write first 1 last
        | [first, step, last] => write first step last
        | _ => .misuse 1 "seq" ("extra operand '" ++ operands.getD 3 "" ++ "'"))
    supply joined

/-- The parts of a line that look like something. -/
def partsOf (sought : Sought) (line : List Char) : Nat → Nat → List (List Char)
  | 0, _ => []
  | fuel + 1, place =>
    match sought.regex.find? sought.ignoreCase line place with
    | none => []
    | some (span, _) =>
      if span.start == span.finish then
        if span.finish < line.length then partsOf sought line fuel (span.finish + 1) else []
      else span.of line :: partsOf sought line fuel span.finish

/-- An expression that describes just these characters. -/
def literally (chars : List Char) : Regex :=
  chars.foldr (fun c rest => .sequence (Regex.only c) rest) .empty

/-- Lines in which something is found. -/
def grep : Filter := withOptions "grep" "EFGvciqnoxwshH" "em" 2 false fun supply arguments =>
  let given := (arguments.options.filter fun option => option.1 == 'e').map Prod.snd
  let (patterns, operands) :=
    if given.isEmpty then (arguments.operands.take 1, arguments.operands.drop 1)
    else (given, arguments.operands)
  if patterns.isEmpty then
    ⟨2, [], ((usageOf? "grep").getD "" ++ "\nTry 'grep --help' for more information.\n").toList.drop 1⟩
  else
    let read (pattern : String) : Option Regex :=
      if arguments.has 'F' then some (literally pattern.toList)
      else Regex.read? (arguments.has 'E') pattern.toList
    match patterns.mapM read with
    | none => .trouble 2 "grep" "Invalid regular expression"
    | some regexes =>
      let regex := regexes.dropLast.foldr .either (regexes.getLastD .empty)
      let regex :=
        if arguments.has 'x' then .sequence .start (.sequence regex .finish)
        else if arguments.has 'w' then .sequence .wordEdge (.sequence regex .wordEdge)
        else regex
      let sought : Sought := ⟨regex, arguments.has 'i'⟩
      let isKept (line : List Char) : Bool :=
        (sought.regex.find? sought.ignoreCase line 0).isSome != arguments.has 'v'
      let limited {α : Type} (lines : List α) : List α :=
        match (arguments.value? 'm').bind fun value => natural? value.toList with
        | some limit => lines.take limit
        | none => lines
      let label (operand : String) : List Char :=
        if operands.length > 1 && !arguments.has 'h' then operand.toList ++ [':'] else []
      let write (operand : String) (text : List Char) : List Char :=
        let kept := limited ((linesOf text).zipIdx.filter fun (line, _) => isKept line)
        if arguments.has 'c' then label operand ++ Nat.toDigits 10 kept.length ++ ['\n']
        else
          kept.flatMap fun (line, position) =>
            let mark := label operand ++
              if arguments.has 'n' then Nat.toDigits 10 (position + 1) ++ [':'] else []
            if arguments.has 'o' then
              (partsOf sought line (line.length + 1) 0).flatMap fun part => mark ++ part ++ ['\n']
            else mark ++ line ++ ['\n']
      let found := each "grep" 2 named supply operands fun _ text =>
        if (linesOf text).any isKept then ['x'] else []
      let report := each "grep" 2 named supply operands write
      let status :=
        if !found.output.isEmpty && (report.status == 0 || arguments.has 'q') then 0
        else if report.status != 0 then report.status
        else 1
      { report with
        status := status,
        output := if arguments.has 'q' then [] else report.output,
        complaints := if arguments.has 's' then [] else report.complaints }

/-- Lines that are edited by a script. -/
def sed : Filter := withOptions "sed" "nErsu" "e" 1 false fun supply arguments =>
  let given := (arguments.options.filter fun option => option.1 == 'e').map Prod.snd
  let (scripts, operands) :=
    if given.isEmpty then (arguments.operands.take 1, arguments.operands.drop 1)
    else (given, arguments.operands)
  let script := (String.intercalate "\n" scripts).toList
  match Edit.read? (arguments.has 'E' || arguments.has 'r') script with
  | .error (fault, count) =>
    .trouble 1 "sed"
      ("-e expression #1, char " ++ numeral count ++ ": " ++ fault.message)
  | .ok edits =>
    let missing (operand : String) (cause : FileTrouble) : String :=
      match cause with
      | .missing => "can't read " ++ operand ++ ": " ++ cause.message
      | .directory => "couldn't edit " ++ operand ++ ": not a regular file"
    let read := each "sed" 2 missing supply operands fun _ text => text
    { read with output := edited edits (arguments.has 'n') read.output }

/-- The filters by their names. -/
def table : List (String × Filter) :=
  [("basename", basename), ("cat", cat), ("cut", cut), ("dirname", dirname), ("grep", grep),
    ("head", head), ("rev", rev), ("sed", sed), ("seq", seq), ("sort", sort), ("tac", tac),
    ("tail", tail), ("tr", tr), ("uniq", uniq), ("wc", wc)]

end Filter

end Dataflow.Shell
