/-
# Arguments of tools

The options of a tool are single letters after a dash, several of them in one word, or
names after two dashes, which may be cut short. Some have a value, and some names mean
the same as a letter.
-/

import Dataflow.Text.Blank

namespace Dataflow.Shell

/-- Whether an option has a value. -/
inductive ValueUse where
  | never
  /-- It has one, in the same word or the next one. -/
  | always
  /-- It may have one, in the same word. -/
  | maybe
deriving DecidableEq, Repr

/-- An option with a name. -/
structure LongOption where
  name : String
  use : ValueUse
  /-- The letter that means the same, if there is one. -/
  letter : Option Char
deriving DecidableEq, Repr

/-- The options that a tool knows. -/
structure KnownOptions where
  /-- The letters without a value. -/
  letters : List Char
  /-- The letters with a value. -/
  valued : List Char
  long : List LongOption
  /-- Whether options stand before all operands. -/
  onlyFirst : Bool

/-- Why words are no arguments of a tool. -/
inductive ArgumentFault where
  | unknownLetter (letter : Char)
  | noValue (letter : Char)
  | unknownName (word : String)
  | ambiguous (word : String) (names : List String)
  | needless (name : String)
  | noNamedValue (name : String)
deriving DecidableEq, Repr

def ArgumentFault.message : ArgumentFault → String
  | .unknownLetter letter => "invalid option -- '" ++ String.ofList [letter] ++ "'"
  | .noValue letter => "option requires an argument -- '" ++ String.ofList [letter] ++ "'"
  | .unknownName word => "unrecognized option '" ++ word ++ "'"
  | .ambiguous word names =>
    "option '" ++ word ++ "' is ambiguous; possibilities:" ++
      String.join (names.map fun name => " '--" ++ name ++ "'")
  | .needless name => "option '--" ++ name ++ "' doesn't allow an argument"
  | .noNamedValue name => "option '--" ++ name ++ "' requires an argument"

/-- The arguments of a tool. -/
structure Arguments where
  /-- The options with their values, in order. -/
  options : List (Char × String)
  /-- What is not an option. -/
  operands : List String

namespace Arguments

/-- Whether an option is given. -/
def has (arguments : Arguments) (letter : Char) : Bool :=
  arguments.options.any fun option => option.1 == letter

/-- The last value of an option. -/
def value? (arguments : Arguments) (letter : Char) : Option String :=
  arguments.options.reverse.lookup letter

/-- With one more option in front. -/
def withOption (letter : Char) (value : String) (arguments : Arguments) : Arguments :=
  { arguments with options := (letter, value) :: arguments.options }

/-- With one more operand in front. -/
def withOperand (operand : String) (arguments : Arguments) : Arguments :=
  { arguments with operands := operand :: arguments.operands }

/-- The options of letters in one word: the letters without values, and the last letter
if it has one, with the value if it stands in the word. -/
def readLetters (known : KnownOptions) :
    List Char → Except ArgumentFault (List Char × Option (Char × Option String))
  | [] => .ok ([], none)
  | c :: rest =>
    if known.valued.contains c then
      .ok ([], some (c, if rest.isEmpty then none else some (String.ofList rest)))
    else if known.letters.contains c then
      (readLetters known rest).map fun (letters, last) => (c :: letters, last)
    else .error (.unknownLetter c)

/-- The option whose name a word may mean: the name itself, or the only one that starts
so, or several if they mean the same. -/
def named (long : List LongOption) (word : String) (name : List Char) :
    Except ArgumentFault LongOption :=
  match long.find? fun option => option.name.toList == name with
  | some option => .ok option
  | none =>
    match long.filter fun option => name.isPrefixOf option.name.toList with
    | [] => .error (.unknownName word)
    | option :: others =>
      if others.all fun other => other.letter.isSome && other.letter == option.letter then
        .ok option
      else .error (.ambiguous word ((option :: others).map LongOption.name))

/-- The option with a name in a word, its value, and whether the value is the next word. -/
def readLong (known : KnownOptions) (word : String) (next : Option String) :
    Except ArgumentFault (Option Char × String × Bool) := do
  let chars := word.toList.drop 2
  let name := chars.takeWhile (· != '=')
  let value :=
    if name.length == chars.length then none
    else some (String.ofList (chars.drop (name.length + 1)))
  let option ← named known.long word name
  match option.use, value, next with
  | .never, some _, _ => throw (.needless option.name)
  | .never, none, _ | .maybe, none, _ => return (option.letter, "", false)
  | _, some value, _ => return (option.letter, value, false)
  | .always, none, some value => return (option.letter, value, true)
  | .always, none, none => throw (.noNamedValue option.name)

/-- The arguments of a tool with the options that it knows, given more fuel than there
are words. -/
def readWithin (known : KnownOptions) : Nat → List String → Except ArgumentFault Arguments
  | 0, _ | _, [] => .ok ⟨[], []⟩
  | _ + 1, "--" :: rest => .ok ⟨[], rest⟩
  | fuel + 1, word :: rest => do
    match word.toList with
    | '-' :: '-' :: _ =>
      let (letter, value, usesNext) ← readLong known word rest.head?
      let further ← readWithin known fuel (if usesNext then rest.drop 1 else rest)
      match letter with
      | some letter => return further.withOption letter value
      | none => return further
    | '-' :: c :: letters =>
      let (letters, last) ← readLetters known (c :: letters)
      let add (arguments : Arguments) : Arguments := letters.foldr (fun c => withOption c "") arguments
      match last, rest with
      | none, _ => return add (← readWithin known fuel rest)
      | some (letter, some value), _ =>
        return add ((← readWithin known fuel rest).withOption letter value)
      | some (letter, none), value :: rest =>
        return add ((← readWithin known fuel rest).withOption letter value)
      | some (letter, none), [] => throw (.noValue letter)
    | _ =>
      if known.onlyFirst then return ⟨[], word :: rest⟩
      else return (← readWithin known fuel rest).withOperand word

/-- The arguments of a tool with the options that it knows. -/
def read (known : KnownOptions) (words : List String) : Except ArgumentFault Arguments :=
  readWithin known (words.length + 1) words

end Arguments

/-- An option without a value. -/
def flag (name : String) (letter : Char) : LongOption := ⟨name, .never, some letter⟩

/-- An option with a value. -/
def setting (name : String) (letter : Char) : LongOption := ⟨name, .always, some letter⟩

/-- An option that no letter means, with a value or not. -/
def unlettered (name : String) (use : ValueUse) : LongOption := ⟨name, use, none⟩

/-- The options with names that a tool has for itself. -/
def ownLongOptions (tool : String) : List LongOption :=
  match tool with
  | "basename" => [flag "multiple" 'a', setting "suffix" 's', flag "zero" 'z']
  | "cat" =>
    [flag "number-nonblank" 'b', flag "number" 'n', flag "squeeze-blank" 's',
      flag "show-nonprinting" 'v', flag "show-ends" 'E', flag "show-tabs" 'T', flag "show-all" 'A']
  | "cut" =>
    [setting "bytes" 'b', setting "characters" 'c', setting "fields" 'f', setting "delimiter" 'd',
      flag "only-delimited" 's', unlettered "output-delimiter" .always,
      unlettered "complement" .never, flag "zero-terminated" 'z']
  | "dirname" => [flag "zero" 'z']
  | "env" =>
    [setting "argv0" 'a', flag "ignore-environment" 'i', flag "null" '0', setting "unset" 'u',
      setting "chdir" 'C', unlettered "default-signal" .maybe, unlettered "ignore-signal" .maybe,
      unlettered "block-signal" .maybe, unlettered "list-signal-handling" .never, flag "debug" 'v',
      setting "split-string" 'S']
  | "grep" =>
    [flag "basic-regexp" 'G', flag "extended-regexp" 'E', flag "fixed-regexp" 'F',
      flag "fixed-strings" 'F', flag "perl-regexp" 'P', setting "after-context" 'A',
      setting "before-context" 'B', unlettered "binary-files" .always, flag "binary" 'U',
      flag "byte-offset" 'b', setting "context" 'C', unlettered "color" .maybe,
      unlettered "colour" .maybe, flag "count" 'c', setting "devices" 'D', setting "directories" 'd',
      unlettered "exclude" .always, unlettered "exclude-from" .always,
      unlettered "exclude-dir" .always, setting "file" 'f', flag "files-with-matches" 'l',
      flag "files-without-match" 'L', unlettered "group-separator" .always,
      unlettered "include" .always, flag "ignore-case" 'i', unlettered "no-ignore-case" .never,
      flag "initial-tab" 'T', unlettered "label" .always, unlettered "line-buffered" .never,
      flag "line-number" 'n', flag "line-regexp" 'x', setting "max-count" 'm',
      flag "no-filename" 'h', unlettered "no-group-separator" .never, flag "no-messages" 's',
      flag "null" 'Z', flag "null-data" 'z', flag "only-matching" 'o', flag "quiet" 'q',
      flag "recursive" 'r', flag "dereference-recursive" 'R', setting "regexp" 'e',
      flag "invert-match" 'v', flag "silent" 'q', flag "text" 'a', flag "unix-byte-offsets" 'u',
      flag "with-filename" 'H', flag "word-regexp" 'w']
  | "head" =>
    [setting "bytes" 'c', setting "lines" 'n', flag "quiet" 'q', flag "silent" 'q',
      flag "verbose" 'v', flag "zero-terminated" 'z']
  | "printenv" => [flag "null" '0']
  | "pwd" => [flag "logical" 'L', flag "physical" 'P']
  | "rev" => [flag "zero" '0']
  | "sed" =>
    [unlettered "binary" .never, flag "regexp-extended" 'E', unlettered "debug" .never,
      ⟨"in-place", .maybe, some 'i'⟩, setting "expression" 'e', setting "file" 'f',
      setting "line-length" 'l', flag "null-data" 'z', flag "zero-terminated" 'z',
      flag "quiet" 'n', flag "posix" 'p', flag "silent" 'n', unlettered "sandbox" .never,
      flag "separate" 's', flag "unbuffered" 'u', unlettered "follow-symlinks" .never]
  | "seq" => [flag "equal-width" 'w', setting "format" 'f', setting "separator" 's']
  | "sort" =>
    [flag "ignore-leading-blanks" 'b', unlettered "check" .maybe,
      unlettered "compress-program" .always, unlettered "debug" .never, flag "dictionary-order" 'd',
      flag "ignore-case" 'f', unlettered "files0-from" .always, flag "general-numeric-sort" 'g',
      flag "ignore-nonprinting" 'i', setting "key" 'k', flag "merge" 'm', flag "month-sort" 'M',
      flag "numeric-sort" 'n', flag "human-numeric-sort" 'h', flag "version-sort" 'V',
      flag "random-sort" 'R', unlettered "random-source" .always, unlettered "sort" .always,
      setting "output" 'o', flag "reverse" 'r', flag "stable" 's', unlettered "batch-size" .always,
      setting "buffer-size" 'S', setting "field-separator" 't', setting "temporary-directory" 'T',
      flag "unique" 'u', flag "zero-terminated" 'z', unlettered "parallel" .always]
  | "tac" => [flag "before" 'b', flag "regex" 'r', setting "separator" 's']
  | "tail" =>
    [setting "bytes" 'c', ⟨"follow", .maybe, some 'f'⟩, setting "lines" 'n',
      unlettered "max-unchanged-stats" .always, unlettered "pid" .always, flag "quiet" 'q',
      unlettered "retry" .never, flag "silent" 'q', unlettered "sleep-interval" .always,
      flag "verbose" 'v', flag "zero-terminated" 'z']
  | "tee" =>
    [flag "append" 'a', flag "ignore-interrupts" 'i', ⟨"output-error", .maybe, some 'p'⟩]
  | "tr" =>
    [flag "complement" 'c', flag "delete" 'd', flag "squeeze-repeats" 's', flag "truncate-set1" 't']
  | "uniq" =>
    [flag "count" 'c', flag "repeated" 'd', ⟨"all-repeated", .maybe, some 'D'⟩,
      unlettered "group" .maybe, flag "ignore-case" 'i', flag "unique" 'u', setting "skip-fields" 'f',
      setting "skip-chars" 's', setting "check-chars" 'w', flag "zero-terminated" 'z']
  | "wc" =>
    [flag "bytes" 'c', flag "chars" 'm', flag "lines" 'l', flag "words" 'w',
      unlettered "debug" .never, unlettered "files0-from" .always, flag "max-line-length" 'L',
      unlettered "total" .always]
  | _ => []

/-- The options with names that a tool knows. -/
def longOptions (tool : String) : List LongOption :=
  ownLongOptions tool ++ [unlettered "help" .never, unlettered "version" .never]

end Dataflow.Shell
