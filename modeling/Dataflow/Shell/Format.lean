/-
# Formatted output

What `echo` and `printf` write: texts in which a backslash and what follows it stand
for a character, and formats whose directives are replaced by arguments.
-/

import Dataflow.Binary64.Rounding
import Dataflow.Decimal.Reader
import Dataflow.Decimal.Shortest
import Dataflow.Shell.Arithmetic

namespace Dataflow.Shell

namespace Escape

/-- The character that a letter after a backslash stands for. -/
def ofLetter? (c : Char) : Option Char :=
  [('\\', '\\'), ('a', '\x07'), ('b', '\x08'), ('e', '\x1b'), ('f', '\x0c'), ('n', '\n'),
    ('r', '\x0d'), ('t', '\t'), ('v', '\x0b')].lookup c

/-- Whether a character is an octal digit. -/
def isOctal (c : Char) : Bool := '0' ≤ c && c ≤ '7'

/-- The byte that octal digits name. -/
def ofOctal (digits : List Char) : Char :=
  Char.ofNat (digits.foldl (fun code digit => code * 8 + Decimal.digitValue digit) 0 % 256)

/-- The number that hexadecimal digits at the start of characters spell, at most two of
them, and what comes after them. -/
def readHex? (chars : List Char) : Option (Nat × List Char) :=
  let digits := ((chars.take 2).map (Formula.digit? 16)).takeWhile Option.isSome
  if digits.isEmpty then none
  else
    some ((digits.filterMap id).foldl (fun code digit => code * 16 + digit) 0,
      chars.drop digits.length)

/-- What stands for characters after a backslash, and what comes after them. A letter
without meaning keeps its backslash. A program knows more of them than a shell. -/
def read (isProgram : Bool) (chars : List Char) : List Char × List Char :=
  let octal := (chars.take 3).takeWhile isOctal
  if !octal.isEmpty then ([ofOctal octal], chars.drop octal.length)
  else
    match chars with
    | 'x' :: rest =>
      match if isProgram then readHex? rest else none with
      | some (code, after) => ([Char.ofNat code], after)
      | none => (['\\'], chars)
    | c :: rest =>
      match ofLetter? c with
      | some meant => ([meant], rest)
      | none => if isProgram && c == '"' then ([c], rest) else (['\\'], chars)
    | [] => (['\\'], [])

/-- A text with what stands for other characters replaced, and whether it ends the
output. Octal digits may follow a zero. -/
def expand (isProgram : Bool) : Nat → List Char → List Char × Bool
  | 0, _ | _, [] => ([], false)
  | _ + 1, '\\' :: 'c' :: _ => ([], true)
  | fuel + 1, '\\' :: rest =>
    let (chars, after) :=
      match rest with
      | '0' :: digits =>
        let octal := (digits.take 3).takeWhile isOctal
        ([ofOctal octal], digits.drop octal.length)
      | _ => read isProgram rest
    let (further, isLast) := expand isProgram fuel after
    (chars ++ further, isLast)
  | fuel + 1, c :: rest =>
    let (further, isLast) := expand isProgram fuel rest
    (c :: further, isLast)

end Escape

/-- The arguments of `echo` on one line. A first one may say that the line is not
ended. -/
def echo (arguments : List String) : List Char :=
  let (words, ending) :=
    match arguments with
    | "-n" :: rest => (rest, [])
    | _ => (arguments, ['\n'])
  let line := (String.intercalate " " words).toList
  let (chars, isLast) := Escape.expand false (line.length + 1) line
  if isLast then chars else chars ++ ending

/-- How an argument is laid out. -/
structure Directive where
  /-- The characters that change the layout. -/
  flags : List Char
  /-- The least number of characters, if it is given. -/
  width : Nat
  /-- The number of digits or characters, if it is given. -/
  precision : Option Nat
  /-- What kind of argument it is. -/
  kind : Char

/-- A text with what it lacks of its width. -/
def Directive.padded (d : Directive) (text : List Char) : List Char :=
  let gap := List.replicate (d.width - text.length) ' '
  if d.flags.contains '-' then text ++ gap else gap ++ text

/-- A number of a sign and digits with what it lacks of its width. Zeros stand between
the sign and the digits. -/
def Directive.paddedNumber (d : Directive) (allowZeros : Bool) (sign digits : List Char) :
    List Char :=
  if allowZeros && d.flags.contains '0' && !d.flags.contains '-' then
    sign ++ List.replicate (d.width - sign.length - digits.length) '0' ++ digits
  else d.padded (sign ++ digits)

/-- The sign that is written before a number. -/
def Directive.signOf (d : Directive) (isNegative : Bool) : List Char :=
  if isNegative then ['-']
  else if d.flags.contains '+' then ['+']
  else if d.flags.contains ' ' then [' ']
  else []

/-- The digits of a natural number, at least as many as the precision says. -/
def Directive.digitsOf (d : Directive) (base n : Nat) : List Char :=
  let digits := if n == 0 && d.precision == some 0 then [] else Nat.toDigits base n
  List.replicate (d.precision.getD 1 - digits.length) '0' ++ digits

/-- An integer of 64 bits as it is laid out. -/
def Directive.integerText (d : Directive) (n : Int64) : List Char :=
  let alternative := d.flags.contains '#'
  let unsigned := n.toUInt64.toNat
  match d.kind with
  | 'o' =>
    let digits := d.digitsOf 8 unsigned
    d.paddedNumber d.precision.isNone []
      (if alternative && digits.head? != some '0' then '0' :: digits else digits)
  | 'x' =>
    d.paddedNumber d.precision.isNone (if alternative && unsigned != 0 then ['0', 'x'] else [])
      (d.digitsOf 16 unsigned)
  | 'X' =>
    d.paddedNumber d.precision.isNone (if alternative && unsigned != 0 then ['0', 'X'] else [])
      ((d.digitsOf 16 unsigned).map Char.toUpper)
  | 'u' => d.paddedNumber d.precision.isNone [] (d.digitsOf 10 unsigned)
  | _ =>
    d.paddedNumber d.precision.isNone (d.signOf (n < 0)) (d.digitsOf 10 n.toInt.natAbs)

/-- A magnitude with so many decimal places. -/
def fixedText (places : Nat) (alternative : Bool) (units : Nat) : List Char :=
  let scaled := nearestEven (units * Nat.pow 10 places) Binary64.unitsPerOne
  let digits := Nat.toDigits 10 scaled
  let digits := List.replicate (places + 1 - digits.length) '0' ++ digits
  let whole := digits.take (digits.length - places)
  let fraction := digits.drop (digits.length - places)
  whole ++ (if fraction.isEmpty && !alternative then [] else '.' :: fraction)

/-- The digits of a magnitude, one and so many more, and the exponent of the first. -/
def leadingDigits (places : Nat) (units : Nat) : List Char × Int :=
  if units == 0 then (List.replicate (places + 1) '0', 0)
  else
    let leading := Decimal.leadingExponent units
    let shift : Int := places - leading
    let scaled := nearestEven (units * Nat.pow 10 shift.toNat)
      (Binary64.unitsPerOne * Nat.pow 10 (-shift).toNat)
    let digits := Nat.toDigits 10 scaled
    if digits.length > places + 1 then (digits.take (places + 1), leading + 1)
    else (digits, leading)

/-- Digits with a point after the first and their exponent. -/
def exponentText (digits : List Char) (exponent : Int) (alternative : Bool) : List Char :=
  let size := Nat.toDigits 10 exponent.natAbs
  digits.take 1 ++
    (if digits.length ≤ 1 && !alternative then [] else '.' :: digits.drop 1) ++
    ['e', if exponent < 0 then '-' else '+'] ++
    (if size.length < 2 then '0' :: size else size)

/-- A finite magnitude as it is laid out, without its sign. -/
def Directive.magnitudeText (d : Directive) (units : Nat) : List Char :=
  let alternative := d.flags.contains '#'
  let places := d.precision.getD 6
  match d.kind.toLower with
  | 'f' => fixedText places alternative units
  | 'e' =>
    let (digits, exponent) := leadingDigits places units
    exponentText digits exponent alternative
  | _ =>
    let count := max places 1
    let (digits, exponent) := leadingDigits (count - 1) units
    let shortened (text : List Char) : List Char :=
      if alternative || !text.contains '.' then text
      else Text.trimEnd (· == '.') (Text.trimEnd (· == '0') text)
    if exponent < -4 || exponent ≥ count then
      let digits := if alternative then digits else
        digits.take 1 ++ Text.trimEnd (· == '0') (digits.drop 1)
      exponentText digits exponent alternative
    else shortened (fixedText (count - 1 - exponent).toNat alternative units)

/-- A binary64 number as it is laid out. -/
def Directive.floatText (d : Directive) (x : Binary64) : List Char :=
  let cased (text : List Char) : List Char :=
    if d.kind.isUpper then text.map Char.toUpper else text
  let sign := d.signOf x.negative
  if x.isNaN then d.padded (cased (sign ++ ['n', 'a', 'n']))
  else if x.isInfinite then d.padded (cased (sign ++ ['i', 'n', 'f']))
  else d.paddedNumber true sign (cased (d.magnitudeText (Binary64.unitsOf x.magnitude)))

/-- Why a format or an argument is refused. -/
inductive FormatFault where
  | noNumber (argument : String)
  /-- An argument is a number only at its start. -/
  | notWhole (argument : String)
  | tooLarge (argument : String)
  | noDirective (directive : String)
  | noKind
deriving DecidableEq, Repr

def FormatFault.message : FormatFault → String
  | .noNumber argument => argument ++ ": expected numeric value"
  | .notWhole argument => argument ++ ": not completely converted"
  | .tooLarge argument => argument ++ ": Numerical result out of range"
  | .noDirective directive => directive ++ ": invalid directive"
  | .noKind => "missing format character"

/-- Whether a fault ends the output. -/
def FormatFault.isFinal : FormatFault → Bool
  | .noDirective _ | .noKind => true
  | _ => false

/-- The code of the character after a quotation mark, if a text is such a pair. -/
def quotedCode? (argument : String) : Option Nat :=
  match argument.toList with
  | mark :: rest => if mark == '\'' || mark == '"' then some ((rest.headD '\x00').toNat) else none
  | [] => none

/-- The integer at the start of an argument, with what is wrong about it. -/
def integerArgument (argument : String) : Int64 × List FormatFault :=
  match quotedCode? argument with
  | some code => (Int64.ofNat code, [])
  | none =>
    let chars := argument.toList.dropWhile isGap
    let (isNegative, digits) := Decimal.readSign chars
    let (n, after) := Formula.readNumber digits
    let value := if isNegative then -Int64.ofNat n else Int64.ofNat n
    if chars.isEmpty then (0, [])
    else if !digits.head?.any Char.isDigit then (0, [.noNumber argument])
    else if !after.isEmpty then (value, [.notWhole argument])
    else if (digits.takeWhile Char.isDigit).length > 18 && n == Formula.largest &&
        digits != Nat.toDigits 10 Formula.largest then (value, [.tooLarge argument])
    else (value, [])

/-- The longest start of characters that is a decimal numeral, and what comes after
it. -/
def splitNumeral? (chars : List Char) : Option (Binary64 × List Char) :=
  ((List.range (chars.length + 1)).reverse.findSome? fun count =>
    match Decimal.readFloat (chars.take count) with
    | .ok x => some (x, chars.drop count)
    | .error _ => none)

/-- The binary64 number at the start of an argument, with what is wrong about it. -/
def floatArgument (argument : String) : Binary64 × List FormatFault :=
  match quotedCode? argument with
  | some code => (Binary64.ofInt code, [])
  | none =>
    let chars := argument.toList.dropWhile isGap
    if chars.isEmpty then (Binary64.zero false, [])
    else
      match splitNumeral? chars with
      | none => (Binary64.zero false, [.noNumber argument])
      | some (x, after) => (x, if after.isEmpty then [] else [.notWhole argument])

/-- What a format has made so far. -/
structure Formatted where
  /-- Whether a program makes it, and not a shell. -/
  isProgram : Bool
  output : List Char
  faults : List FormatFault
  /-- The arguments that are left. -/
  arguments : List String
  /-- Whether an argument was asked for. -/
  isUsed : Bool
  /-- Whether the output has come to its end. -/
  isEnded : Bool

namespace Formatted

/-- With more written. -/
def write (made : Formatted) (chars : List Char) : Formatted :=
  { made with output := made.output ++ chars }

/-- The next argument, and what is made after it was asked for. -/
def next (made : Formatted) : Option String × Formatted :=
  (made.arguments.head?, { made with arguments := made.arguments.drop 1, isUsed := true })

/-- With faults, of which some end the output. -/
def blame (made : Formatted) (faults : List FormatFault) : Formatted :=
  { made with
    faults := made.faults ++ faults,
    isEnded := made.isEnded || faults.any FormatFault.isFinal }

/-- A number that a directive gives in digits or takes from an argument, and what comes
after it. -/
def size (made : Formatted) (chars : List Char) : Option Int64 × List Char × Formatted :=
  match chars with
  | '*' :: rest =>
    let (argument, made) := made.next
    let (n, faults) := integerArgument (argument.getD "")
    (some n, rest, made.blame faults)
  | _ =>
    let digits := chars.takeWhile Char.isDigit
    (if digits.isEmpty then none else some (Int64.ofNat (Decimal.spelled 0 digits)),
      chars.drop digits.length, made)

/-- With an argument laid out. -/
def layOut (made : Formatted) (d : Directive) (spelling : List Char) : Formatted :=
  match d.kind with
  | 's' =>
    let (argument, made) := made.next
    let text := (argument.getD "").toList
    made.write (d.padded (match d.precision with
      | some limit => text.take limit
      | none => text))
  | 'b' =>
    let (argument, made) := made.next
    let text := (argument.getD "").toList
    let (chars, isLast) := Escape.expand made.isProgram (text.length + 1) text
    { made.write (d.padded chars) with isEnded := isLast }
  | 'c' =>
    let (argument, made) := made.next
    made.write (d.padded [((argument.getD "").toList).headD '\x00'])
  | kind =>
    if ['d', 'i', 'o', 'u', 'x', 'X'].contains kind then
      let (argument, made) := made.next
      let (n, faults) := integerArgument (argument.getD "")
      (made.blame faults).write (d.integerText n)
    else if ['e', 'E', 'f', 'F', 'g', 'G'].contains kind then
      let (argument, made) := made.next
      let (x, faults) := floatArgument (argument.getD "")
      (made.blame faults).write (d.floatText x)
    else made.blame [.noDirective (String.ofList ('%' :: spelling))]

/-- With the directive after a percent sign laid out, and what comes after it. -/
def directive (made : Formatted) (chars : List Char) : Formatted × List Char :=
  let flags := chars.takeWhile ['#', '-', '+', ' ', '0'].contains
  let (width, rest, made) := made.size (chars.drop flags.length)
  let (precision, rest, made) :=
    match rest with
    | '.' :: rest =>
      let (precision, rest, made) := made.size rest
      (some (precision.getD 0).toInt.toNat, rest, made)
    | _ => (none, rest, made)
  match rest with
  | [] => (made.blame [.noKind], [])
  | kind :: after =>
    let width := (width.getD 0).toInt
    let flags := if width < 0 then '-' :: flags else flags
    (made.layOut ⟨flags, width.natAbs, precision, kind⟩
      (chars.take (chars.length - after.length)), after)

/-- With a format laid out once. -/
def once : Nat → List Char → Formatted → Formatted
  | 0, _, made | _, [], made => made
  | fuel + 1, c :: rest, made =>
    if made.isEnded then made
    else
      match c, rest with
      | '\\', _ =>
        let (chars, after) := Escape.read made.isProgram rest
        once fuel after (made.write chars)
      | '%', '%' :: rest => once fuel rest (made.write ['%'])
      | '%', _ =>
        let (made, after) := made.directive rest
        once fuel after made
      | _, _ => once fuel rest (made.write [c])

/-- With a format laid out again as long as there are arguments for it. -/
def again (format : List Char) : Nat → Formatted → Formatted
  | 0, made => made
  | fuel + 1, made =>
    let made := made.once (format.length + 1) format
    if made.isEnded || made.arguments.isEmpty || !made.isUsed then made else again format fuel made

end Formatted

/-- Arguments in a format. -/
def printf (isProgram : Bool) (format : String) (arguments : List String) : Formatted :=
  Formatted.again format.toList (arguments.length + 1) ⟨isProgram, [], [], arguments, false, false⟩

end Dataflow.Shell
