/-
# Evaluating words

A tool that takes its arguments as an expression, one word for each operand or operator.
An operand is a text; it is a number where it spells one.
-/

import Dataflow.Shell.Filter

namespace Dataflow.Shell

namespace Evaluation

/-- Why words are no expression. -/
inductive Fault where
  | noArgument (word : String)
  | unexpected (word : String)
  | noInteger
  | divisionByZero
  | noRegex
deriving DecidableEq, Repr

def Fault.message : Fault → String
  | .noArgument word => "syntax error: missing argument after '" ++ word ++ "'"
  | .unexpected word => "syntax error: unexpected argument '" ++ word ++ "'"
  | .noInteger => "non-integer argument"
  | .divisionByZero => "division by zero"
  | .noRegex => "Invalid regular expression"

/-- The operators, those that bind least first. -/
def levels : List (List String) :=
  [["|"], ["&"], ["<", "<=", "=", "==", "!=", ">=", ">"], ["+", "-"], ["*", "/", "%"], [":"]]

/-- Whether a value counts as false. -/
def isNull (value : String) : Bool :=
  value.isEmpty ||
    (value.toList.all fun c => c == '0' || c == '-') && value.toList.contains '0'

/-- The integer that a text spells. -/
def integer? (text : String) : Option Int :=
  let digits := if text.toList.head? == some '-' then text.toList.drop 1 else text.toList
  if !digits.isEmpty && digits.all Char.isDigit then decimal? text else none

/-- What an expression finds at the start of a text: its first group, or how long it
is. -/
def matched (text pattern : String) : Except Fault String :=
  match Regex.read? false ('^' :: pattern.toList) with
  | none => .error .noRegex
  | some regex =>
    let hasGroup := pattern.toList.zip (pattern.toList.drop 1) |>.contains ('\\', '(')
    match regex.find? false text.toList 0 with
    | some (span, groups) =>
      if hasGroup then
        .ok (((groups.lookup 1).map fun (group : Span) => String.ofList (group.of text.toList)).getD "")
      else .ok (numeral (span.finish - span.start))
    | none => .ok (if hasGroup then "" else "0")

/-- What an operator makes of two operands. -/
def applied (operator left right : String) : Except Fault String :=
  let calculate (run : Int → Int → Except Fault Int) : Except Fault String := do
    match integer? left, integer? right with
    | some n, some m => return Json.integerText (← run n m)
    | _, _ => throw .noInteger
  let compare (ofNumbers : Int → Int → Bool) (ofTexts : String → String → Bool) :
      Except Fault String :=
    let holds :=
      match integer? left, integer? right with
      | some n, some m => ofNumbers n m
      | _, _ => ofTexts left right
    .ok (if holds then "1" else "0")
  match operator with
  | "|" => .ok (if !isNull left then left else if isNull right then "0" else right)
  | "&" => .ok (if isNull left || isNull right then "0" else left)
  | "=" | "==" => compare (fun n m => n == m) (fun a b => a == b)
  | "!=" => compare (fun n m => n != m) (fun a b => a != b)
  | "<" => compare (fun n m => n < m) (fun a b => a < b)
  | "<=" => compare (fun n m => n ≤ m) (fun a b => a ≤ b)
  | ">" => compare (fun n m => n > m) (fun a b => b < a)
  | ">=" => compare (fun n m => n ≥ m) (fun a b => b ≤ a)
  | "+" => calculate fun n m => .ok (n + m)
  | "-" => calculate fun n m => .ok (n - m)
  | "*" => calculate fun n m => .ok (n * m)
  | "/" => calculate fun n m => if m == 0 then .error .divisionByZero else .ok (n.tdiv m)
  | "%" => calculate fun n m => if m == 0 then .error .divisionByZero else .ok (n.tmod m)
  | _ => matched left right

mutual

/-- The value of operators of some levels at the start of words, and what comes after
them. The word before is given for complaints. -/
def level (levels : List (List String)) :
    Nat → String → List String → Except Fault (String × List String)
  | 0, before, _ => .error (.noArgument before)
  | fuel + 1, before, words => do
    match levels with
    | [] => operand fuel before words
    | operators :: tighter =>
      let (first, after) ← level tighter fuel before words
      further operators tighter first fuel after

/-- The value with which operators of one level go on, and what comes after them. -/
def further (operators : List String) (tighter : List (List String)) (left : String) :
    Nat → List String → Except Fault (String × List String)
  | 0, words => .ok (left, words)
  | fuel + 1, words => do
    match words with
    | word :: rest =>
      if operators.contains word then
        let (right, after) ← level tighter fuel word rest
        further operators tighter (← applied word left right) fuel after
      else return (left, words)
    | [] => return (left, [])

/-- The operand at the start of words, and what comes after it. -/
def operand : Nat → String → List String → Except Fault (String × List String)
  | 0, before, _ => .error (.noArgument before)
  | fuel + 1, before, words => do
    match words with
    | [] => throw (.noArgument before)
    | "(" :: rest =>
      let (value, after) ← level levels fuel "(" rest
      match after with
      | ")" :: rest => return (value, rest)
      | word :: _ => throw (.unexpected word)
      | [] => throw (.noArgument value)
    | "length" :: text :: rest => return (numeral text.length, rest)
    | "substr" :: text :: start :: count :: rest =>
      match integer? start, integer? count with
      | some start, some count =>
        if start ≤ 0 || count ≤ 0 then return ("", rest)
        else
          return (String.ofList ((text.toList.drop (start.toNat - 1)).take count.toNat), rest)
      | _, _ => return ("", rest)
    | "index" :: text :: chars :: rest =>
      let position := (text.toList.findIdx? fun c => chars.toList.contains c).map (· + 1)
      return (numeral (position.getD 0), rest)
    | "match" :: text :: pattern :: rest => return (← matched text pattern, rest)
    | word :: rest => return (word, rest)

end

/-- The value of words. -/
def value (words : List String) : Except Fault String := do
  match ← level levels (8 * words.length + 8) "" words with
  | (value, []) => return value
  | (_, word :: _) => throw (.unexpected word)

end Evaluation

/-- Write the value of words. A value that counts as false is a failure as well. -/
def evaluation (words : List String) : Report :=
  if words.isEmpty then .misuse 2 "expr" "missing operand"
  else
    match Evaluation.value words with
    | .ok value => ⟨if Evaluation.isNull value then 1 else 0, (value ++ "\n").toList, []⟩
    | .error fault => .trouble 2 "expr" fault.message

end Dataflow.Shell
