/-
# Arithmetic in shell scripts

Formulas over integers of 64 bits, which wrap around, and over variables, which a
formula may also set. Quotients are rounded toward zero, and there is none by zero.
-/

import Dataflow.Json.Writer
import Dataflow.Named
import Dataflow.Shell.Chars

namespace Dataflow.Shell

/-- A formula. -/
inductive Formula where
  | number (n : Int64)
  | variable (name : String)
  | unary (operator : Char) (operand : Formula)
  | binary (operator : String) (left right : Formula)
  /-- One of two operands, as a third is other than zero or zero. -/
  | choice (condition whenSo otherwise : Formula)
  /-- The value that a variable gets; an operator joins it to the one it had. -/
  | assignment (name : String) (operator : Option String) (value : Formula)
deriving DecidableEq, Repr

/-- Why a text has no number as its value. -/
inductive FormulaFault where
  | noOperand
  | noClose
  | noAlternative
  | leftOver
  | divisionByZero
  | noNumber (value : String)
deriving DecidableEq, Repr

def FormulaFault.message (fault : FormulaFault) (formula : String) : String :=
  let about (text : String) : String :=
    "arithmetic expression: " ++ text ++ ": \"" ++ formula ++ "\""
  match fault with
  | .noOperand => about "expecting primary"
  | .noClose => about "expecting ')'"
  | .noAlternative => about "expecting ':'"
  | .leftOver => about "expecting EOF"
  | .divisionByZero => about "division by zero"
  | .noNumber value => "Illegal number: " ++ value

namespace Formula

/-- The largest number as which digits count; more of them do not make it larger. -/
def largest : Nat := Int64.maxValue.toInt.toNat

/-- The value of a digit in a base, if it is one. -/
def digit? (base : Nat) (c : Char) : Option Nat :=
  let value :=
    if c.isDigit then c.toNat - '0'.toNat
    else if c.isAlpha then c.toLower.toNat - 'a'.toNat + 10
    else base
  if value < base then some value else none

/-- The number at the start of characters, which is octal after a zero and hexadecimal
after a zero and an `x`, and what comes after it. -/
def readNumber (chars : List Char) : Nat × List Char :=
  let (base, digits) :=
    match chars with
    | '0' :: x :: rest =>
      if (x == 'x' || x == 'X') && (rest.head?.bind (digit? 16)).isSome then (16, rest)
      else (8, x :: rest)
    | _ => (10, chars)
  let spelled := (digits.map (digit? base)).takeWhile Option.isSome
  (min largest ((spelled.filterMap id).foldl (fun n d => n * base + d) 0),
    digits.drop spelled.length)

/-- The number that a text spells between blanks, with its sign. -/
def number? (chars : List Char) : Option Int64 :=
  let chars := chars.dropWhile isGap
  let isNegative := chars.head? == some '-'
  let digits := if isNegative || chars.head? == some '+' then chars.drop 1 else chars
  let (n, rest) := readNumber digits
  if (digits.head?.map Char.isDigit).getD false && rest.isEmpty then
    some (if isNegative then -Int64.ofNat n else Int64.ofNat n)
  else none

/-- A part of a written formula. -/
inductive Symbol where
  | number (n : Nat)
  | name (name : String)
  | sign (text : String)
deriving DecidableEq, Repr

/-- The operators with more than one character, each before those that it starts
with. -/
def longSigns : List String :=
  ["<<=", ">>=", "&&", "||", "==", "!=", "<=", ">=", "<<", ">>", "+=", "-=", "*=", "/=", "%=",
    "&=", "^=", "|="]

/-- The parts of a written formula, given at least as much fuel as there are
characters. -/
def symbols : Nat → List Char → List Symbol
  | 0, _ | _, [] => []
  | fuel + 1, c :: rest =>
    if isGap c then symbols fuel rest
    else if c.isDigit then
      let (n, after) := readNumber (c :: rest)
      .number n :: symbols fuel after
    else if isNameChar c then
      .name (String.ofList (c :: rest.takeWhile isNameChar)) ::
        symbols fuel (rest.dropWhile isNameChar)
    else
      match longSigns.find? fun text => text.toList.isPrefixOf (c :: rest) with
      | some text => .sign text :: symbols fuel ((c :: rest).drop text.length)
      | none => .sign (String.ofList [c]) :: symbols fuel rest

/-- The operators with two operands, those that bind least first. -/
def levels : List (List String) :=
  [["||"], ["&&"], ["|"], ["^"], ["&"], ["==", "!="], ["<=", ">=", "<", ">"], ["<<", ">>"],
    ["+", "-"], ["*", "/", "%"]]

/-- The operator by which an assignment joins values; none if it is no assignment. -/
def assigning? (sign : String) : Option (Option String) :=
  if sign == "=" then some none
  else if sign.endsWith "=" && longSigns.contains sign &&
      !(["==", "!=", "<=", ">="].contains sign) then
    some (some (sign.dropEnd 1).toString)
  else none

mutual

/-- The formula at the start of symbols, and what comes after it. -/
def readAll? : Nat → List Symbol → Except FormulaFault (Formula × List Symbol)
  | 0, _ => .error .noOperand
  | fuel + 1, symbols => do
    let assigned :=
      match symbols with
      | .name name :: .sign sign :: rest =>
        (assigning? sign).map fun operator => (name, operator, rest)
      | _ => none
    match assigned with
    | some (name, operator, rest) =>
      let (value, after) ← readAll? fuel rest
      return (.assignment name operator value, after)
    | none =>
      let (condition, after) ← readLevel? levels fuel symbols
      match after with
      | .sign "?" :: rest =>
        let (whenSo, after) ← readAll? fuel rest
        match after with
        | .sign ":" :: rest =>
          let (otherwise, after) ← readAll? fuel rest
          return (.choice condition whenSo otherwise, after)
        | _ => .error .noAlternative
      | _ => return (condition, after)

/-- The formula of operators of some levels at the start of symbols, and what comes
after it. -/
def readLevel? (levels : List (List String)) :
    Nat → List Symbol → Except FormulaFault (Formula × List Symbol)
  | 0, _ => .error .noOperand
  | fuel + 1, symbols => do
    match levels with
    | [] => readOperand? fuel symbols
    | operators :: tighter =>
      let (first, after) ← readLevel? tighter fuel symbols
      readFurther? operators tighter first fuel after

/-- The formula that operators of one level go on with, and what comes after it. -/
def readFurther? (operators : List String) (tighter : List (List String)) (left : Formula) :
    Nat → List Symbol → Except FormulaFault (Formula × List Symbol)
  | 0, _ => .error .noOperand
  | fuel + 1, symbols => do
    match symbols with
    | .sign sign :: rest =>
      if operators.contains sign then
        let (right, after) ← readLevel? tighter fuel rest
        readFurther? operators tighter (.binary sign left right) fuel after
      else return (left, symbols)
    | _ => return (left, symbols)

/-- The operand at the start of symbols, and what comes after it. -/
def readOperand? : Nat → List Symbol → Except FormulaFault (Formula × List Symbol)
  | 0, _ => .error .noOperand
  | fuel + 1, symbols => do
    match symbols with
    | .number n :: rest => return (.number (Int64.ofNat n), rest)
    | .name name :: rest => return (.variable name, rest)
    | .sign "(" :: rest =>
      let (inner, after) ← readAll? fuel rest
      match after with
      | .sign ")" :: rest => return (inner, rest)
      | _ => .error .noClose
    | .sign sign :: rest =>
      match sign.toList with
      | [c] =>
        if ['-', '+', '!', '~'].contains c then
          let (operand, after) ← readOperand? fuel rest
          return (.unary c operand, after)
        else .error .noOperand
      | _ => .error .noOperand
    | [] => .error .noOperand

end

/-- The formula that characters spell. -/
def read? (chars : List Char) : Except FormulaFault Formula := do
  let symbols := symbols chars.length chars
  match ← readAll? (16 * symbols.length + 16) symbols with
  | (formula, []) => return formula
  | _ => .error .leftOver

/-- Evaluation, which may set variables. -/
abbrev Evaluating := StateT (Named String) (Except FormulaFault)

/-- The number of a truth value. -/
def truth (holds : Bool) : Int64 := if holds then 1 else 0

/-- What an operator makes of two numbers. -/
def applied (operator : String) (left right : Int64) : Except FormulaFault Int64 :=
  match operator with
  | "|" => .ok (left ||| right)
  | "^" => .ok (left ^^^ right)
  | "&" => .ok (left &&& right)
  | "==" => .ok (truth (left == right))
  | "!=" => .ok (truth (left != right))
  | "<=" => .ok (truth (left ≤ right))
  | ">=" => .ok (truth (left ≥ right))
  | "<" => .ok (truth (left < right))
  | ">" => .ok (truth (left > right))
  | "<<" => .ok (left <<< right)
  | ">>" => .ok (left >>> right)
  | "+" => .ok (left + right)
  | "-" => .ok (left - right)
  | "*" => .ok (left * right)
  | "/" => if right == 0 then .error .divisionByZero else .ok (left / right)
  | _ => if right == 0 then .error .divisionByZero else .ok (left % right)

/-- The number that a variable has; one without a value is zero. -/
def valueOf (name : String) : Evaluating Int64 := do
  let value := ((← get).get? name).getD ""
  if value.isEmpty then return 0
  else
    match number? value.toList with
    | some n => return n
    | none => throw (.noNumber value)

/-- The value of a formula. What does not count is not evaluated. -/
def evaluate : Formula → Evaluating Int64
  | .number n => return n
  | .variable name => valueOf name
  | .unary operator operand => do
    let n ← operand.evaluate
    match operator with
    | '-' => return -n
    | '!' => return truth (n == 0)
    | '~' => return ~~~n
    | _ => return n
  | .binary operator left right => do
    let n ← left.evaluate
    if operator == "&&" then
      if n == 0 then return 0 else return truth ((← right.evaluate) != 0)
    else if operator == "||" then
      if n != 0 then return 1 else return truth ((← right.evaluate) != 0)
    else
      let m ← right.evaluate
      applied operator n m
  | .choice condition whenSo otherwise => do
    if (← condition.evaluate) != 0 then whenSo.evaluate else otherwise.evaluate
  | .assignment name operator value => do
    let n ← value.evaluate
    let n ←
      match operator with
      | some operator => do applied operator (← valueOf name) n
      | none => pure n
    modify fun bindings => bindings.insert name (Json.integerText n.toInt)
    return n

end Formula

end Dataflow.Shell
