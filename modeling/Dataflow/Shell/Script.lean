/-
# Shell scripts

A script is an action. Actions are put together from simple ones, which name a tool
and its arguments. A word is a list of pieces, since quotes and expansions may occur
anywhere in it, and some of the pieces hold words or scripts themselves.
-/

namespace Dataflow.Shell

/-- What stands in for a value that is missing. -/
inductive Fallback where
  | instead
  /-- Another text, which the variable has from then on. -/
  | assigned
  /-- Nothing: the other text is used where the value is there. -/
  | replaced
  | required
deriving DecidableEq, Repr

/-- How a file is used. -/
inductive FileUse where
  | read
  | write
  | append
deriving DecidableEq, Repr

mutual

/-- A piece of a word. -/
inductive Piece where
  | text (isQuoted : Bool) (chars : List Char)
  | variable (isQuoted : Bool) (name : String) (change : Change)
  | sum (isQuoted : Bool) (expression : List Piece)
  | output (isQuoted : Bool) (script : Action)

/-- What an expansion makes of the value of a variable. -/
inductive Change where
  | none
  | length
  /-- The value without the shortest or longest part at one end that fits. -/
  | cut (atEnd longest : Bool) (pattern : List Piece)
  /-- The value unless it is missing, or is empty if that counts as well. -/
  | fallback (kind : Fallback) (emptyToo : Bool) (word : List Piece)
  | meaningless

/-- A change of where a channel leads. -/
inductive Redirect where
  | file (channel : Nat) (use : FileUse) (path : List Piece)
  | join (channel : Nat) (target : List Piece)
  | text (content : List Piece)

/-- A part of a script that can be run. -/
inductive Action where
  | nothing
  | simple (line : Nat) (assignments : List (String × List Piece)) (words : List (List Piece))
      (redirects : List Redirect)
  | sequence (first second : Action)
  | both (first second : Action)
  | either (first second : Action)
  | negated (body : Action)
  /-- An action that is not waited for. -/
  | detached (body : Action)
  | pipe (first second : Action)
  /-- An action that changes nothing outside. -/
  | separate (body : Action)
  | redirected (body : Action) (redirects : List Redirect)
  | choice (condition whenSo otherwise : Action)
  | loop (isUntil : Bool) (condition body : Action)
  /-- An action for each of some words, or of the arguments if none are given. -/
  | forEach (name : String) (words : Option (List (List Piece))) (body : Action)
  /-- The first of some actions with a pattern that a word fits. -/
  | cases (subject : List Piece) (branches : List (List (List Piece) × Action))
  | define (name : String) (body : Action)

end

/-- A word of a script. -/
abbrev Word := List Piece

end Dataflow.Shell
