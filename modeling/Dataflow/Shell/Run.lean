/-
# Running shell scripts

Actions are run in sessions. Whatever may go on without end is given fuel: a script that
uses it up stops where it is.
-/

import Dataflow.Shell.Arithmetic
import Dataflow.Shell.Program
import Dataflow.Shell.Reader
import Dataflow.Shell.Wildcard

namespace Dataflow.Shell

/-- What the pieces of a word become, given what each becomes. -/
def expandWith (one : Piece → Session → List Segment × Session) (word : Word) (s : Session) :
    List Segment × Session :=
  word.foldl
    (fun (segments, s) piece =>
      if s.jump.isSome then (segments, s)
      else
        let (further, s) := one piece s
        (segments ++ further, s))
    ([], s)

/-- The words that segments become in a session. -/
def wordsOf (s : Session) (segments : List Segment) : List String :=
  let fields := fieldsOf s.marks segments
  if s.options.contains 'f' then fields.map plainText
  else fields.flatMap (pathsFor s.files s.directory)

/-- The words that words become. Those after one that declares variables stay whole if
they give a variable a value. -/
def expandWords (one : Piece → Session → List Segment × Session) (words : List Word)
    (s : Session) : List String × Session :=
  let declares := words.head?.any fun word =>
    match literal? word with
    | some (name, _) => ["export", "readonly", "local"].contains (String.ofList name)
    | none => false
  words.foldl
    (fun (fields, s) word =>
      if s.jump.isSome then (fields, s)
      else
        let (segments, s) := expandWith one word s
        let further :=
          if declares && (assignment? word).isSome then [Segment.text segments]
          else wordsOf s segments
        (fields ++ further, s))
    ([], s)

/-- The segments of the value of a variable. -/
def valueSegments (s : Session) (isQuoted : Bool) (name : String) (value : Option String) :
    List Segment :=
  let single (chars : List Char) : Segment := if isQuoted then .fixed chars else .value chars
  if name == "@" || (name == "*" && !isQuoted) then
    (s.arguments.map fun text => single text.toList).intersperse .cut
  else [single (value.getD "").toList]

/-- A value with the part at one end cut off that fits a pattern. -/
def cutValue (atEnd longest : Bool) (pattern : Pattern) (value : String) : String :=
  String.ofList
    (if atEnd then pattern.cutEnd longest value.toList else pattern.cutStart longest value.toList)

/-- With the variables that a session has for programs alone. -/
def childSession (s : Session) (name : String) (arguments : List String) : Session :=
  { s with
    bindings := (Named.ofList [("PATH", Program.usualPath)]).merge s.environment
      |>.insert "PWD" s.directory.path,
    constants := [], functions := [],
    traps := [], options := [], name := name, arguments := arguments, locals := none, loops := 0,
    status := 0, captured := 0, jump := none, line := 1 }

/-- After a round of a loop: whether it goes on, and the session. -/
def afterRound (s : Session) : Bool × Session :=
  match s.jump with
  | none => (true, s)
  | some (.left loops) => (false, { s with jump := if loops ≤ 1 then none else some (.left (loops - 1)) })
  | some (.again loops) =>
    if loops ≤ 1 then (true, { s with jump := none })
    else (false, { s with jump := some (.again (loops - 1)) })
  | some _ => (false, s)

/-- At its end if a failure ends it. -/
def checked (isTested : Bool) (s : Session) : Session :=
  if s.options.contains 'e' && !isTested && s.status != 0 && s.jump.isNone then s.leave else s

/-- With a line about what is run, if there are to be such lines. -/
def traced (s : Session) (words : List String) : Session :=
  if s.options.contains 'x' then
    s.writeTo 2 (String.intercalate " " ("+" :: words) ++ "\n").toList
  else s

/-- What is written where a program is killed by a signal. -/
def killText (signal : Nat) : String :=
  match signal with
  | 1 => "Hangup\n"
  | 3 => "Quit\n"
  | 6 => "Aborted\n"
  | 9 => "Killed\n"
  | 10 => "User defined signal 1\n"
  | 11 => "Segmentation fault\n"
  | 12 => "User defined signal 2\n"
  | 14 => "Alarm clock\n"
  | 15 => "Terminated\n"
  | _ => ""

/-- The signal and the targets that words name. -/
def killTargets? (words : List String) : Option (Nat × List String) :=
  match words with
  | "-s" :: name :: targets => (signalOf? name).map fun signal => (signal, targets)
  | word :: targets =>
    match word.toList with
    | '-' :: name => (signalOf? (String.ofList name)).map fun signal => (signal, targets)
    | _ => some (15, words)
  | [] => none

/-- The script that words ask a shell to run: its options, what it reads the script from,
and the name and arguments of the script. -/
inductive ShellCall where
  | text (options : List Char) (script name : String) (arguments : List String)
  | file (options : List Char) (path : String) (arguments : List String)
  | input (options : List Char)
  | refused (text : String)

/-- Options with letters added to them or taken away. -/
def changedOptions (isSet : Bool) (options letters : List Char) : List Char :=
  if isSet then options ++ letters else options.filter fun letter => !letters.contains letter

/-- The call that words make after the options. -/
def operandCall (name : String) (options : List Char) (words : List String) : ShellCall :=
  match words with
  | [] => if options.contains 'c' then .refused "-c requires an argument" else .input options
  | word :: rest =>
    if options.contains 'c' then
      .text (options.filter (· != 'c')) word (rest.headD name) (rest.drop 1)
    else .file options word rest

/-- The call that words make, given more fuel than there are words. -/
def shellCall (name : String) : Nat → List Char → List String → ShellCall
  | 0, options, words => operandCall name options words
  | _ + 1, options, [] => operandCall name options []
  | fuel + 1, options, word :: rest =>
    if word == "--" || word == "-" then operandCall name options rest
    else
      match word.toList with
      | '-' :: '-' :: _ => .refused "Illegal option --"
      | sign :: c :: letters =>
        if sign != '-' && sign != '+' then operandCall name options (word :: rest)
        else
          let letters := c :: letters
          let isSet := sign == '-'
          let isKnown (letter : Char) : Bool :=
            letter == 'c' || letter == 's' || Builtin.optionNames.any fun option => option.2 == letter
          if letters == ['o'] then
            match rest with
            | [] => operandCall name options []
            | option :: rest =>
              match Builtin.optionNames.lookup option with
              | some letter => shellCall name fuel (changedOptions isSet options [letter]) rest
              | none => .refused ("Illegal option -o " ++ option)
          else
            match letters.find? (!isKnown ·) with
            | some letter => .refused ("Illegal option -" ++ String.ofList [letter])
            | none => shellCall name fuel (changedOptions isSet options letters) rest
      | _ => operandCall name options (word :: rest)

/-- After a program has run in a session: what it changed of files and texts stays. -/
def afterProgram (s after : Session) : Session :=
  { s with
    input := after.input, files := after.files, collected := after.collected,
    status := after.status,
    jump :=
      match after.jump with
      | some (.killed signal) => some (.killed signal)
      | _ => none }

/-- After a program that was waited for. A signal that killed it shows in the status. -/
def reaped (after : Session) : Session :=
  match after.jump with
  | some (.killed signal) =>
    ({ after with jump := none }.writeTo 2 (killText signal).toList).withStatus (128 + signal)
  | _ => after

mutual

/-- What a piece of a word becomes. -/
def expandPiece : Nat → Piece → Session → List Segment × Session
  | 0, _, s => ([], s.leave)
  | _ + 1, .text isQuoted chars, s => ([if isQuoted then .fixed chars else .loose chars], s)
  | fuel + 1, .sum isQuoted expression, s =>
    let (segments, s) := expandWith (expandPiece fuel) expression s
    if s.jump.isSome then ([], s)
    else
      let chars := Segment.chars segments
      match (Formula.read? chars).bind fun formula => formula.evaluate.run s.bindings with
      | .ok (n, bindings) =>
        let digits := (Json.integerText n.toInt).toList
        ([if isQuoted then .fixed digits else .value digits], { s with bindings := bindings })
      | .error fault => ([], s.abort 2 (fault.message (String.ofList chars)))
  | fuel + 1, .output isQuoted script, s =>
    let (chars, after) := s.collect fun s => runSeparate fuel false script s
    let chars := withoutLineEnds (chars.filter (· != '\x00'))
    ([if isQuoted then .fixed chars else .value chars],
      { s.afterSeparate after with captured := after.status })
  | fuel + 1, .variable isQuoted name change, s =>
    let value := s.value? name
    let isUnset := value.isNone && s.options.contains 'u' && name != "@" && name != "*"
    let unset : List Segment × Session := ([], s.abort 2 (name ++ ": parameter not set"))
    match change with
    | .none => if isUnset then unset else (valueSegments s isQuoted name value, s)
    | .length =>
      if isUnset then unset else ([.fixed (Nat.toDigits 10 (value.getD "").length)], s)
    | .cut atEnd longest pattern =>
      if isUnset then unset
      else
        let (segments, s) := expandWith (expandPiece fuel) pattern s
        let cut := cutValue atEnd longest (Segment.pattern segments) (value.getD "")
        (valueSegments s isQuoted "" (some cut), s)
    | .meaningless => ([], s.abort 2 "Bad substitution")
    | .fallback kind emptyToo word =>
      let isMissing :=
        match value with
        | some text => emptyToo && text.isEmpty
        | none => true
      let other (s : Session) : List Segment × Session :=
        let (segments, s) := expandWith (expandPiece fuel) word s
        (if isQuoted then segments else segments.map Segment.loosened, s)
      match kind with
      | .instead => if isMissing then other s else (valueSegments s isQuoted name value, s)
      | .replaced => if isMissing then (valueSegments s isQuoted "" none, s) else other s
      | .assigned =>
        if isMissing then
          let (segments, s) := other s
          let text := Segment.text segments
          if isName name.toList then
            (valueSegments s isQuoted name (some text), s.assign name text)
          else ([], s.abort 2 (name ++ ": bad variable name"))
        else (valueSegments s isQuoted name value, s)
      | .required =>
        if isMissing then
          let (segments, s) := other s
          let usual := if emptyToo then "parameter not set or null" else "parameter not set"
          let text := if word.isEmpty then usual else Segment.text segments
          ([], s.abort 2 (name ++ ": " ++ text))
        else (valueSegments s isQuoted name value, s)

/-- Run with channels changed. Afterwards they lead where they did, unless the changes
stay. A change that cannot be made is a failure. -/
def runRedirected (stays : Bool) (redirects : List Redirect) (run : Session → Session) :
    Nat → Session → Session
  | 0, s => s.leave
  | fuel + 1, s =>
    let expandText (word : Word) (s : Session) : String × Session :=
      let (segments, s) := expandWith (expandPiece fuel) word s
      (Segment.text segments, s)
    let change (state : Bool × Session) (redirect : Redirect) : Bool × Session :=
      let (isPossible, s) := state
      if !isPossible || s.jump.isSome then (isPossible, s)
      else
        match redirect with
        | .file channel use path =>
          let (path, s) := expandText path s
          s.openFile channel use path
        | .join channel target =>
          let (target, s) := expandText target s
          s.joinChannel channel target
        | .text content =>
          let (content, s) := expandText content s
          (true, { s with input := content.toList })
    let readsElse := redirects.any fun
      | .file _ use _ => use == .read
      | .text _ => true
      | .join _ _ => false
    let (isPossible, changed) := redirects.foldl change (true, s)
    let after := if isPossible && changed.jump.isNone then run changed else changed
    if stays then after
    else { after with sinks := s.sinks, input := if readsElse then s.input else after.input }

/-- Run an action that changes nothing outside. -/
def runSeparate : Nat → Bool → Action → Session → Session
  | 0, _, _, s => s.leave
  | fuel + 1, isTested, body, s =>
    conclude fuel (run fuel isTested body { s with traps := s.traps.filter fun trap => trap.2.isEmpty })

/-- Do what is to be done at the end. -/
def conclude : Nat → Session → Session
  | 0, s => s
  | fuel + 1, s =>
    match s.traps.lookup "EXIT", s.jump with
    | _, some (.killed _) | none, _ => s
    | some text, _ =>
      let traps := s.traps.filter fun trap => trap.1 != "EXIT"
      let after := runText fuel "" ⟨text.toList, 1⟩ { s with traps := traps, jump := none }
      match after.jump with
      | some jump => { after with jump := some jump }
      | none => { after with status := s.status, jump := s.jump }

/-- Run an action. Failures are no reason to end if they are tested. -/
def run : Nat → Bool → Action → Session → Session
  | 0, _, _, s => s.leave
  | fuel + 1, isTested, action, s =>
    if s.jump.isSome then s
    else
      match action with
      | .nothing => s
      | .simple line assignments words redirects =>
        checked isTested
          (runSimple fuel isTested assignments words redirects { s with line := line, captured := 0 })
      | .sequence first second => run fuel isTested second (run fuel isTested first s)
      | .both first second =>
        let s := run fuel true first s
        if s.jump.isSome || s.status != 0 then s else run fuel isTested second s
      | .either first second =>
        let s := run fuel true first s
        if s.jump.isSome || s.status == 0 then s else run fuel isTested second s
      | .negated body =>
        let s := run fuel true body s
        if s.jump.isSome then s else s.withStatus (if s.status == 0 then 1 else 0)
      | .detached body =>
        let after := runSeparate fuel isTested body { s with input := [] }
        { s.afterSeparate after with input := s.input, status := 0 }
      | .pipe first second =>
        let (chars, before) := s.collect fun s => runSeparate fuel isTested first s
        let s := s.afterSeparate before
        let after := runSeparate fuel isTested second { s with input := chars }
        checked isTested { s.afterSeparate after with input := s.input }
      | .separate body => checked isTested (s.afterSeparate (runSeparate fuel isTested body s))
      | .redirected body redirects =>
        runRedirected false redirects (fun s => run fuel isTested body s) fuel s
      | .choice condition whenSo otherwise =>
        let s := run fuel true condition s
        if s.jump.isSome then s
        else if s.status == 0 then run fuel isTested whenSo s
        else run fuel isTested otherwise (s.withStatus 0)
      | .loop isUntil condition body =>
        let after := runLoop fuel isTested isUntil condition body 0 { s with loops := s.loops + 1 }
        { after with loops := s.loops }
      | .forEach name words body =>
        let (values, started) :=
          match words with
          | some words => expandWords (expandPiece fuel) words s
          | none => (s.arguments, s)
        let (_, after) := values.foldl
          (fun (goesOn, s) value =>
            if !goesOn || s.jump.isSome then (false, s)
            else afterRound (run fuel isTested body (s.assign name value)))
          (true, { started.withStatus 0 with loops := s.loops + 1 })
        { after with loops := s.loops }
      | .cases subject branches =>
        let (segments, s) := expandWith (expandPiece fuel) subject s
        let chars := Segment.chars segments
        let (chosen, s) := branches.foldl
          (fun (chosen, s) (patterns, body) =>
            patterns.foldl
              (fun (chosen, s) pattern =>
                if Option.isSome chosen || s.jump.isSome then (chosen, s)
                else
                  let (segments, s) := expandWith (expandPiece fuel) pattern s
                  (if (Segment.pattern segments).fits chars then some body else none, s))
              (chosen, s))
          ((none : Option Action), s.withStatus 0)
        match chosen with
        | some body => run fuel isTested body s
        | none => s
      | .define name body =>
        { s with functions := (name, body) :: s.functions }.withStatus 0

/-- Run a loop, its last round having had this status. -/
def runLoop : Nat → Bool → Bool → Action → Action → Nat → Session → Session
  | 0, _, _, _, _, _, s => s.leave
  | fuel + 1, isTested, isUntil, condition, body, status, s =>
    let asked := run fuel true condition s
    let (goesOn, s) := afterRound asked
    if asked.jump.isSome then
      if goesOn then runLoop fuel isTested isUntil condition body status s
      else if s.jump.isSome then s
      else s.withStatus status
    else if (s.status == 0) == isUntil then s.withStatus status
    else
      let (goesOn, s) := afterRound (run fuel isTested body s)
      if goesOn then runLoop fuel isTested isUntil condition body s.status s else s

/-- Run a tool with its arguments, after assignments, which stay only if there is no
tool or a special one. -/
def runSimple : Nat → Bool → List (String × Word) → List Word → List Redirect → Session → Session
  | 0, _, _, _, _, s => s.leave
  | fuel + 1, isTested, assignments, words, redirects, s =>
    let (fields, s) := expandWords (expandPiece fuel) words s
    let assign (s : Session) : Session :=
      let (texts, s) := assignments.foldl
        (fun (texts, s) (name, value) =>
          if s.jump.isSome then (texts, s)
          else
            let (segments, s) := expandWith (expandPiece fuel) value s
            let text := Segment.text segments
            (texts ++ [name ++ "=" ++ text], if s.jump.isSome then s else s.assign name text))
        (([] : List String), s)
      if s.jump.isSome then s else traced s (texts ++ fields)
    if s.jump.isSome then s
    else
      match fields with
      | [] =>
        runRedirected false redirects
          (fun s =>
            let s := assign s
            if s.jump.isSome then s else s.withStatus s.captured)
          fuel s
      | tool :: arguments =>
        let stays := Builtin.special.contains tool && (s.functions.lookup tool).isNone
        let names := assignments.map Prod.fst
        let before := names.map fun name => (name, s.bindings.get? name)
        runRedirected (tool == "exec" && arguments.isEmpty) redirects
          (fun s =>
            let changed := assign s
            if changed.jump.isSome then changed
            else if stays then runTool fuel isTested tool arguments changed
            else
              let after := runTool fuel isTested tool arguments
                { changed with exported := names ++ changed.exported }
              let after := before.foldl (fun s (name, value) => s.restore name value) after
              { after with exported := after.exported.filter fun name =>
                  s.exported.contains name || !names.contains name })
          fuel s

/-- Run a function, a tool that is built in, or a program. -/
def runTool : Nat → Bool → String → List String → Session → Session
  | 0, _, _, _, s => s.leave
  | fuel + 1, isTested, tool, arguments, s =>
    match s.functions.lookup tool with
    | some body =>
      let after := run fuel isTested body
        { s with arguments := arguments, loops := 0, locals := some [] }
      let saved := after.locals.getD []
      let after := saved.foldl (fun s (name, value) => s.restore name value) after
      { after with
        arguments := s.arguments, loops := s.loops, locals := s.locals,
        jump := if after.jump = some .returned then none else after.jump }
    | none => runBuiltin fuel isTested tool arguments s

/-- Run a tool that is built in or a program. -/
def runBuiltin : Nat → Bool → String → List String → Session → Session
  | 0, _, _, _, s => s.leave
  | fuel + 1, isTested, tool, arguments, s =>
    match tool, arguments with
    | "eval", _ =>
      let text := (String.intercalate " " arguments).toList
      runText fuel "eval: " ⟨text, s.line⟩ (s.withStatus 0)
    | "exec", [] => s.withStatus 0
    | "exec", command :: rest =>
      match Program.find s command with
      | .ok _ =>
        let after := runProgram fuel command rest s
        if after.jump.isSome then after else after.leave
      | .error (status, text) => s.abort status ("exec: " ++ command ++ ": " ++ text)
    | ".", path :: _ =>
      match s.supply.read path with
      | .ok text =>
        let after := runText fuel "" ⟨text, 1⟩ s
        { after with jump := if after.jump = some .returned then none else after.jump }
      | .error _ => s.abort 2 (".: cannot open " ++ path ++ ": No such file")
    | "command", "-v" :: name :: _ =>
      if Builtin.isKnown name || keywords.contains name || (s.functions.lookup name).isSome then
        s.write (name ++ "\n").toList
      else
        match Program.find s name with
        | .ok path => s.write (path ++ "\n").toList
        | .error _ => s.withStatus 127
    | "type", _ =>
      arguments.foldl
        (fun s name =>
          let (text, isFound) :=
            if keywords.contains name then (" is a shell keyword", true)
            else if (s.functions.lookup name).isSome then (" is a shell function", true)
            else if Builtin.special.contains name then (" is a special shell builtin", true)
            else if Builtin.isKnown name then (" is a shell builtin", true)
            else
              match Program.find s name with
              | .ok path => (" is " ++ path, true)
              | .error _ => (": not found", false)
          let s := s.writeTo 1 (name ++ text ++ "\n").toList
          if isFound then s else s.withStatus 127)
        (s.withStatus 0)
    | "command", [] => s.withStatus 0
    | "command", name :: rest => runBuiltin fuel isTested name rest s
    | "kill", _ =>
      match killTargets? arguments with
      | none => s.complain 2 "kill: Usage: kill [-s sigspec | -signum | -sigspec] [pid | job]... or\nkill -l [exitstatus]"
      | some (signal, targets) =>
        targets.foldl
          (fun s target =>
            if s.jump.isSome then s
            else if (natural? target.toList).isNone then
              s.complain 2 ("kill: Illegal number: " ++ target)
            else if target != ownNumber then s.complain 1 "kill: No such process\n"
            else
              let trap := (signals.find? fun entry => entry.2 == signal).bind fun entry =>
                s.traps.lookup entry.1
              match trap with
              | some text =>
                if signal == 9 then { s with jump := some (.killed signal) }
                else
                  let after := runText fuel "" ⟨text.toList, 1⟩ s
                  if after.jump.isSome then after else after.withStatus 0
              | none =>
                if harmlessSignals.contains signal then s
                else { s with jump := some (.killed signal) })
          (s.withStatus 0)
    | _, _ =>
      match Builtin.of? tool with
      | some builtin => builtin s arguments
      | none =>
        match Program.find s tool with
        | .ok _ => reaped (runProgram fuel tool arguments s)
        | .error (status, text) => s.complain status (tool ++ ": " ++ text)

/-- Run a program that is there. What it changes of variables stays in it. If it is
killed, the session is. -/
def runProgram : Nat → String → List String → Session → Session
  | 0, _, _, s => s.leave
  | fuel + 1, command, arguments, s =>
    let name := (stepsOf command).getLastD ""
    match Program.of? name with
    | some program => program s arguments
    | none =>
      if name == "env" then runEnvironment fuel arguments s
      else afterProgram s (runShell fuel command arguments s)

/-- Run a program with variables changed for it, or write the variables. -/
def runEnvironment : Nat → List String → Session → Session
  | 0, _, s => s.leave
  | fuel + 1, arguments, s =>
    match Arguments.read ⟨['i', 'v', '0'], ['u', 'C', 'S', 'a'], longOptions "env", true⟩ arguments with
    | .error fault => s.withReport (.misuse 125 "env" fault.message)
    | .ok read =>
      let isCleared := read.has 'i' || read.operands.head? == some "-"
      let words := if read.operands.head? == some "-" then read.operands.drop 1 else read.operands
      let dropped := (read.options.filter fun option => option.1 == 'u').map Prod.snd
      let kept := if isCleared then [] else s.exported.filter fun name => !dropped.contains name
      let assignments := words.takeWhile fun word => (Builtin.splitAssignment word).2.isSome
      let changed := assignments.foldl
        (fun s word =>
          let (name, value) := Builtin.splitAssignment word
          { s with
            bindings := s.bindings.insert name (value.getD ""), exported := s.exported.insert name })
        { s with exported := kept }
      let after :=
        match words.drop assignments.length with
        | [] => Program.printVariables changed []
        | command :: rest =>
          match Program.find changed command with
          | .ok _ => runProgram fuel command rest changed
          | .error (status, _) =>
            let cause := if status == 126 then "Permission denied" else FileTrouble.missing.message
            changed.withReport (.trouble status "env" ("'" ++ command ++ "': " ++ cause))
      { after with bindings := s.bindings, exported := s.exported }

/-- Run a shell as a program of its own. The session is the one that it ends with. -/
def runShell : Nat → String → List String → Session → Session
  | 0, _, _, s => s.leave
  | fuel + 1, command, arguments, s =>
    let start (options : List Char) (name : String) (arguments : List String) (text : List Char)
        (s : Session) : Session :=
      let child := { childSession s name arguments with options := options }
      conclude fuel (runText fuel "" ⟨text, 1⟩ child)
    match shellCall command (arguments.length + 1) [] arguments with
    | .text options script name arguments => start options name arguments script.toList s
    | .file options path arguments =>
      match s.supply.read path with
      | .ok text => start options path arguments text s
      | .error _ =>
        (childSession s command []).withReport
          (.trouble 2 command ("0: cannot open " ++ path ++ ": No such file"))
    | .input options => start options command [] s.input { s with input := [] }
    | .refused text =>
      (childSession s command []).withReport (.trouble 2 command ("0: " ++ text))

/-- Run a text line by line. A fault in it ends the session. -/
def runText : Nat → String → Source → Session → Session
  | 0, _, _, s => s.leave
  | fuel + 1, label, source, s =>
    if s.jump.isSome then s
    else
      match readLine? source with
      | .ok none => s
      | .ok (some (action, rest)) => runText fuel label rest (run fuel false action s)
      | .error ⟨line, fault⟩ => { s with line := line }.abort 2 (label ++ fault.message)

end

end Dataflow.Shell
