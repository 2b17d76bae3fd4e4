import CommandRelay.Program.Builtin
import CommandRelay.Program.Expansion
import CommandRelay.Program.Filters
import CommandRelay.Program.Grammar

/-! # Following scripts

`Shell.perform` follows a script from one command to the next. A part that runs inside a pipe, in
brackets or aside is a process of its own, of which the world and the time come back. A simple
command is a function, a command of the shell or a program; a program that is the last thing a
shell does takes its place.

## Implementation notes

The processes of a pipe are followed one after the other, from the same time on: what the first one
writes is kept, with its times, for the second one to read. A loop goes on until its condition says
so; a script that performs more commands than the world allows for is taken for one that waits for
ever. -/

namespace CommandRelay.Program

namespace Shell

/-! ## Redirections -/

/-- A redirection with its target in plain text. -/
structure Opened where
  stream : Nat
  kind : RedirectKind
  target : String
  deriving DecidableEq, Repr

/-- The targets of redirections, unless the shell stops among them. -/
def expandRedirects (run : Substitution) (s : Shell) : List Redirect → Shell × List Opened
  | [] => (s, [])
  | .mk stream kind w :: rest =>
    let (s, target) := s.expandText run w
    let isNumber := target = "-" || (target.length = 1 && target.isNat)
    let s := if s.stop.isNone && kind = .duplicate && !isNumber then
        s.fail "Syntax error: Bad fd number" else s
    if s.stop.isSome then (s, [])
    else
      let (s, more) := expandRedirects run s rest
      (s, ⟨stream, kind, target⟩ :: more)

/-- Why a path cannot be opened, as a shell words it. -/
def openFault (isOutput : Bool) (path : String) (e : SystemError) : String :=
  let isMissing := e.kind = .notFound || e.kind = .notDirectory
  let verb := if isOutput then "create" else "open"
  let reason := if !isMissing then reasonOf e
    else if isOutput then "Directory nonexistent" else "No such file"
  s!"cannot {verb} {path}: {reason}"

/-- Sends a stream elsewhere. -/
def redirectOne (s : Shell) (r : Opened) : Except (Shell × String) Shell :=
  let give (opened : Except SystemError (Shell × Nat)) (isOutput : Bool) :
      Except (Shell × String) Shell :=
    match opened with
    | .ok (s, i) => .ok (s.setStream r.stream (some i))
    | .error e => .error (s, openFault isOutput r.target e)
  match r.kind with
  | .overwrite => give (s.openOutput r.target true false) true
  | .output =>
    let isKept := s.switches.contains 'C' && match s.locate r.target with
      | .ok (.node _ (.file ..)) => true
      | _ => false
    if isKept then .error (s, s!"cannot create {r.target}: File exists")
    else give (s.openOutput r.target true false) true
  | .append => give (s.openOutput r.target false true) true
  | .both => give (s.openOutput r.target false false) true
  | .input => give (s.openInput r.target) false
  | .document =>
    .ok (s.attach r.stream (.source (Supply.ofBytes (Octets.toBytes r.target))))
  | .duplicate =>
    if r.target = "-" then .ok (s.setStream r.stream none)
    else
      match s.openingOf (r.target.toNat?.getD 0) with
      | some i => .ok (s.setStream r.stream (some i))
      | none => .error (s, s!"{r.target}: {notOpen}")

/-- Sends streams elsewhere, one after the other. If one of them cannot be, the streams stay as they
were, and the fault comes back. -/
def redirect (s : Shell) (rs : List Opened) : Shell × Option String :=
  match rs.foldlM redirectOne s with
  | .ok s => (s, none)
  | .error (failed, reason) => ({ s with world := failed.world }, some reason)

/-! ## Programs -/

/-- What a program does that is no shell and starts no other program. -/
def utility? (name : String) : Option (Shell → List String → Shell) :=
  let table : List (String × (Shell → List String → Shell)) :=
    [("true", fun s _ => s.done 0), ("false", fun s _ => s.done 1), ("echo", echo),
      ("printf", printf), ("test", test "test"), ("[", test "["), ("cat", concatenate),
      ("head", front), ("tail", ending), ("wc", tally), ("tr", replace), ("sort", sortLines),
      ("uniq", uniqueLines), ("cut", cutLines), ("rev", reverseLines), ("tac", lastFirst),
      ("tee", branchOff), ("seq", countUp), ("yes", affirm), ("sleep", sleep), ("ls", list),
      ("mkdir", makeDirectories), ("rmdir", removeDirectories), ("rm", remove), ("touch", touch),
      ("cp", copyFiles), ("mv", moveFiles), ("chmod", changeMode), ("basename", baseName),
      ("dirname", directoryName), ("pwd", fun s _ => s.putText "pwd" (s.whereabouts ++ "\n")),
      ("whoami", fun s _ => s.putText "whoami" "root\n"),
      ("uname", fun s _ => s.putText "uname" "Linux\n"), ("printenv", printNames)]
  (table.find? (·.1 = name)).map (·.2)
where
  /-- Prints arguments; escapes are followed only if that is asked for. -/
  echo (s : Shell) (arguments : List String) : Shell :=
    let isOption (a : String) : Bool :=
      match a.toList with
      | '-' :: c :: cs => (c :: cs).all fun d => d = 'n' || d = 'e' || d = 'E'
      | _ => false
    let options := arguments.takeWhile isOption
    let text := " ".intercalate (arguments.drop options.length)
    let letters := options.flatMap String.toList
    let isEscaped := (letters.reverse.find? fun c => c = 'e' || c = 'E') = some 'e'
    let (text, stops) := if isEscaped then Printing.unescaped text else (text, false)
    s.putText "echo" (if stops || letters.contains 'n' then text else text ++ "\n")
  /-- Prints arguments in a format. -/
  printf (s : Shell) (arguments : List String) : Shell :=
    match arguments with
    | [] => s.refuse "printf" "missing operand" 1
    | format :: arguments =>
      let p := Printing.formatted format arguments
      ((p.faults.foldl (fun s f => s.report s!"printf: {f}") s).done p.status).putText "printf"
        p.shown
  /-- Looks at a condition. -/
  test (name : String) (s : Shell) (arguments : List String) : Shell :=
    match Condition.test s name arguments with
    | .ok holds => s.done (if holds then 0 else 1)
    | .error reason => (s.report s!"{name}: {reason}").done 2
  /-- Prints the values of names, or all names that programs get. -/
  printNames (s : Shell) (arguments : List String) : Shell :=
    let exported := s.names.filter fun p => p.2.exported && p.2.value.isSome
    if arguments = [] then
      s.putText "printenv" (String.join (exported.reverse.map fun (name, v) =>
        name ++ "=" ++ v.value.getD "" ++ "\n"))
    else
      let values := arguments.filterMap fun a =>
        (exported.find? (·.1 = a)).bind fun p => p.2.value
      (s.putText "printenv" (String.join (values.map (· ++ "\n")))).done
        (if values.length = arguments.length then 0 else 1)

/-- The programs that are shells. -/
def shellNames : List String :=
  ["sh", "dash"]

/-- Where known programs are. -/
def programPlaces : List String :=
  ["/bin/", "/usr/bin/"]

/-- Whether a program is known by its name alone. -/
def isKnown (name : String) : Bool :=
  shellNames.contains name || name = "env" || (utility? name).isSome

/-- The known program that a name or an absolute path means. -/
def known? (name : String) : Option String :=
  if isKnown name then some name
  else
    programPlaces.findSome? fun place =>
      let rest := String.ofList (name.toList.drop place.length)
      if name.startsWith place && isKnown rest then some rest else none

/-- The interpreter that the first line of a file names, with its argument. -/
def interpreter? (content : Bytes) : Option (List String) :=
  match content with
  | 35 :: 33 :: rest =>
    let line := Octets.ofBytes (rest.takeWhile (· ≠ 10))
    let isBlank (c : Char) : Bool := c = ' ' || c = '\t'
    let (first, rest) := (line.toList.dropWhile isBlank).span fun c => !isBlank c
    let argument := ((rest.dropWhile isBlank).reverse.dropWhile isBlank).reverse
    if first = [] then none
    else some (String.ofList first :: if argument = [] then [] else [String.ofList argument])
  | _ => none

/-- What is to be performed for a program. -/
inductive Plan where
  | known (name : String)
  | script (path : String)
  deriving DecidableEq, Repr

/-- What a file is as a program: a script of a known interpreter with the arguments before its own,
or a file without an interpreter. -/
inductive Executable where
  | plan (p : Plan) (before : List String)
  | plain (path : String)
  deriving DecidableEq, Repr

/-- What a path is as a program. -/
def executableAt (s : Shell) (path : String) : Except SystemError Executable := do
  match ← s.locate path with
  | .node _ (.file content executable) =>
    if !executable then throw (.denied path)
    match interpreter? content with
    | none => return .plain path
    | some words =>
      match known? (words.headD "") with
      | some p => return .plan (.known p) (words.drop 1 ++ [path])
      | none => throw (.notFound path)
  | .node _ .directory | .outside | .device _ => throw (.denied path)
  | .vacant _ => throw (.notFound path)

/-- The process of a program that a shell starts: it has the arguments and the exported names. -/
def programOf (s : Shell) : Shell :=
  { s.nested with
    isNested := false
    number := s.world.jobs.length + s.number + 1
    names := s.names.filter fun p => p.2.exported && p.2.value.isSome
    frames := []
    functions := []
    switches := []
    status := 0
    line := 1
    depth := 0 }

/-- The names that every shell has. -/
def withOwnNames (s : Shell) : Shell :=
  let own : List (String × String) :=
    [("IFS", " \t\n"), ("OPTIND", "1"), ("PPID", "1"), ("PS1", "# "), ("PS2", "> "), ("PS4", "+ "),
      ("PWD", s.whereabouts)]
  own.foldl (fun s (name, v) =>
    let exported := ((s.entry? name).map (·.exported)).getD false
    s.setVariable name (some { value := some v, exported })) s

/-- The options of a shell that it does not share with `set`: whether a text is to be performed, and
whether the input is. -/
structure ShellOptions where
  isText : Bool := false
  isInput : Bool := false
  rest : List String := []
  deriving Repr

/-- Reads the options of a shell. -/
def readShellOptions (s : Shell) (o : ShellOptions) : List String → Except String
    (Shell × ShellOptions)
  | [] => .ok (s, o)
  | "--" :: rest | "-" :: rest => .ok (s, { o with rest })
  | a :: rest =>
    match a.toList with
    | sign :: cs =>
      if (sign = '-' || sign = '+') && cs ≠ [] then
        let own := cs.filter fun c => c = 'c' || c = 's' || c = 'l'
        let letters := cs.filter fun c => !own.contains c
        let o := { o with
          isText := o.isText || own.contains 'c'
          isInput := o.isInput || own.contains 's' }
        let switches := String.ofList (sign :: letters)
        let read (words : List String) : Except String Shell :=
          (s.readSwitches words).map (·.1)
        if letters = [] then readShellOptions s o rest
        else
          match letters.getLast?, rest with
          | some 'o', name :: rest =>
            (read [switches, name]).bind fun s => readShellOptions s o rest
          | _, rest => (read [switches]).bind fun s => readShellOptions s o rest
      else .ok (s, { o with rest := a :: rest })
    | [] => .ok (s, { o with rest := a :: rest })

/-! ## Between commands -/

/-- A shell after a program that it waited for, or whose place the program took. -/
def afterProgram (s inner : Shell) (replaces : Bool) : Shell :=
  let done := s.after inner
  match inner.stop with
  | some (.fall signal) =>
    if replaces then done.fall signal else done.mention done.status
  | some .hang => done
  | _ => if replaces then done.leave done.status else done

/-- Counts a command; a script with too many of them waits for ever. -/
def count (s : Shell) : Shell :=
  match s.world.turns with
  | 0 => s.hang
  | n + 1 => { s with world := { s.world with turns := n } }

/-- Ends the shell after a failure if that is asked for and nothing around it looks at it. -/
def check (isTested : Bool) (s : Shell) : Shell :=
  if s.stop.isNone && s.switches.contains 'e' && !isTested && s.status ≠ 0 then
    s.leave s.status
  else s

/-- Prints a command before it is performed, if that is asked for. -/
def trace (s : Shell) (words : List String) : Shell :=
  if s.switches.contains 'x' then s.report (s.value "PS4" ++ " ".intercalate words) else s

/-- A shell after a turn of a loop, and whether the loop goes on. -/
def afterTurn (s : Shell) : Shell × Bool :=
  match s.stop with
  | some (.leave 0) | some (.leave 1) => ({ s with stop := none }, false)
  | some (.leave (n + 1)) => ({ s with stop := some (.leave n) }, false)
  | some (.again 0) | some (.again 1) => ({ s with stop := none }, true)
  | some (.again (n + 1)) => ({ s with stop := some (.again n) }, false)
  | some _ => (s, false)
  | none => (s, true)

/-- Takes turns while they are to go on; `n` bounds them. -/
def repeatTurns (turn : Shell → Shell × Bool) : Nat → Shell → Shell
  | 0, s => s
  | n + 1, s =>
    match turn s with
    | (s, true) => repeatTurns turn n s
    | (s, false) => s

/-- What a command of the shell comes to; a fault ends the shell if the command is a special
one. -/
def settleBuiltin (s : Shell) (isSpecial : Bool) (outcome : Outcome) : Shell :=
  match outcome with
  | .ok s => s
  | .error reason => if isSpecial then s.fail reason else (s.complain reason).done 2

/-- The description of a command for those who ask what it is; nothing if there is none. -/
def describe? (s : Shell) (isLong : Bool) (name : String) : Option String :=
  let long (text : String) : String := if isLong then s!"{name} is {text}" else name
  if Token.reservedWords.contains name then some (long "a shell keyword")
  else if s.functions.any (·.1 = name) then some (long "a shell function")
  else if Script.specialNames.contains name then some (long "a special shell builtin")
  else if builtins.contains name then some (long "a shell builtin")
  else if isKnown name then
    some (if isLong then s!"{name} is /usr/bin/{name}" else "/usr/bin/" ++ name)
  else if name.contains '/' && s.pathExists name then some (long name)
  else none

/-- Says what commands are. -/
def describe (s : Shell) (isLong : Bool) (names : List String) : Shell :=
  let one (s : Shell) (name : String) : Shell :=
    match s.describe? isLong name with
    | some text => s.say (text ++ "\n")
    | none => (if isLong then s.say s!"{name}: not found\n" else s).done 127
  names.foldl one (s.done 0)

/-- Why a program cannot be started, as a shell words it, and the status for that. -/
def startFault (path : String) (e : SystemError) : String × Int :=
  if e.kind = .notFound || e.kind = .notDirectory then (s!"{path}: not found", 127)
  else (s!"{path}: {reasonOf e}", 126)

/-- Whether assignments before a command outlast it. -/
def keepsAssignments (s : Shell) (name : String) : Bool :=
  Script.specialNames.contains name && !(s.functions.any (·.1 = name))

/-- How many loops may turn. -/
def turnBound : Nat := 10000000

/-- How deep functions may call each other. -/
def depthBound : Nat := 1000

mutual

/-- Follows a script; `isTested` says that something around it looks at failures. The first argument
bounds how deep it goes. -/
def perform : Nat → Bool → Shell → Script → Shell
  | 0, _, s, _ => s.hang
  | n + 1, isTested, s, script =>
    if s.stop.isSome then s
    else
      let run := substitute n
      match script with
      | .nothing => s
      | .simple line assignments words redirects =>
        let s := performSimple n isTested { s with line } assignments words redirects
        check isTested (attend n s)
      | .sequence first second => perform n isTested (perform n isTested s first) second
      | .both first second =>
        let s := perform n true s first
        if s.stop.isNone && s.status = 0 then perform n isTested s second else s
      | .either first second =>
        let s := perform n true s first
        if s.stop.isNone && s.status ≠ 0 then perform n isTested s second else s
      | .negated body =>
        let s := perform n true s body
        if s.stop.isSome then s else s.done (if s.status = 0 then 1 else 0)
      | .pipe stages =>
        let closed := stages.foldl (fun (state : Shell × Option Supply × Nat) stage =>
          performStage n isTested s stages.length state stage) (s, none, 0)
        let ended := closed.1
        check isTested (attend n { ended with stop := if ended.stop = some .hang then ended.stop
          else s.stop })
      | .inside line body redirects =>
        let s := { s with line }
        let (s, targets) := expandRedirects run s redirects
        if s.stop.isSome then s
        else
          match s.nested.redirect targets with
          | (started, some reason) => check isTested (s.after (started.fail reason))
          | (started, none) =>
            let ended := finish n (perform n isTested started body)
            let s := s.after ended
            check isTested (attend n (match ended.stop with
              | some (.fall _) => s.mention s.status
              | _ => s))
      | .aside body => performAside n s body
      | .redirected line body redirects =>
        let s := { s with line }
        let (s, targets) := expandRedirects run s redirects
        if s.stop.isSome then s
        else
          match s.redirect targets with
          | (s, some reason) => check isTested ((s.complain reason).done 2)
          | (inside, none) =>
            let ended := perform n isTested inside body
            let streams := if ended.stop = some .exit then ended.streams else s.streams
            { ended.hold with streams }
      | .branch condition yes no =>
        let s := perform n true s condition
        if s.stop.isSome then s
        else if s.status = 0 then perform n isTested s yes
        else perform n isTested (s.done 0) no
      | .loop whileTrue condition body =>
        let turn (state : Shell) : Shell × Bool :=
          let kept := state.status
          let s := perform n true state condition
          match s.afterTurn with
          | (s, false) => (s, false)
          | (s, true) =>
            if s.stop.isNone && (s.status = 0) ≠ whileTrue then (s.done kept, false)
            else (perform n isTested s body).afterTurn
        let ended := repeatTurns turn turnBound { s with loops := s.loops + 1, status := 0 }
        { ended with loops := s.loops }
      | .each line name words body =>
        let s := { s with line }
        let (s, fields) := s.expandWords run words
        if s.stop.isSome then s
        else
          let turn (state : Shell × Bool) (v : String) : Shell × Bool :=
            if !state.2 then state
            else
              match state.1.assign name v false with
              | .ok s => (perform n isTested s body).afterTurn
              | .error reason => (state.1.fail reason, false)
          let (ended, _) := fields.foldl turn ({ s with loops := s.loops + 1, status := 0 }, true)
          { ended with loops := s.loops }
      | .choice line subject arms =>
        let (s, text) := { s with line }.expandText run subject
        if s.stop.isSome then s else performArms n isTested (s.done 0) text arms
      | .function name body =>
        { s with functions := (name, body) :: s.functions.filter (·.1 ≠ name) }.done 0

/-- Follows the first arm that matches a text. -/
def performArms : Nat → Bool → Shell → String → List (List Word × Script) → Shell
  | 0, _, s, _, _ => s.hang
  | _, _, s, _, [] => s
  | n + 1, isTested, s, text, (patterns, body) :: arms =>
    let try1 (state : Shell × Bool) (w : Word) : Shell × Bool :=
      if state.2 || state.1.stop.isSome then state
      else
        let (s, p) := state.1.expandPattern (substitute n) w
        (s, s.stop.isNone && p.isMatch text.toList)
    let (s, isMatch) := patterns.foldl try1 (s, false)
    if s.stop.isSome then s
    else if isMatch then perform n isTested s body
    else performArms n isTested s text arms

/-- Follows a stage of a pipe that a shell started: what the stage before it wrote is its input. The
shell as it is so far comes back, with what the stage wrote and how many stages there were. -/
def performStage : Nat → Bool → Shell → Nat → Shell × Option Supply × Nat → Script →
    Shell × Option Supply × Nat
  | 0, _, _, _, state, _ => state
  | n + 1, isTested, outer, total, (s, supply, i), stage =>
    let isFinal := i + 1 = total
    let started := { s.nested with now := outer.now }
    let started := match supply with
      | some supply => started.attach 0 (.source supply)
      | none => started
    let (started, drain) := started.add (.drain [] [] (some 262144))
    let started := if isFinal then started else started.setStream 1 (some drain)
    let ended := finish n (perform n isTested started stage)
    let after := s.after ended
    let after := match ended.stop with
      | some (.fall _) => after.mention after.status
      | _ => after
    let supply := match after.world.opening? drain with
      | some (.drain pieces refrain _) =>
        some { pieces := pieces.reverse, refrain, endTime := ended.now }
      | _ => none
    (after, supply, i + 1)

/-- Starts a script that runs aside. -/
def performAside : Nat → Shell → Script → Shell
  | 0, s, _ => s.hang
  | n + 1, s, body =>
    let job := s.number + s.world.jobs.length + 1
    let turns := s.world.turns
    let copy := s.nested
    let started := { copy with
      job
      world := { s.world with turns := min turns 10000 }
      traps := copy.traps ++ [(2, ""), (3, "")] }
    let started := started.attach 0 (.device .null)
    let ended := (finish n (perform n false started body)).hold
    let entry : Job := ⟨job, ended.now, ended.outcome⟩
    { s with
      world := { ended.world with turns, jobs := entry :: ended.world.jobs }
      lastJob := some job
      status := 0 }

/-- Performs a simple command: words are looked at first, then redirections, then assignments. -/
def performSimple : Nat → Bool → Shell → List (String × Word) → List Word → List Redirect → Shell
  | 0, _, s, _, _, _ => s.hang
  | n + 1, isTested, s, assignments, words, redirects =>
    let run := substitute n
    let s := ({ s with inner := 0 } : Shell).count
    let (s, fields) := expandCommand n s words
    let (s, targets) := if s.stop.isSome then (s, []) else expandRedirects run s redirects
    if s.stop.isSome then s
    else
      let name := fields.headD ""
      let isSpecial := fields ≠ [] && s.keepsAssignments name
      match s.redirect targets with
      | (s, some reason) => if isSpecial then s.fail reason else (s.complain reason).done 2
      | (inside, none) =>
        let isKept := fields = [] || isSpecial
        let inside := if isKept then inside else inside.enterFrame
        let assign (state : Shell × List String) (a : String × Word) : Shell × List String :=
          if state.1.stop.isSome then state
          else
            let (s, v) := state.1.expandValue run a.2
            if s.stop.isSome then (s, [])
            else
              let s := if isKept then s else s.keepOuter a.1
              match s.assign a.1 v (!isKept) with
              | .ok s => (s, state.2 ++ [a.1 ++ "=" ++ v])
              | .error reason => (s.fail reason, [])
        let (inside, shown) := assignments.foldl assign (inside, [])
        if inside.stop.isSome then { inside with streams := s.streams }
        else
          let traced := (({ inside with streams := s.streams } : Shell).trace (shown ++ fields))
          let inside := if fields = [] && shown = [] then inside
            else { inside with world := traced.world }
          if fields = [] then { inside with streams := s.streams }.done inside.inner
          else if name = "exec" then performExec n inside (fields.drop 1)
          else
            let ended := performCommand n isTested inside name (fields.drop 1)
            let ended := if isKept then ended else ended.leaveFrame
            if ended.stop = some .exit then ended
            else { ended with streams := s.streams }

/-- The fields of the words of a command; what assigns in its arguments takes them whole. -/
def expandCommand : Nat → Shell → List Word → Shell × List String
  | 0, s, _ => (s.hang, [])
  | n + 1, s, words =>
    let run := substitute n
    match words with
    | [] => (s, [])
    | w :: rest =>
      let (s, first) := s.expandWord run w
      if s.stop.isSome then (s, [])
      else if first = [] then expandCommand n s rest
      else
        let assigns := ["export", "readonly", "local"].contains (first.headD "")
        let one (state : Shell × List String) (w : Word) : Shell × List String :=
          if state.1.stop.isSome then state
          else
            match (if assigns then Source.assignment? w else none) with
            | some (name, value) =>
              let (s, v) := state.1.expandValue run value
              (s, state.2 ++ [name ++ "=" ++ v])
            | none =>
              let (s, fields) := state.1.expandWord run w
              (s, state.2 ++ fields)
        rest.foldl one (s, first)

/-- Puts a program into the place of the shell, or keeps redirections for good. -/
def performExec : Nat → Shell → List String → Shell
  | 0, s, _ => s.hang
  | n + 1, s, arguments =>
    match arguments with
    | [] => s.done s.inner
    | name :: arguments =>
      performProgram n true { s with caller := some "exec" } name arguments

/-- Performs a command by its name. -/
def performCommand : Nat → Bool → Shell → String → List String → Shell
  | 0, _, s, _, _ => s.hang
  | n + 1, isTested, s, name, arguments =>
    match s.functions.find? (·.1 = name) with
    | some (_, body) => performFunction n isTested s body arguments
    | none => performOwn n isTested s (Script.specialNames.contains name) name arguments

/-- Performs a function. -/
def performFunction : Nat → Bool → Shell → Script → List String → Shell
  | 0, _, s, _, _ => s.hang
  | n + 1, isTested, s, body, arguments =>
    if depthBound ≤ s.depth then
      s.fail s!"Maximum function recursion depth ({depthBound}) reached"
    else
      let inside := { s.enterFrame with arguments, depth := s.depth + 1, loops := 0 }
      let ended := perform n isTested inside body
      let stop := if ended.stop = some .back then none else ended.stop
      { ended.leaveFrame with
        arguments := s.arguments
        depth := s.depth
        loops := s.loops
        stop }

/-- Performs a command of the shell, or a program if there is none of that name. -/
def performOwn : Nat → Bool → Shell → Bool → String → List String → Shell
  | 0, _, s, _, _, _ => s.hang
  | n + 1, isTested, s, isSpecial, name, arguments =>
    if !builtins.contains name then
      performProgram n false s name arguments
    else
      let called := { s with caller := some name }
      let ended :=
        match name with
        | "eval" => performText n isTested called (" ".intercalate arguments)
        | "." => performFile n called arguments
        | "command" => performPlain n isTested s arguments
        | "type" => called.describe true arguments
        | _ => called.settleBuiltin isSpecial (called.builtin name arguments)
      { ended with caller := s.caller }

/-- Performs the script in a text. -/
def performText : Nat → Bool → Shell → String → Shell
  | 0, _, s, _ => s.hang
  | n + 1, isTested, s, text =>
    if text.toList.all Char.isWhitespace then s.done 0
    else { performLines n isTested s { rest := text.toList } with line := s.line }

/-- Performs the script in a file as part of the shell. -/
def performFile : Nat → Shell → List String → Shell
  | 0, s, _ => s.hang
  | n + 1, s, arguments =>
    match arguments with
    | [] => s.done 0
    | path :: _ =>
      match (if path.contains '/' then s.readFile path else .error (.notFound path)) with
      | .error _ =>
        if path.contains '/' then s.fail s!"cannot open {path}: No such file"
        else s.fail s!"{path}: not found"
      | .ok data =>
        let inside := { s with caller := some path }
        let ended := performLines n false (inside.done 0) { rest := (Octets.ofBytes data).toList }
        let stop := if ended.stop = some .back then none else ended.stop
        { ended with stop, line := s.line }

/-- Performs a command that is no function, or says what it is. -/
def performPlain : Nat → Bool → Shell → List String → Shell
  | 0, _, s, _ => s.hang
  | n + 1, isTested, s, arguments =>
    match arguments with
    | [] => s.done 0
    | "-v" :: names => { s with caller := some "command" }.describe false names
    | "-V" :: names => { s with caller := some "command" }.describe true names
    | "-p" :: rest | "--" :: rest => performPlain n isTested s rest
    | "exec" :: rest => performExec n s rest
    | name :: arguments => performOwn n isTested s false name arguments

/-- Starts a program and waits for it, or has it take the place of the shell. -/
def performProgram : Nat → Bool → Shell → String → List String → Shell
  | 0, _, s, _, _ => s.hang
  | n + 1, replaces, s, name, arguments =>
    let refuse (text : String) (status : Int) : Shell :=
      let s := (s.complain text).done status
      if s.caller = some "exec" then s.leave status else s
    let start (p : Plan) (arguments : List String) : Shell :=
      s.afterProgram (performPlan n s.programOf p arguments) replaces
    match known? name with
    | some p => start (.known p) arguments
    | none =>
      if !name.contains '/' then refuse s!"{name}: not found" 127
      else
        match s.executableAt name with
        | .ok (.plan p before) => start p (before ++ arguments)
        | .ok (.plain path) => start (.script path) arguments
        | .error e => refuse (startFault name e).1 (startFault name e).2

/-- What a program does. -/
def performPlan : Nat → Shell → Plan → List String → Shell
  | 0, s, _, _ => s.hang
  | n + 1, s, p, arguments =>
    match p with
    | .script path => performShell n s.withOwnNames (path :: arguments)
    | .known "env" => performEnvironment n s arguments
    | .known name =>
      if shellNames.contains name then performShell n { s with self := name }.withOwnNames arguments
      else
        match utility? name with
        | some act => act (s.done 0) arguments
        | none => s.done 127

/-- Starts a program with other names. -/
def performEnvironment : Nat → Shell → List String → Shell
  | 0, s, _ => s.hang
  | n + 1, s, arguments =>
    match arguments with
    | "-i" :: rest | "-" :: rest => performEnvironment n { s with names := [] } rest
    | "-u" :: name :: rest => performEnvironment n (s.setVariable name none) rest
    | "--" :: rest => performEnvironment n s rest
    | [] => (utility? "printenv").elim s fun act => act (s.done 0) []
    | a :: rest =>
      match splitAssignment a with
      | (name, some v) =>
        performEnvironment n (s.setVariable name (some { value := some v, exported := true })) rest
      | (name, none) =>
        match known? name, s.executableAt name with
        | some p, _ => performPlan n s (.known p) rest
        | none, .ok (.plan p before) => performPlan n s p (before ++ rest)
        | none, .ok (.plain path) => performPlan n s (.script path) rest
        | none, .error e =>
          let isMissing := !name.contains '/' || e.kind = .notFound
          let reason := if isMissing then "No such file or directory" else reasonOf e
          (s.report s!"env: '{name}': {reason}").done (if isMissing then 127 else 126)

/-- What a shell does with its arguments. -/
def performShell : Nat → Shell → List String → Shell
  | 0, s, _ => s.hang
  | n + 1, s, arguments =>
    match s.readShellOptions {} arguments with
    | .error reason => ({ s with line := 0 } : Shell).fail reason
    | .ok (s, o) =>
      let text (s : Shell) (cs : List Char) : Shell :=
        finish n (performLines n false (s.done 0) { rest := cs })
      match o.isText, o.rest with
      | true, [] => ({ s with line := 0 } : Shell).fail "-c requires an argument"
      | true, script :: rest =>
        text { s with self := rest.headD s.self, arguments := rest.drop 1 } script.toList
      | false, path :: rest =>
        if o.isInput then text (atEnd { s with arguments := o.rest }) (input s)
        else
          match s.readFile path with
          | .ok data =>
            text { s with self := path, arguments := rest } (Octets.ofBytes data).toList
          | .error e => ({ s with line := 0 } : Shell).fail (openFault false path e)
      | false, [] => text (atEnd { s with arguments := [] }) (input s)
where
  /-- A shell that has read its script from the standard input. -/
  atEnd (s : Shell) : Shell :=
    s.consumeAll 0
  /-- The script on the standard input. -/
  input (s : Shell) : List Char :=
    match s.supply 0 with
    | .ok supply => (Octets.ofBytes supply.data).toList
    | .error _ => []

/-- Performs the lines of a source one after the other. -/
def performLines : Nat → Bool → Shell → Source → Shell
  | 0, _, s, _ => s.hang
  | n + 1, isTested, s, source =>
    if s.stop.isSome then s
    else
      match Script.next source with
      | .error f => ({ s with line := f.line } : Shell).fail f.message
      | .ok (script, rest) =>
        let s := perform n isTested s script
        if rest.isFinished then s else performLines n isTested s { rest with back := none }

/-- What a script inside a word prints. -/
def substitute : Nat → Shell → Script → Shell × String
  | 0, s, _ => (s.hang, "")
  | n + 1, s, script =>
    let (started, drain) := s.nested.add (.drain [] [] none)
    let ended := finish n (perform n false (started.setStream 1 (some drain)) script)
    let after := s.after ended
    let after := match ended.stop with
      | some (.fall _) => after.mention after.status
      | _ => after
    let printed := match after.world.opening? drain with
      | some (.drain pieces _ _) => Octets.ofBytes (pieces.reverse.flatMap (·.2))
      | _ => ""
    ({ after with inner := after.status, status := after.status }, printed)

/-- Looks at the signals that have come: what is to be done about them is done, and one about which
nothing is to be done ends the shell. -/
def attend : Nat → Shell → Shell
  | 0, s => s
  | n + 1, s =>
    if s.isNested || s.pending = [] then s
    else
      let one (s : Shell) (signal : Nat) : Shell :=
        match s.stop with
        | some (.fall _) | some .hang => s
        | _ =>
          match (if signal = Signal.kill then none else s.traps.find? (·.1 = signal)) with
          | none => if [17, 18, 23, 28].contains signal then s else s.fall signal
          | some (_, "") => s
          | some (_, action) =>
            let ended := performText n false { s with caller := none } action
            if ended.stop.isSome then ended
            else { ended with status := s.status, caller := s.caller }
      s.pending.foldl one { s with pending := [] }

/-- What a shell does at its end. -/
def finish : Nat → Shell → Shell
  | 0, s => s
  | n + 1, s =>
    match s.stop with
    | some (.fall _) | some .hang => s
    | _ =>
      match s.traps.find? (·.1 = 0) with
      | none => s
      | some (_, action) =>
        let status := s.status
        let s := { s with traps := s.traps.filter (·.1 ≠ 0), stop := none, caller := none }
        let ended := performText n false s action
        match ended.stop with
        | some .exit | some (.fall _) | some .hang => ended
        | _ => ended.done status

end

end Shell

end CommandRelay.Program
