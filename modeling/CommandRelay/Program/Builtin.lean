import CommandRelay.Execution.Signal
import CommandRelay.Program.Condition
import CommandRelay.Program.Filing
import CommandRelay.Program.Printing

/-! # What a shell does itself

The commands that a shell performs itself because they are about it: its names, its arguments, its
directory, its signals and jobs, and the loops and functions that it is in. A command that is
refused gives the wording of its fault; what that means for the shell is for the caller. -/

namespace CommandRelay.Program.Shell

/-- What a command leads to, or the wording of its fault. -/
abbrev Outcome := Except String Shell

/-- Prints what a command of the shell has to say; a failure is reported. -/
def say (s : Shell) (text : String) : Shell :=
  match s.write 1 (Octets.toBytes text) with
  | (s, none) => s
  | (s, some _) =>
    (s.complain (s.caller.getD "" ++ ": I/O error")).done (if s.status = 0 then 1 else s.status)

/-- The whole number that an argument stands for. -/
def natural (text : String) : Except String Nat :=
  if text ≠ "" && text.toList.all Char.isDigit then .ok (text.toNat?.getD 0)
  else .error s!"Illegal number: {text}"

/-- A text in single quotes. -/
def inQuotes (text : String) : String :=
  "'" ++ "'\"'\"'".intercalate (text.splitOn "'") ++ "'"

/-! ## Names -/

/-- The name and the value in an argument. -/
def splitAssignment (a : String) : String × Option String :=
  match a.splitOn "=" with
  | name :: v :: rest => (name, some ("=".intercalate (v :: rest)))
  | _ => (a, none)

/-- Checks that a text is a name. -/
def checkName (name : String) : Except String Unit :=
  if Script.isName name then .ok () else .error s!"{name}: bad variable name"

/-- The names of a kind with their values, in order. -/
def listing (s : Shell) (word : String) (isWanted : Variable → Bool) : String :=
  let wanted := (s.names.filter fun p => isWanted p.2).mergeSort fun a b => decide (a.1 ≤ b.1)
  String.join (wanted.map fun (name, v) =>
    word ++ name ++ (match v.value with
      | some value => "=" ++ inQuotes value
      | none => "") ++ "\n")

/-- Marks names, which may be given values first. -/
def mark (word : String) (isMarked : Variable → Bool) (change : Variable → Variable) (s : Shell)
    (arguments : List String) : Outcome :=
  match arguments with
  | [] | ["-p"] => .ok ((s.done 0).say (s.listing (word ++ " ") isMarked))
  | arguments =>
    let one (s : Shell) (a : String) : Outcome := do
      let (name, v) := splitAssignment a
      checkName name
      let s ← match v with
        | some v => s.assign name v false
        | none => pure s
      return s.setVariable name (some (change ((s.entry? name).getD {})))
    arguments.foldlM one (s.done 0)

/-- Takes names or functions away. -/
def unset (s : Shell) (arguments : List String) : Outcome :=
  let (functions, names) := match arguments with
    | "-f" :: rest => (true, rest)
    | "-v" :: rest => (false, rest)
    | rest => (false, rest)
  let one (s : Shell) (name : String) : Outcome := do
    if functions then return { s with functions := s.functions.filter (·.1 ≠ name) }
    checkName name
    match s.entry? name with
    | some v =>
      if v.fixed then throw s!"{name}: is read only"
      return s.setVariable name none
    | none => return { s with functions := s.functions.filter (·.1 ≠ name) }
  names.foldlM one (s.done 0)

/-- Makes names belong to the function at work. -/
def localize (s : Shell) (arguments : List String) : Outcome :=
  if s.depth = 0 then .error "not in a function"
  else
    let one (s : Shell) (a : String) : Outcome := do
      let (name, v) := splitAssignment a
      checkName name
      let s := s.keepOuter name
      match v with
      | some v => s.assign name v false
      | none => return s
    arguments.foldlM one (s.done 0)

/-! ## Switches and arguments -/

/-- The letters of switches with their long names. -/
def switchNames : List (Char × String) :=
  [('e', "errexit"), ('f', "noglob"), ('I', "ignoreeof"), ('i', "interactive"), ('m', "monitor"),
    ('n', "noexec"), ('s', "stdin"), ('x', "xtrace"), ('v', "verbose"), ('V', "vi"),
    ('E', "emacs"), ('C', "noclobber"), ('a', "allexport"), ('b', "notify"), ('u', "nounset")]

/-- Sets or clears a switch. -/
def setSwitch (s : Shell) (on : Bool) (c : Char) : Shell :=
  let letters := switchNames.map (·.1)
  { s with switches := letters.filter fun d => if d = c then on else s.switches.contains d }

/-- How the switches are listed. -/
def switchList (s : Shell) (asCommands : Bool) : String :=
  let one (p : Char × String) : String :=
    let isOn := s.switches.contains p.1
    if asCommands then "set " ++ (if isOn then "-" else "+") ++ s!"o {p.2}\n"
    else p.2 ++ String.ofList (List.replicate (16 - p.2.length) ' ') ++
      (if isOn then "on" else "off") ++ "\n"
  (if asCommands then "" else "Current option settings\n") ++ String.join (switchNames.map one)

/-- Reads switches up to the first other argument: the shell, what is left, and whether arguments
were asked for even if none are left. -/
def readSwitches (s : Shell) : List String → Except String (Shell × List String × Bool)
  | "--" :: rest => .ok (s, rest, true)
  | "-" :: rest => .ok ((s.setSwitch false 'x').setSwitch false 'v', rest, false)
  | a :: rest =>
    match a.toList with
    | sign :: cs =>
      if (sign = '-' || sign = '+') && cs ≠ [] then
        let on := sign = '-'
        let isLong := cs.getLast? = some 'o'
        let letters := if isLong then cs.dropLast else cs
        match letters.find? fun c => !(switchNames.any (·.1 = c)) with
        | some c => .error s!"Illegal option -{c}"
        | none =>
          let s := letters.foldl (fun s c => s.setSwitch on c) s
          if !isLong then readSwitches s rest
          else
            match rest with
            | [] => .ok ((s.done 0).say (s.switchList (!on)), [], false)
            | name :: rest =>
              match switchNames.find? (·.2 = name) with
              | some (c, _) => readSwitches (s.setSwitch on c) rest
              | none => .error s!"Illegal option -o {name}"
      else .ok (s, a :: rest, false)
    | [] => .ok (s, a :: rest, false)
  | [] => .ok (s, [], false)

/-- Sets switches and arguments. -/
def set (s : Shell) (arguments : List String) : Outcome :=
  if arguments = [] then .ok ((s.done 0).say (s.listing "" fun v => v.value.isSome))
  else do
    let (s, rest, isForced) ← (s.done 0).readSwitches arguments
    return if isForced || rest ≠ [] then { s with arguments := rest } else s

/-- Drops arguments from the front. -/
def shift (s : Shell) (arguments : List String) : Outcome := do
  let n ← match arguments with
    | a :: _ => natural a
    | [] => pure 1
  if s.arguments.length < n then throw "can't shift that many"
  return { s with arguments := s.arguments.drop n }.done 0

/-! ## Reading -/

/-- The characters of a line, and whether a backslash keeps them from being special, up to the end
of the line: how many octets were taken, and whether an end was found; `n` bounds the steps. -/
def takeLine (raw : Bool) : Nat → List Char → Nat → List (Char × Bool) →
    List (Char × Bool) × Nat × Bool
  | 0, _, count, acc => (acc.reverse, count, false)
  | _, [], count, acc => (acc.reverse, count, false)
  | n + 1, c :: cs, count, acc =>
    if c = '\n' then (acc.reverse, count + 1, true)
    else if c = '\\' && !raw then
      match cs with
      | [] => (acc.reverse, count + 1, false)
      | '\n' :: cs => takeLine raw n cs (count + 2) acc
      | d :: cs => takeLine raw n cs (count + 2) ((d, true) :: acc)
    else takeLine raw n cs (count + 1) ((c, false) :: acc)

/-- What is left after separators that are blanks. -/
def skipSeparators (separators : String) (cs : List (Char × Bool)) : List (Char × Bool) :=
  cs.dropWhile fun (c, quoted) => !quoted && separators.toList.contains c &&
    (c = ' ' || c = '\t' || c = '\n')

/-- The first field of a line, and what is left of it after its separators. -/
def takeField (separators : String) (cs : List (Char × Bool)) : String × List (Char × Bool) :=
  let cs := skipSeparators separators cs
  let field := cs.takeWhile fun (c, quoted) => quoted || !separators.toList.contains c
  let rest := skipSeparators separators (cs.drop field.length)
  let rest := match rest with
    | (c, false) :: more =>
      if separators.toList.contains c then skipSeparators separators more else rest
    | rest => rest
  (String.ofList (field.map (·.1)), rest)

/-- The fields of a line for names, of which the last one gets all that is left. -/
def fieldsFor (separators : String) : List String → List (Char × Bool) → List (String × String)
  | [], _ => []
  | [name], cs =>
    let (field, rest) := takeField separators cs
    if rest = [] then [(name, field)]
    else
      let cs := (skipSeparators separators cs).reverse
      [(name, String.ofList ((skipSeparators separators cs).reverse.map (·.1)))]
  | name :: names, cs =>
    let (field, rest) := takeField separators cs
    (name, field) :: fieldsFor separators names rest

/-- Reads a line of the standard input into names. -/
def readLine (s : Shell) (arguments : List String) : Outcome := do
  let o ← (Options.read "r" "p" arguments).mapError fun _ => "Illegal option"
  if o.operands = [] then throw "arg count"
  o.operands.forM checkName
  match s.supply 0 with
  | .error _ => return s.done 1
  | .ok supply =>
    let cs := (Octets.ofBytes supply.data).toList
    let (line, count, isEnded) := takeLine (o.has 'r') (cs.length + 1) cs 0 []
    let s := if isEnded then s.consume 0 count else s.consumeAll 0
    let set (s : Shell) (p : String × String) : Outcome := s.assign p.1 p.2 false
    return (← (fieldsFor s.separators o.operands line).foldlM set s).done (if isEnded then 0 else 1)

/-! ## Directories -/

/-- Changes the working directory. -/
def changeDirectory (s : Shell) (arguments : List String) : Outcome := do
  let arguments := arguments.dropWhile fun a => a = "-L" || a = "-P" || a = "--"
  let target := match arguments with
    | [] => s.value "HOME"
    | "-" :: _ => s.value "OLDPWD"
    | a :: _ => a
  if target = "" then return s.done 0
  let path := Octets.toText target
  let there := if path.head? = some Path.slash then Path.absolute s.world.base path
    else Path.absolute (Octets.toText s.whereabouts) path
  let inner := Path.below? s.world.base there
  let folder := match inner with
    | some p => if p = "." then [] else p
    | none => there
  let place : Text := inner.getD there
  if !s.pathExists target || !s.world.disk.directoryExists place then throw s!"can't cd to {target}"
  let old := s.whereabouts
  let s := { s with folder }
  let s ← s.assign "OLDPWD" old false
  let s ← s.assign "PWD" s.whereabouts false
  let s := s.done 0
  return if arguments.head? = some "-" then s.say (s.whereabouts ++ "\n") else s

/-! ## Signals and jobs -/

/-- The number of a signal by its name or number; zero is the end of the shell. -/
def signalNumber? (text : String) : Option Nat :=
  if text = "EXIT" || text = "0" then some 0
  else
    match text.toNat? with
    | some n => if n ≤ 64 then some n else none
    | none => if text.startsWith "SIG" then none else Signal.number? text

/-- The name of a signal without the common start. -/
def signalName (n : Nat) : String :=
  if n = 0 then "EXIT"
  else
    let name := Signal.name n
    if name.startsWith "SIG" then String.ofList (name.toList.drop 3) else name

/-- Sets, clears or lists what is to be done about signals. -/
def trap (s : Shell) (arguments : List String) : Outcome :=
  let arguments := if arguments.head? = some "--" then arguments.drop 1 else arguments
  match arguments with
  | [] =>
    let sorted := s.traps.mergeSort fun a b => a.1 ≤ b.1
    let lines := sorted.map fun (n, action) => s!"trap -- {inQuotes action} {signalName n}\n"
    .ok ((s.done 0).say (String.join lines))
  | first :: rest =>
    let resets := rest = [] || (signalNumber? first).isSome || first = "-"
    let names := if rest = [] || (resets && first ≠ "-") then arguments else rest
    let one (s : Shell) (name : String) : Shell :=
      match signalNumber? name with
      | none => (s.report s!"trap: {name}: bad trap").done 1
      | some n =>
        let others := s.traps.filter (·.1 ≠ n)
        { s with traps := if resets then others else others ++ [(n, first)] }
    .ok (names.foldl one (s.done 0))

/-- The signal and the targets of a kill. -/
def killArguments : List String → Except String (Nat × List String)
  | "-s" :: name :: rest =>
    match signalNumber? name with
    | some n => .ok (n, rest)
    | none => .error s!"invalid signal number or name: {name}"
  | a :: rest =>
    match a.toList with
    | '-' :: c :: cs =>
      if a = "--" then .ok (15, rest)
      else
        match signalNumber? (String.ofList (c :: cs)) with
        | some n => .ok (n, rest)
        | none => .error s!"Illegal option -{c}"
    | _ => .ok (15, a :: rest)
  | [] => .ok (15, [])

/-- How kills are to be written. -/
def killUsage : String :=
  "Usage: kill [-s sigspec | -signum | -sigspec] [pid | job]... or\nkill -l [exitstatus]"

/-- Says that a signal has no process to go to. -/
def missTarget (s : Shell) : Shell :=
  (s.complain "No such process\n").done 1

/-- Sends a signal to a process: to the shell itself, or to one of its jobs. -/
def signal (s : Shell) (n : Nat) (target : String) : Outcome := do
  let job? (number : Nat) : Option Job := s.world.jobs.find? (·.number = number)
  let number ← match target.toList with
    | '%' :: rest =>
      match (String.ofList rest).toNat? with
      | some i =>
        match s.world.jobs.reverse[i - 1]? with
        | some j => pure j.number
        | none => throw s!"No such job: {target}"
      | none => pure (s.lastJob.getD 0)
    | '-' :: _ => pure s.number
    | _ => do
      let n ← natural target
      pure (if n = 0 then s.number else n)
  if number = s.number then
    return if n = 0 then s else { s with pending := s.pending ++ [n] }
  match job? number with
  | none => return s.missTarget
  | some j =>
    if j.endTime ≤ s.now then return s.missTarget
    return if n = 0 then s else { s with world := s.world.endJob number s.now (128 + n) }

/-- Sends signals, or lists them. -/
def kill (s : Shell) (arguments : List String) : Outcome :=
  match arguments with
  | ["-l"] =>
    let names := (List.range 31).map fun i => signalName (i + 1) ++ "\n"
    .ok ((s.done 0).say ("0\n" ++ String.join names))
  | "-l" :: a :: _ => do
    let n ← natural a
    return (s.done 0).say (signalName (if 128 < n then n - 128 else n) ++ "\n")
  | arguments => do
    let (n, targets) ← killArguments arguments
    if targets = [] then throw killUsage
    targets.foldlM (fun s target => s.signal n target) (s.done 0)

/-- What messages say about a process that a signal ended; some signals are not mentioned. -/
def signalText? (n : Nat) : Option String :=
  match n with
  | 2 | 13 => none
  | 1 => some "Hangup"
  | 3 => some "Quit"
  | 4 => some "Illegal instruction"
  | 5 => some "Trace/breakpoint trap"
  | 6 => some "Aborted"
  | 7 => some "Bus error"
  | 8 => some "Floating point exception"
  | 9 => some "Killed"
  | 10 => some "User defined signal 1"
  | 11 => some "Segmentation fault"
  | 12 => some "User defined signal 2"
  | 14 => some "Alarm clock"
  | 15 => some "Terminated"
  | n => some s!"Signal {n}"

/-- Mentions that a signal ended a process with a given status. -/
def mention (s : Shell) (status : Int) : Shell :=
  match (if 128 < status then signalText? (status - 128).toNat else none) with
  | some text => s.report text
  | none => s

/-- Waits for jobs: for those that are named, or for all. -/
def wait (s : Shell) (arguments : List String) : Outcome :=
  match arguments with
  | [] => .ok ((s.world.jobs.foldl (fun s j => s.awaitTime j.endTime) s).done 0)
  | arguments =>
    let one (s : Shell) (target : String) : Outcome := do
      let number ← if target.startsWith "%" then pure (s.lastJob.getD 0) else natural target
      match s.world.jobs.find? (·.number = number) with
      | none => return s.done 127
      | some j => return ((s.awaitTime j.endTime).mention j.status).done j.status
    arguments.foldlM one s

/-! ## Loops and functions -/

/-- Leaves loops or goes on with their next turn. -/
def jump (s : Shell) (stop : Nat → Stop) (arguments : List String) : Outcome := do
  let n ← match arguments with
    | a :: _ => natural a
    | [] => pure 1
  if n = 0 then throw "Illegal number: 0"
  let n := min n s.loops
  return if n = 0 then s.done 0 else { s with stop := some (stop n) }.done 0

/-- The status that an argument asks for, or the one of the last command. -/
def statusOf (s : Shell) : List String → Except String Int
  | a :: _ => do return (← natural a : Nat)
  | [] => .ok s.status

/-! ## Commands by name -/

/-- The commands that a shell performs itself. -/
def builtins : List String :=
  Script.specialNames ++
    ["[", "alias", "bg", "cd", "command", "echo", "false", "fg", "getopts", "hash", "jobs", "kill",
      "printf", "pwd", "read", "test", "true", "type", "ulimit", "umask", "unalias",
      "wait"]

/-- What a command of the shell does that performs no scripts. -/
def builtin (s : Shell) (name : String) (arguments : List String) : Outcome :=
  match name with
  | "false" => .ok (s.done 1)
  | "echo" => .ok ((s.done 0).say (Printing.joined arguments))
  | "printf" =>
    match (if arguments.head? = some "--" then arguments.drop 1 else arguments) with
    | [] => .error "usage: printf format [arg ...]"
    | format :: arguments =>
      let p := Printing.formatted format arguments
      .ok (((p.faults.foldl complain s).done p.status).say p.shown)
  | "test" | "[" =>
    (Condition.test s name arguments).map fun holds => s.done (if holds then 0 else 1)
  | "cd" => s.changeDirectory arguments
  | "pwd" => .ok ((s.done 0).say (s.whereabouts ++ "\n"))
  | "export" =>
    mark "export" (·.exported) (fun v => { v with exported := true }) s arguments
  | "readonly" =>
    mark "readonly" (·.fixed) (fun v => { v with fixed := true }) s arguments
  | "unset" => s.unset arguments
  | "local" => s.localize arguments
  | "set" => s.set arguments
  | "shift" => s.shift arguments
  | "read" => s.readLine arguments
  | "trap" => s.trap arguments
  | "kill" => s.kill arguments
  | "wait" => s.wait arguments
  | "break" => s.jump .leave arguments
  | "continue" => s.jump .again arguments
  | "return" => do return { s with stop := some .back }.done (← s.statusOf arguments)
  | "exit" => do return s.leave (← s.statusOf arguments)
  | "umask" => .ok (if arguments = [] then (s.done 0).say "0022\n" else s.done 0)
  | _ => .ok (s.done 0)

end CommandRelay.Program.Shell
