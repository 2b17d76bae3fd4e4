import CommandRelay.Program.Shell

/-! # What programs have in common

How programs take their options, print, complain and read the files that they are given. Options
are single letters, which may stand together, and may come after other arguments; some of them
have a value. -/

namespace CommandRelay.Program

/-- The options of a program with their values, and its other arguments. -/
structure Options where
  flags : List (Char × String) := []
  operands : List String := []
  deriving Repr

namespace Options

/-- Whether an option is given. -/
def has (o : Options) (c : Char) : Bool :=
  o.flags.any (·.1 = c)

/-- The value of an option, the last one if it is given more than once. -/
def get? (o : Options) (c : Char) : Option String :=
  (o.flags.reverse.find? (·.1 = c)).map (·.2)

/-- Takes apart options that stand together: those read so far, or what is wrong with them; nothing
is left for the last one if its value is the next argument. -/
def cluster (plain valued : String) : List Char → Except String (List (Char × String) × Option Char)
  | [] => .ok ([], none)
  | c :: rest =>
    if valued.contains c then
      if rest = [] then .ok ([], some c) else .ok ([(c, String.ofList rest)], none)
    else if plain.contains c then
      (cluster plain valued rest).map fun (flags, open?) => ((c, "") :: flags, open?)
    else .error s!"invalid option -- '{c}'"

/-- Reads arguments as options and operands; `plain` has the letters of options without values, and
`valued` of those with one. -/
def read (plain valued : String) : List String → Except String Options
  | [] => .ok {}
  | "--" :: rest => .ok { operands := rest }
  | a :: rest =>
    match a.toList with
    | '-' :: c :: cs =>
      match cluster plain valued (c :: cs) with
      | .error reason => .error reason
      | .ok (flags, none) =>
        (read plain valued rest).map fun o => { o with flags := flags ++ o.flags }
      | .ok (flags, some c) =>
        match rest with
        | [] => .error s!"option requires an argument -- '{c}'"
        | v :: rest =>
          (read plain valued rest).map fun o => { o with flags := flags ++ (c, v) :: o.flags }
    | _ => (read plain valued rest).map fun o => { o with operands := a :: o.operands }

end Options

namespace Shell

/-- Prints bytes on the standard output; a failure is reported. -/
def put (s : Shell) (program : String) (data : Bytes) : Shell :=
  match s.write 1 data with
  | (s, none) => s
  | (s, some reason) => (s.report s!"{program}: write error: {reason}").leave 1

/-- Prints text on the standard output. -/
def putText (s : Shell) (program : String) (text : String) : Shell :=
  s.put program (Octets.toBytes text)

/-- Refuses the arguments of a program. -/
def refuse (s : Shell) (program reason : String) (status : Int) : Shell :=
  ((s.report s!"{program}: {reason}").report
    s!"Try '{program} --help' for more information.").done status

/-- Reads the arguments of a program and goes on with them, unless they are refused. -/
def withOptions (s : Shell) (program plain valued : String) (arguments : List String)
    (go : Options → Shell) : Shell :=
  match Options.read plain valued arguments with
  | .ok o => go o
  | .error reason => s.refuse program reason 1

/-- The stream under which programs read files. -/
def fileStream : Nat := 10

/-- Opens what a program is to read: a file, or the standard input for a hyphen. -/
def openOperand (s : Shell) (path : String) : Except SystemError (Shell × Nat) :=
  if path = "-" then .ok (s, 0)
  else (s.openInput path).map fun (s, i) => (s.setStream fileStream (some i), fileStream)

/-- The reason of a system error in octets. -/
def reasonOf (e : SystemError) : String :=
  Octets.ofText e.reason

/-- Reads operands one after the other, or the standard input if there are none. `use` is given
what can be read, and leaves the stream to be read up; `missing` and `unreadable` word the
complaints. -/
def readEach (s : Shell) (missing unreadable : String → String → String)
    (use : Shell → String → Nat → Supply → Shell) (operands : List String) : Shell :=
  let one (s : Shell) (path : String) : Shell :=
    if s.stop.isSome then s
    else
      match s.openOperand path with
      | .error e => (s.report (missing path (reasonOf e))).done 1
      | .ok (s, stream) =>
        match s.supply stream with
        | .error reason => (s.report (unreadable path reason)).done 1
        | .ok supply => use s path stream supply
  (if operands = [] then ["-"] else operands).foldl one s

/-- The wording of most complaints: program, path and reason. -/
def plainly (program path reason : String) : String :=
  s!"{program}: {path}: {reason}"

/-- All bytes of the operands, one after the other. -/
def gather (s : Shell) (program : String) (operands : List String) : Shell × Bytes :=
  let read (state : Shell × Bytes) (path : String) : Shell × Bytes :=
    let (s, data) := state
    match s.openOperand path with
    | .error e => ((s.report (plainly program path (reasonOf e))).done 1, data)
    | .ok (s, stream) =>
      match s.supply stream with
      | .error reason => ((s.report (plainly program path reason)).done 1, data)
      | .ok supply =>
        let s := s.consumeAll stream
        (if supply.isEndless then s.hang else s, data ++ supply.data)
  (if operands = [] then ["-"] else operands).foldl read (s, [])

/-- The lines of bytes, each with its line feed. -/
def lines (data : Bytes) : List Bytes :=
  data.splitBy fun a _ => a ≠ 10

/-- The lines of a text without their line feeds. -/
def textLines (data : Bytes) : List String :=
  (lines data).map fun l => Octets.ofBytes (l.filter (· ≠ 10))

end Shell

end CommandRelay.Program
