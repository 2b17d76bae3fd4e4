import CommandRelay.Disk.Path
import CommandRelay.Program.Octets
import CommandRelay.Program.Script
import CommandRelay.Program.World

/-! # Shells

A process of a script: where it is, what it has open, its names and their values, and what it will
do about signals. All processes are shells, also those of programs that are none, which need less
of it. A process that is started by another one begins as a copy of it, and afterwards only the
world and the time come back: `Shell.nested` and `Shell.after`. -/

namespace CommandRelay.Program

/-- A name of a shell: its value if it has one, whether programs get it, and whether it is never
to change. -/
structure Variable where
  value : Option String := none
  exported : Bool := false
  fixed : Bool := false
  deriving DecidableEq, Repr

/-- Why a shell does not go on with what it was doing: a number of loops are left or begin their
next turn, a function is left, the shell ends, a signal ends it, or it waits for ever. -/
inductive Stop where
  | leave (loops : Nat)
  | again (loops : Nat)
  | back
  | exit
  | fall (signal : Nat)
  | hang
  deriving DecidableEq, Repr

/-- A process of a script. `streams` gives the numbers under which its streams are open, `folder` is
the working directory as a path from the base, `frames` has what the names of functions at work were
outside them, and `traps` what to do about signals: an empty text ignores one. `pending` are signals
that have not been looked at, `status` is the one of the last command and `inner` the one of the
last script inside a word, `caller` is the command that messages name, and `loops` and `depth` count
the loops and the functions at work. -/
structure Shell where
  world : World := {}
  now : Nat := 0
  number : Nat := World.ownJob
  job : Nat := World.ownJob
  streams : List (Nat × Nat) := []
  folder : Text := []
  self : String := "sh"
  arguments : List String := []
  names : List (String × Variable) := []
  frames : List (List (String × Option Variable)) := []
  functions : List (String × Script) := []
  switches : List Char := []
  traps : List (Nat × String) := []
  pending : List Nat := []
  isNested : Bool := false
  status : Int := 0
  inner : Int := 0
  line : Nat := 1
  caller : Option String := none
  loops : Nat := 0
  depth : Nat := 0
  lastJob : Option Nat := none
  stop : Option Stop := none

namespace Shell

/-- Gives the last command a status. -/
def done (s : Shell) (status : Int) : Shell :=
  { s with status }

/-- Ends the shell. -/
def leave (s : Shell) (status : Int) : Shell :=
  { s with status, stop := some .exit }

/-- Ends the shell by a signal. -/
def fall (s : Shell) (signal : Nat) : Shell :=
  { s with stop := some (.fall signal) }

/-- Lets time pass. -/
def pause (s : Shell) (time : Nat) : Shell :=
  { s with now := s.now + time }

/-- Lets time pass up to a moment that may be over. -/
def awaitTime (s : Shell) (time : Nat) : Shell :=
  { s with now := max s.now time }

/-- Waits for ever. -/
def hang (s : Shell) : Shell :=
  { s with
    world := s.world.note s.now s.job (.move (.pause none))
    stop := some .hang }

/-! ## Streams -/

/-- The number of what is open as a stream. -/
def openingOf (s : Shell) (stream : Nat) : Option Nat :=
  (s.streams.find? (·.1 = stream)).map (·.2)

/-- What is open as a stream. -/
def opening? (s : Shell) (stream : Nat) : Option Opening :=
  (s.openingOf stream).bind s.world.opening?

/-- Opens something. -/
def add (s : Shell) (o : Opening) : Shell × Nat :=
  let (world, i) := s.world.add o
  ({ s with world }, i)

/-- Gives a stream what is open under a number, or closes it. -/
def setStream (s : Shell) (stream : Nat) (opening : Option Nat) : Shell :=
  let others := s.streams.filter (·.1 ≠ stream)
  { s with streams := (opening.map fun i => (stream, i)).toList ++ others }

/-- Opens something as a stream. -/
def attach (s : Shell) (stream : Nat) (o : Opening) : Shell :=
  let (s, i) := s.add o
  s.setStream stream (some i)

/-- Changes what is open as a stream. -/
def setOpening (s : Shell) (stream : Nat) (o : Opening) : Shell :=
  match s.openingOf stream with
  | some i => { s with world := s.world.setOpening i o }
  | none => s

/-- The channels that a process holds are held up to now. -/
def hold (s : Shell) : Shell :=
  let holds (ch : Channel) : Bool := s.streams.any fun (_, i) =>
    match s.world.opening? i with
    | some (.channel c) => c = ch
    | _ => false
  let note (w : World) (ch : Channel) : World := w.note s.now s.job (.held ch)
  { s with world := (Channel.all.filter holds).foldl note s.world }

/-- The text of the failure to use a stream that is not open. -/
def notOpen : String := "Bad file descriptor"

/-- Whether a signal is ignored. -/
def ignores (s : Shell) (signal : Nat) : Bool :=
  s.traps.any fun (n, action) => n = signal && action = ""

/-- Has something happen now. -/
def note (s : Shell) (what : Happening) : Shell :=
  { s with world := s.world.note s.now s.job what }

/-- Changes the disk now. -/
def edit (s : Shell) (change : DiskEdit) : Shell :=
  { s with world := s.world.edit s.now s.job change }

/-- Fills a pipe as far as there is room; then nobody reads from it any more. -/
def fill (s : Shell) (stream : Nat) (data : Bytes) (pieces : List (Nat × Bytes))
    (refrain : Bytes) (room : Option Nat) : Shell × Option String :=
  match room with
  | none => (s.setOpening stream (.drain ((s.now, data) :: pieces) refrain none), none)
  | some room =>
    let kept := data.take room
    let pieces := if kept = [] then pieces else (s.now, kept) :: pieces
    let s := s.setOpening stream (.drain pieces refrain (some (room - data.length)))
    if data.length ≤ room then (s, none)
    else if s.ignores 13 then (s, some "Broken pipe")
    else (s.fall 13, none)

/-- Writes bytes to a stream: the process afterwards, and why it failed if it did. -/
def write (s : Shell) (stream : Nat) (data : Bytes) : Shell × Option String :=
  if data = [] then (s, none)
  else
    match s.opening? stream with
    | none | some .directory | some (.source _) => (s, some notOpen)
    | some (.channel ch) => (s.note (.move (.output ch data)), none)
    | some (.device .full) => (s, some "No space left on device")
    | some (.device _) => (s, none)
    | some (.drain pieces refrain room) => s.fill stream data pieces refrain room
    | some (.file names offset appends) =>
      let offset := if appends then (s.world.disk.contentAt names).length else offset
      ((s.edit (.write names offset data)).setOpening stream
        (.file names (offset + data.length) appends), none)

/-- Writes the same bytes again and again to a stream. -/
def writeEndlessly (s : Shell) (stream : Nat) (data : Bytes) : Shell × Option String :=
  match s.opening? stream with
  | some (.drain pieces [] room) =>
    ((s.setOpening stream (.drain pieces data room)).fall 13, none)
  | some (.device .null) | some (.device .zero) => (s.hang, none)
  | _ =>
    let (s, fault) := s.write stream (List.replicate 1000 data).flatten
    if fault.isSome || s.stop.isSome then (s, fault) else (s.hang, none)

/-- What can be read from a stream, or why nothing can. -/
def supply (s : Shell) (stream : Nat) : Except String Supply :=
  match s.opening? stream with
  | none | some (.channel _) | some (.drain ..) => .error notOpen
  | some .directory => .error "Is a directory"
  | some (.file names offset _) => .ok (Supply.ofBytes ((s.world.disk.contentAt names).drop offset))
  | some (.device .null) => .ok {}
  | some (.device _) => .ok { refrain := List.replicate 1024 0 }
  | some (.source supply) => .ok supply

/-- Reads bytes away from a stream, as many as there are up to a number, when they are there. -/
def consume (s : Shell) (stream total : Nat) : Shell :=
  match s.opening? stream with
  | some (.file names offset appends) =>
    let size := (s.world.disk.contentAt names).length
    s.setOpening stream (.file names (min (offset + total) (max offset size)) appends)
  | some (.source supply) =>
    (s.awaitTime (supply.take total).2).setOpening stream (.source (supply.drop total))
  | _ => s

/-- Reads everything from a stream up to its end. -/
def consumeAll (s : Shell) (stream : Nat) : Shell :=
  match s.supply stream with
  | .ok supply => (s.consume stream supply.data.length).awaitTime supply.endTime
  | .error _ => s

/-! ## Messages -/

/-- Prints a line on the error output. -/
def report (s : Shell) (line : String) : Shell :=
  (s.write 2 (Octets.toBytes (line ++ "\n"))).1

/-- Reports what went wrong in a shell, with the line and the command. -/
def complain (s : Shell) (text : String) : Shell :=
  let caller := match s.caller with
    | some name => name ++ ": "
    | none => ""
  s.report s!"{s.self}: {s.line}: {caller}{text}"

/-- Reports what ends the shell. -/
def fail (s : Shell) (text : String) : Shell :=
  (s.complain text).leave 2

/-! ## Paths -/

/-- The path below the base that is meant by one of the process, as far as it leads there. -/
def place (s : Shell) (path : String) : Text :=
  let path := Octets.toText path
  match path with
  | [] => []
  | p :: _ =>
    if p = Path.slash then
      match Path.below? s.world.base path with
      | some inner => if path.getLast? = some Path.slash then inner ++ "/" else inner
      | none => path
    else if s.folder = [] then path
    else s.folder ++ "/" ++ path

/-- What a path of the process leads to; a stream of the process has a path too. -/
def locate (s : Shell) (path : String) : Except SystemError Located :=
  let place := s.place path
  if place = [] then .error (.notFound place) else s.world.disk.locate place

/-- Whether a path of the process leads to something. -/
def pathExists (s : Shell) (path : String) : Bool :=
  s.place path ≠ [] && s.world.disk.pathExists (s.place path)

/-- The names in a directory. -/
def entries (s : Shell) (path : String) : Except SystemError (List String) :=
  (s.world.disk.namesIn (s.place path)).map fun names => names.map Octets.ofText

/-- The stream that a path names. -/
def streamAt? (path : String) : Option Nat :=
  match path with
  | "/dev/stdin" | "/dev/fd/0" => some 0
  | "/dev/stdout" | "/dev/fd/1" => some 1
  | "/dev/stderr" | "/dev/fd/2" => some 2
  | _ => none

/-- Opens a path to read from it. -/
def openInput (s : Shell) (path : String) : Except SystemError (Shell × Nat) :=
  match (streamAt? path).bind s.openingOf with
  | some i => .ok (s, i)
  | none => do
    match ← s.locate path with
    | .node names (.file ..) => return s.add (.file names 0 false)
    | .node _ .directory | .outside => return s.add .directory
    | .device d => return s.add (.device d)
    | .vacant _ => throw (.notFound path)

/-- Opens a path to write to it, at its end or after it has been emptied, or as it is. -/
def openOutput (s : Shell) (path : String) (empties appends : Bool) :
    Except SystemError (Shell × Nat) :=
  match (streamAt? path).bind s.openingOf with
  | some i => .ok (s, i)
  | none =>
    let place := s.place path
    if place = [] then .error (.notFound place)
    else do
      match ← s.world.disk.locateForOutput place with
      | .node names (.file content executable) =>
        let s := if empties && content ≠ [] then s.edit (.put names (.file [] executable)) else s
        return s.add (.file names 0 appends)
      | .node _ .directory | .outside => throw (.isDirectory path)
      | .device d => return s.add (.device d)
      | .vacant names => return (s.edit (.put names (.file [] false))).add (.file names 0 appends)

/-- The bytes of a file. -/
def readFile (s : Shell) (path : String) : Except SystemError Bytes := do
  match ← s.locate path with
  | .node names (.file ..) => return s.world.disk.contentAt names
  | .node _ .directory | .outside => throw (.isDirectory path)
  | .device _ => return []
  | .vacant _ => throw (.notFound path)

/-! ## Names -/

/-- A name with what belongs to it. -/
def entry? (s : Shell) (name : String) : Option Variable :=
  (s.names.find? (·.1 = name)).map (·.2)

/-- Gives a name what belongs to it, or takes it away. -/
def setVariable (s : Shell) (name : String) (v : Option Variable) : Shell :=
  let others := s.names.filter (·.1 ≠ name)
  { s with names := (v.map fun v => (name, v)).toList ++ others }

/-- Gives a name a value; a name that is not to change is a fault. -/
def assign (s : Shell) (name value : String) (exporting : Bool) : Except String Shell :=
  let old := (s.entry? name).getD {}
  if old.fixed then .error s!"{name}: is read only"
  else
    let exported := old.exported || exporting || s.switches.contains 'a'
    .ok (s.setVariable name (some { old with value := some value, exported }))

/-- The value of a name or a position; nothing if it has none. -/
def value? (s : Shell) (name : String) : Option String :=
  match name with
  | "#" => some (toString s.arguments.length)
  | "?" => some (toString s.status)
  | "$" => some (toString s.number)
  | "!" => s.lastJob.map fun n => toString n
  | "-" => some (String.ofList s.switches)
  | "0" => some s.self
  | name =>
    match name.toNat? with
    | some n => if n = 0 then some s.self else s.arguments[n - 1]?
    | none => (s.entry? name).bind (·.value)

/-- The value of a name, empty if it has none. -/
def value (s : Shell) (name : String) : String :=
  (s.value? name).getD ""

/-- What separates fields. -/
def separators (s : Shell) : String :=
  (s.value? "IFS").getD " \t\n"

/-- Remembers what a name was outside the function at work, if that is not known yet. -/
def keepOuter (s : Shell) (name : String) : Shell :=
  match s.frames with
  | [] => s
  | frame :: frames =>
    if frame.any (·.1 = name) then s
    else { s with frames := ((name, s.entry? name) :: frame) :: frames }

/-- Begins to keep what names are. -/
def enterFrame (s : Shell) : Shell :=
  { s with frames := [] :: s.frames }

/-- Gives back what names were. -/
def leaveFrame (s : Shell) : Shell :=
  match s.frames with
  | [] => s
  | frame :: frames =>
    frame.foldl (fun s (name, v) => s.setVariable name v) { s with frames }

/-! ## Processes -/

/-- The process that a shell starts: it begins as a copy that has forgotten the traps but for the
signals that are ignored. -/
def nested (s : Shell) : Shell :=
  { s with
    isNested := true
    traps := s.traps.filter (·.2 = "")
    stop := none
    pending := []
    loops := 0
    caller := none }

/-- The status of a shell that has ended; a signal is counted from 128 on. -/
def outcome (s : Shell) : Int :=
  match s.stop with
  | some (.fall signal) => 128 + signal
  | _ => s.status.emod 256

/-- A shell after a process that it waited for. -/
def after (s inner : Shell) : Shell :=
  let inner := inner.hold
  { s with
    world := inner.world
    now := max s.now inner.now
    pending := s.pending ++ inner.pending
    status := inner.outcome
    stop := if inner.stop = some .hang then some .hang else s.stop }

/-- The child that a shell has been. -/
def child (s : Shell) : Child :=
  let s := s.hold
  { moves := s.world.moves s.now
    exitCode := match s.stop with
      | some (.fall signal) => -signal
      | _ => s.status.emod 256 }

end Shell

end CommandRelay.Program
