import CommandRelay.Disk.Writer

/-! # Sinks

A sink takes bytes and says how many it took. There are sinks in memory, files, consoles and
sinks with a fixed answer. A console writes to a stream of text, to a byte stream below a layer of
text, or to a recorder that keeps what it is given and may be set up to fail. -/

namespace CommandRelay

/-- Something that happens when a given write to a recorder begins. -/
structure Alarm where
  write : Nat
  reason : Text
  delay : Nat := 0
  deriving DecidableEq, Repr

/-- How a recorder is set up: the write, flush or notice that fails, the write that is cut short,
and the alarms that writes set off. Writes, flushes and notices are counted from one, each by
themselves. -/
structure RecorderPlan where
  failAt : Option (Nat × AccessFault) := none
  shortAt : Option (Nat × Nat) := none
  flushFailAt : Option (Nat × AccessFault) := none
  noticeFailAt : Option (Nat × AccessFault) := none
  alarms : List Alarm := []
  deriving DecidableEq, Repr

/-- What a recorder has been given. -/
structure Recorder where
  chunks : List Bytes := []
  writes : Nat := 0
  flushes : Nat := 0
  notices : Nat := 0
  plan : RecorderPlan := {}
  deriving DecidableEq, Repr

namespace Recorder

/-- All bytes in order. -/
def value (r : Recorder) : Bytes :=
  r.chunks.flatten

/-- Takes bytes, as the plan says. -/
def write (r : Recorder) (data : Bytes) : Recorder × Except AccessFault Nat :=
  let n := r.writes + 1
  match r.plan.failAt with
  | some (k, fault) =>
    if k = n then ({ r with writes := n }, .error fault) else keep n
  | none => keep n
where
  /-- Keeps the part of a write that is accepted. -/
  keep (n : Nat) : Recorder × Except AccessFault Nat :=
    let taken := match r.plan.shortAt with
      | some (k, accepted) => if k = n then data.take accepted else data
      | none => data
    ({ r with writes := n, chunks := r.chunks ++ [taken] }, .ok taken.length)

/-- What comes of the `n`th step of a kind of which one may be set up to fail. -/
def answerAt (failAt : Option (Nat × AccessFault)) (n : Nat) : Except AccessFault Unit :=
  match failAt with
  | some (k, fault) => if k = n then .error fault else .ok ()
  | none => .ok ()

/-- Counts a flush. -/
def flush (r : Recorder) : Recorder × Except AccessFault Unit :=
  ({ r with flushes := r.flushes + 1 }, answerAt r.plan.flushFailAt (r.flushes + 1))

/-- Counts a notice, of which nothing is kept. -/
def notice (r : Recorder) : Recorder × Except AccessFault Unit :=
  ({ r with notices := r.notices + 1 }, answerAt r.plan.noticeFailAt (r.notices + 1))

/-- The alarms that the next write sets off. -/
def nextAlarms (r : Recorder) : List Alarm :=
  r.plan.alarms.filter (·.write = r.writes + 1)

end Recorder

/-- The stream of a console. -/
inductive ConsoleStream where
  | text (shown : Text)
  | layered (waiting shown : Bytes)
  | recorded (r : Recorder)
  deriving DecidableEq, Repr

namespace ConsoleStream

/-- How many bytes of text may wait in the layer of text. -/
def layerCapacity : Nat := 8192

/-- Bytes that go through a layer of text: they wait for a flush or until they are too many. -/
def throughLayer (waiting shown data : Bytes) : ConsoleStream :=
  let (waiting, shown) :=
    if layerCapacity < waiting.length + data.length then (data, shown ++ waiting)
    else (waiting ++ data, shown)
  if layerCapacity ≤ waiting.length then .layered [] (shown ++ waiting)
  else .layered waiting shown

/-- Writes text to a console without its sink; a layer of text has to encode it. -/
def print (text : Text) : ConsoleStream → Except EncodeError ConsoleStream
  | .text shown => .ok (.text (shown ++ text))
  | .layered waiting shown => (Utf8.encode text).map (throughLayer waiting shown)
  | .recorded r => .ok (.recorded r)

/-- Shows text on a console, whatever is in it; a console that is set up so refuses to. -/
def display (text : Text) : ConsoleStream → ConsoleStream × Except AccessFault Unit
  | .text shown => (.text (shown ++ text), .ok ())
  | .layered waiting shown => (throughLayer waiting shown (Utf8.encodeShown text), .ok ())
  | .recorded r =>
    let (r, answer) := r.notice
    (.recorded r, answer)

/-- Writes bytes: a stream of text decodes them, and waiting text goes before them. -/
def write (data : Bytes) : ConsoleStream → ConsoleStream × Except AccessFault Nat
  | .text shown => (.text (shown ++ Utf8.decodeLossy data), .ok data.length)
  | .layered waiting shown => (.layered [] (shown ++ waiting ++ data), .ok data.length)
  | .recorded r =>
    let (r, answer) := r.write data
    (.recorded r, answer)

/-- Leaves nothing waiting. -/
def flush : ConsoleStream → ConsoleStream × Except AccessFault Unit
  | .text shown => (.text shown, .ok ())
  | .layered waiting shown => (.layered [] (shown ++ waiting), .ok ())
  | .recorded r =>
    let (r, answer) := r.flush
    (.recorded r, answer)

end ConsoleStream

/-- A destination of output. -/
inductive Sink where
  | memory (r : Recorder)
  | file (w : Writer)
  | console (c : ConsoleStream)
  | fixed (label : String) (answer : Except SystemError Int) (flushing : Option SystemError)

namespace Sink

/-- The name of a kind of sink in messages. -/
def label : Sink → String
  | .memory _ => "MemorySink"
  | .file _ => "FileSink"
  | .console _ => "ConsoleSink"
  | .fixed label _ _ => label

/-- Writes bytes: the disk and the sink afterwards, and how many bytes were taken. -/
def write (s : Sink) (d : Disk) (data : Bytes) : Disk × Sink × Except AccessFault Int :=
  match s with
  | .memory r =>
    let (r, answer) := r.write data
    (d, .memory r, answer.map Int.ofNat)
  | .file w =>
    let (d, w, answer) := w.write d data
    (d, .file w, answer.map Int.ofNat)
  | .console c =>
    let (c, answer) := c.write data
    (d, .console c, answer.map Int.ofNat)
  | .fixed label answer flushing => (d, .fixed label answer flushing, answer.mapError .system)

/-- Passes on what waits. -/
def flush (s : Sink) (d : Disk) : Disk × Sink × Except AccessFault Unit :=
  match s with
  | .memory r =>
    let (r, answer) := r.flush
    (d, .memory r, answer)
  | .file w =>
    let (d, w, answer) := w.flush d
    (d, .file w, answer)
  | .console c =>
    let (c, answer) := c.flush
    (d, .console c, answer)
  | .fixed label answer flushing =>
    (d, .fixed label answer flushing, match flushing with
      | some e => .error (.system e)
      | none => .ok ())

/-- The alarms that the next write sets off. -/
def nextAlarms : Sink → List Alarm
  | .console (.recorded r) => r.nextAlarms
  | _ => []

end Sink

end CommandRelay
