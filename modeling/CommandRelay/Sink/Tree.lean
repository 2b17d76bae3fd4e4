import CommandRelay.Sink.Basic

/-! # Composite sinks

Sinks stand in a numbered list beside the disk that files are on, so two composites may share
one. A composite writes to its members in order and stops at the first that fails or takes less
than everything; the same holds of composites inside it. What a composite leads to when it holds
itself is `SinkTree.endless`, which always fails. -/

namespace CommandRelay

/-- The sinks of a run, each known by its number, and the alarms that were set off. -/
structure Outlets where
  disk : Disk := {}
  sinks : List Sink := []
  alarms : List Alarm := []

namespace Outlets

/-- Adds a sink: its number and the sinks with it. -/
def add (o : Outlets) (s : Sink) : Outlets × Nat :=
  ({ o with sinks := o.sinks ++ [s] }, o.sinks.length)

/-- Writes to one sink. -/
def write (o : Outlets) (i : Nat) (data : Bytes) : Outlets × Except AccessFault Int :=
  match o.sinks[i]? with
  | none => (o, .ok data.length)
  | some s =>
    let (disk, s', answer) := s.write o.disk data
    (⟨disk, o.sinks.set i s', o.alarms ++ s.nextAlarms⟩, answer)

/-- Flushes one sink. -/
def flush (o : Outlets) (i : Nat) : Outlets × Except AccessFault Unit :=
  match o.sinks[i]? with
  | none => (o, .ok ())
  | some s =>
    let (disk, s, answer) := s.flush o.disk
    ({ o with disk, sinks := o.sinks.set i s }, answer)

/-- Closes one sink, if it is a file. -/
def close (o : Outlets) (i : Nat) : Outlets × Except SystemError Unit :=
  match o.sinks[i]? with
  | some (.file w) =>
    let (disk, w, answer) := w.close o.disk
    ({ o with disk, sinks := o.sinks.set i (.file w) }, answer)
  | _ => (o, .ok ())

/-- Writes text to a console without its sink. -/
def print (o : Outlets) (i : Nat) (text : Text) : Except EncodeError Outlets :=
  match o.sinks[i]? with
  | some (.console c) =>
    (c.print text).map fun c => { o with sinks := o.sinks.set i (.console c) }
  | _ => .ok o

/-- Shows text on a console, whatever is in it. -/
def display (o : Outlets) (i : Nat) (text : Text) : Outlets × Except AccessFault Unit :=
  match o.sinks[i]? with
  | some (.console c) =>
    let (c, answer) := c.display text
    ({ o with sinks := o.sinks.set i (.console c) }, answer)
  | _ => (o, .ok ())

/-- The name of the kind of a sink. -/
def label (o : Outlets) (i : Nat) : String :=
  match o.sinks[i]? with
  | some s => s.label
  | none => ""

end Outlets

/-- A composite of sinks, which are known by their numbers. -/
inductive SinkTree where
  | leaf (i : Nat)
  | group (members : List SinkTree)
  | endless
  deriving Repr

namespace SinkTree

/-- The name of the kind of a tree in messages. -/
def label (o : Outlets) : SinkTree → String
  | .leaf i => o.label i
  | .group _ | .endless => "MultiSink"

mutual

/-- Writes to every sink of a tree, from left to right. -/
def write (data : Bytes) : SinkTree → Outlets → Outlets × Except AccessFault Int
  | .leaf i, o => o.write i data
  | .group members, o =>
    match writeAll data members o with
    | (o, .ok ()) => (o, .ok data.length)
    | (o, .error f) => (o, .error f)
  | .endless, o => (o, .error .endless)

/-- Writes to several trees until one fails or takes another number of bytes. -/
def writeAll (data : Bytes) : List SinkTree → Outlets → Outlets × Except AccessFault Unit
  | [], o => (o, .ok ())
  | t :: rest, o =>
    match t.write data o with
    | (o, .error f) => (o, .error f)
    | (o, .ok n) =>
      if n = data.length then writeAll data rest o
      else (o, .error (.system (.shortWrite (t.label o) n data.length)))

end

mutual

/-- Flushes every sink of a tree, from left to right, until one fails. -/
def flush : SinkTree → Outlets → Outlets × Except AccessFault Unit
  | .leaf i, o => o.flush i
  | .group members, o => flushAll members o
  | .endless, o => (o, .error .endless)

/-- Flushes several trees until one fails. -/
def flushAll : List SinkTree → Outlets → Outlets × Except AccessFault Unit
  | [], o => (o, .ok ())
  | t :: rest, o =>
    match t.flush o with
    | (o, .error f) => (o, .error f)
    | (o, .ok ()) => flushAll rest o

end

mutual

/-- The numbers of the sinks of a tree, from left to right. -/
def leaves : SinkTree → List Nat
  | .leaf i => [i]
  | .group members => leavesAll members
  | .endless => []

/-- The numbers of the sinks of several trees. -/
def leavesAll : List SinkTree → List Nat
  | [] => []
  | t :: rest => t.leaves ++ leavesAll rest

end

end SinkTree

end CommandRelay
