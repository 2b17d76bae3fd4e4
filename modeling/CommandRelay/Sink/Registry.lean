import CommandRelay.Sink.Tree

/-! # Named sinks

A registry knows sinks and groups of sinks by name. What is registered keeps its number, also when
its name comes to stand for something else. A group holds numbers, so what is added to a group later
is seen by every group that holds it; `Registry.tree` reads a number as a tree. -/

namespace CommandRelay

/-- What is registered: a sink, or a group of what else is registered. -/
inductive Registration where
  | sink (i : Nat)
  | group (members : List Nat)
  deriving DecidableEq, Repr

/-- Sinks and groups, and their names. -/
structure Registry where
  outlets : Outlets := {}
  entries : List Registration := []
  names : List (String × Nat) := []

namespace Registry

/-- The number of what a name stands for. -/
def number? (r : Registry) (name : String) : Option Nat :=
  (List.find? (·.1 = name) r.names).map (·.2)

/-- What a name stands for. -/
def find? (r : Registry) (name : String) : Option Registration :=
  (r.number? name).bind (r.entries[·]?)

/-- Registers something under a name. -/
def put (r : Registry) (name : String) (x : Registration) : Registry :=
  { r with
    entries := r.entries ++ [x]
    names := (name, r.entries.length) :: r.names }

/-- Registers a sink. -/
def addSink (r : Registry) (name : String) (s : Sink) : Registry :=
  let (outlets, i) := r.outlets.add s
  { r with outlets }.put name (.sink i)

/-- Registers a group of what names stand for. -/
def addGroup (r : Registry) (name : String) (members : List String) : Registry :=
  r.put name (.group (members.filterMap r.number?))

/-- The tree of a number; `depth` bounds how deep groups stand in each other. -/
def treeWithin (r : Registry) : Nat → Nat → SinkTree
  | 0, _ => .endless
  | depth + 1, n =>
    match r.entries[n]? with
    | some (.sink i) => .leaf i
    | some (.group members) => .group (members.map (treeWithin r depth))
    | none => .group []

/-- The tree of a name. Groups that do not hold themselves stand in each other no deeper than there
are entries. -/
def tree (r : Registry) (name : String) : SinkTree :=
  match r.number? name with
  | some n => r.treeWithin (r.entries.length + 1) n
  | none => .group []

/-- The kind of what a name stands for. -/
def label (r : Registry) (name : String) : String :=
  (r.tree name).label r.outlets

/-- Adds a member to a group. -/
def extend (r : Registry) (name member : String) : Except AccessFault Registry :=
  match r.number? name, r.find? name with
  | some n, some (.group members) =>
    .ok { r with entries := r.entries.set n (.group (members ++ (r.number? member).toList)) }
  | _, _ => .error (.unsupported (r.label name) "add")

/-- The sink under a name. -/
def sink? (r : Registry) (name : String) : Option Sink :=
  match r.find? name with
  | some (.sink i) => r.outlets.sinks[i]?
  | _ => none

/-- Writes to a sink or a group. -/
def write (r : Registry) (name : String) (data : Bytes) : Registry × Except AccessFault Int :=
  let (outlets, answer) := (r.tree name).write data r.outlets
  ({ r with outlets }, answer)

/-- Flushes a sink or a group. -/
def flush (r : Registry) (name : String) : Registry × Except AccessFault Unit :=
  let (outlets, answer) := (r.tree name).flush r.outlets
  ({ r with outlets }, answer)

/-- Closes a file; nothing else can be closed. -/
def close (r : Registry) (name : String) : Registry × Except AccessFault Unit :=
  match r.find? name, r.sink? name with
  | some (.sink i), some (.file _) =>
    let (outlets, answer) := r.outlets.close i
    ({ r with outlets }, answer.mapError .system)
  | _, _ => (r, .error (.unsupported (r.label name) "close"))

/-- Writes text to a console without its sink. -/
def print (r : Registry) (name : String) (text : Text) : Except EncodeError Registry :=
  match r.find? name with
  | some (.sink i) => (r.outlets.print i text).map fun outlets => { r with outlets }
  | _ => .ok r

/-- Closes every file that is still open. -/
def closeAll (r : Registry) : Registry :=
  let close (o : Outlets) (i : Nat) := (o.close i).1
  { r with outlets := (List.range r.outlets.sinks.length).foldl close r.outlets }

end Registry

end CommandRelay
