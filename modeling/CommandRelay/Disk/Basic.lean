import CommandRelay.Disk.Path

/-! # Disks

A disk holds the directories and files below a working directory, each under the list of names
that leads to it. `Disk.locate` follows a path as the system does: empty names and single dots
stay, double dots go up, and every name but the last must lead to a directory. Outside the
working directory a few directories are there from the start, and three devices: one takes
everything and keeps nothing, one gives zeros without end, and one is always full. What is made out
there is kept under its names from the root on, behind the slash, which no other name is
(`Disk.fromRoot`). -/

namespace CommandRelay

/-- What a disk can hold under a list of names. -/
inductive Node where
  | directory
  | file (content : Bytes) (executable : Bool)
  deriving DecidableEq, Repr

/-- Directories and files, by the names that lead to them from the working directory or from the
root on. -/
structure Disk where
  nodes : List (List Text × Node) := []
  deriving DecidableEq, Repr

/-- A device that output can go to. -/
inductive Device where
  | null
  | zero
  | full
  deriving DecidableEq, Repr

/-- Where output can go. -/
inductive Place where
  | file (names : List Text)
  | device (d : Device)
  deriving DecidableEq, Repr

/-- What a path leads to. -/
inductive Located where
  | node (names : List Text) (n : Node)
  | vacant (names : List Text)
  | device (d : Device)
  | outside
  deriving DecidableEq, Repr

/-- Whether names can follow on what a path leads to. -/
def Located.isDirectory : Located → Bool
  | .node _ .directory | .outside => true
  | _ => false

namespace Disk

/-- The longest name in bytes. -/
def nameLimit : Nat := 255

/-- The longest path in bytes. -/
def pathLimit : Nat := 4095

/-- The node under a list of names; the empty list is the working directory. -/
def node? (d : Disk) (names : List Text) : Option Node :=
  if names = [] then some .directory else (d.nodes.find? (·.1 = names)).map (·.2)

/-- Puts a node under a list of names. -/
def put (d : Disk) (names : List Text) (n : Node) : Disk :=
  ⟨d.nodes.filter (·.1 ≠ names) ++ [(names, n)]⟩

/-- The directories outside the working directory that paths may name. -/
def outerDirectories : List (List Text) :=
  [[], ["bin"], ["dev"], ["etc"], ["home"], ["proc"], ["root"], ["sys"], ["tmp"], ["usr"],
    ["usr", "bin"], ["var"]]

/-- The devices with the names that lead to them. -/
def devices : List (List Text × Device) :=
  [(["dev", "null"], .null), (["dev", "zero"], .zero), (["dev", "full"], .full)]

/-- The names of an absolute path. -/
def outerNames : List Text → List Text → List Text
  | names, [] => names
  | names, part :: rest =>
    if part = [] ∨ part = "." then outerNames names rest
    else if part = ".." then outerNames names.dropLast rest
    else outerNames (names ++ [part]) rest

/-- What leads from the root on is kept under these names. -/
def fromRoot (names : List Text) : List Text :=
  [Path.slash] :: names

/-- Whether names are those of something outside the working directory. -/
def isOuter (names : List Text) : Bool :=
  names.head? = some [Path.slash]

/-- The device under names from the root on. -/
def deviceAt? (names : List Text) : Option Device :=
  (devices.find? (·.1 = names)).map (·.2)

/-- What there is under names from the root on. -/
def outerNode? (d : Disk) (names : List Text) : Option Located :=
  match deviceAt? names with
  | some device => some (.device device)
  | none =>
    if names ∈ outerDirectories then some .outside
    else (d.node? (fromRoot names)).map (.node (fromRoot names))

/-- Follows the parts of an absolute path from a directory on. -/
def followOuter (d : Disk) (path : Text) :
    List Text → List Text → Except SystemError Located
  | names, [] => .ok ((d.outerNode? names).getD (.vacant (fromRoot names)))
  | names, part :: rest =>
    match d.outerNode? names with
    | some found =>
      if !found.isDirectory then .error (.notDirectory path)
      else if part = [] ∨ part = "." then followOuter d path names rest
      else if part = ".." then followOuter d path names.dropLast rest
      else if nameLimit < Path.byteSize part then .error (.nameTooLong path)
      else followOuter d path (names ++ [part]) rest
    | none => .error (.notFound path)

/-- Follows the parts of a relative path from a directory on. -/
def follow (d : Disk) (path : Text) :
    List Text → List Text → Except SystemError Located
  | names, [] =>
    match d.node? names with
    | some n => .ok (.node names n)
    | none => .ok (.vacant names)
  | names, part :: rest =>
    match d.node? names with
    | some .directory =>
      if part = [] ∨ part = "." then follow d path names rest
      else if part = ".." then
        if names = [] then (if rest.all (· = []) then .ok .outside else .error (.notFound path))
        else follow d path names.dropLast rest
      else if nameLimit < Path.byteSize part then .error (.nameTooLong path)
      else follow d path (names ++ [part]) rest
    | some (.file ..) => .error (.notDirectory path)
    | none => .error (.notFound path)

/-- Follows a path. -/
def locate (d : Disk) (path : Text) : Except SystemError Located :=
  if path = [] then .error (.notFound path)
  else if pathLimit < Path.byteSize path then .error (.nameTooLong path)
  else
    match path.splitOn Path.slash with
    | [] :: parts => d.followOuter path [] parts
    | parts => d.follow path [] parts

/-- Whether a path leads to something. -/
def pathExists (d : Disk) (path : Text) : Bool :=
  (Path.fault? path).isNone &&
    match d.locate path with
    | .ok (.vacant _) | .error _ => false
    | .ok _ => true

/-- Whether a path leads to something, and otherwise why the system does not say that it does. -/
def status (d : Disk) (path : Text) : Except AccessFault Unit :=
  match Path.fault? path with
  | some fault => .error fault
  | none =>
    match d.locate path with
    | .error e => .error (.system e)
    | .ok (.vacant _) => .error (.system (.notFound path))
    | .ok _ => .ok ()

/-- Whether a path leads to a directory. -/
def directoryExists (d : Disk) (path : Text) : Bool :=
  (Path.fault? path).isNone &&
    match d.locate path with
    | .ok found => found.isDirectory
    | .error _ => false

/-- The bytes of the file under a list of names. -/
def contentAt (d : Disk) (names : List Text) : Bytes :=
  match d.node? names with
  | some (.file content _) => content
  | _ => []

/-- Reads the file that a path leads to. -/
def read (d : Disk) (path : Text) : Except AccessFault Bytes :=
  match Path.fault? path with
  | some fault => .error fault
  | none =>
    match d.locate path with
    | .error e => .error (.system e)
    | .ok (.node _ (.file content _)) => .ok content
    | .ok (.node _ .directory) | .ok .outside => .error (.system (.isDirectory path))
    | .ok (.vacant _) => .error (.system (.notFound path))
    | .ok (.device _) => .ok []

/-- The path without the slashes at its end, the root keeping one. -/
def trimSlashes (path : Text) : Text :=
  let kept := (path.reverse.dropWhile (· = Path.slash)).reverse
  if kept = [] ∧ path ≠ [] then "/" else kept

/-- What a path leads to when a file is wanted there: a slash at the end names a directory. -/
def locateForOutput (d : Disk) (path : Text) : Except SystemError Located :=
  if trimSlashes path = path then d.locate path
  else
    match d.locate (trimSlashes path) with
    | .error (.coded number text _) => .error (.coded number text (some path))
    | .error e => .error e
    | .ok _ => .error (.isDirectory path)

/-- Opens a file for output: it is created if there is none, and an old one keeps its bytes or is
emptied. -/
def openForOutput (d : Disk) (keep : Bool) (path : Text) : Except AccessFault (Disk × Place) :=
  match Path.fault? path with
  | some fault => .error fault
  | none =>
    match d.locateForOutput path with
    | .error e => .error (.system e)
    | .ok (.node _ .directory) | .ok .outside => .error (.system (.isDirectory path))
    | .ok (.node names (.file content executable)) =>
      .ok (d.put names (.file (if keep then content else []) executable), .file names)
    | .ok (.vacant names) => .ok (d.put names (.file [] false), .file names)
    | .ok (.device device) => .ok (d, .device device)

/-- Bytes with others put over them from an offset on; a gap is filled with zeros. -/
def overwrite (content : Bytes) (offset : Nat) (data : Bytes) : Bytes :=
  content.take offset ++ List.replicate (offset - content.length) 0 ++ data ++
    content.drop (offset + data.length)

/-- Writes bytes at an offset of a place. -/
def write (d : Disk) (place : Place) (offset : Nat) (data : Bytes) : Except SystemError Disk :=
  match place with
  | .device .null | .device .zero => .ok d
  | .device .full => if data = [] then .ok d else .error .noSpace
  | .file names =>
    if data = [] then .ok d
    else
      let executable := match d.node? names with
        | some (.file _ e) => e
        | _ => false
      .ok (d.put names (.file (overwrite (d.contentAt names) offset data) executable))

/-- The last names of the lists that go one step further than a given one. -/
def stepsFrom (names : List Text) (others : List (List Text)) : List Text :=
  others.filterMap fun other =>
    if other.length = names.length + 1 && names.isPrefixOf other then other.getLast? else none

/-- The names in a directory that is kept, or in one that was there from the start. -/
def namesIn (d : Disk) (path : Text) : Except SystemError (List Text) :=
  match d.locate path with
  | .ok (.node names .directory) => .ok (stepsFrom names (d.nodes.map (·.1)))
  | .ok .outside =>
    let outer := (outerDirectories ++ devices.map (·.1)).map fromRoot
    .ok (stepsFrom (fromRoot (outerNames [] (path.splitOn Path.slash)))
      (outer ++ d.nodes.map (·.1)))
  | .ok (.node ..) | .ok (.device _) => .error (.notDirectory path)
  | .ok (.vacant _) => .error (.notFound path)
  | .error e => .error e

/-- Takes away what is under a list of names. -/
def erase (d : Disk) (names : List Text) : Disk :=
  ⟨d.nodes.filter (·.1 ≠ names)⟩

/-- The files below the working directory: their paths with their bytes. -/
def files (d : Disk) : List (Text × Bytes) :=
  d.nodes.filterMap fun (names, n) =>
    match n with
    | .file content _ => if isOuter names then none else some (Text.join "/" names, content)
    | .directory => none

/-- The directories that must be there for a list of names, and the node under it. -/
def plant (d : Disk) (names : List Text) (n : Node) : Disk :=
  let parents := (List.range names.length).filterMap fun i =>
    if i = 0 then none else some (names.take i)
  (parents.foldl (fun d p => if (d.node? p).isNone then d.put p .directory else d) d).put names n

end Disk

end CommandRelay
