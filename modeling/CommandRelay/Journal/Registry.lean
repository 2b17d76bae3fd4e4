import CommandRelay.Disk.Directory
import CommandRelay.Journal.Setup

/-! # Journals by name

Every journal is registered under the name of its file, one without a file under a name of its
own. The dots in names make a hierarchy: a journal without a level of its own takes the one of
the nearest journal that is registered under the front part of its name, or of the root. Whoever
opens a journal under a name that has outputs already shares them, with their levels and their
layouts, and sets the level of the journal anew. Lines go on to the outputs of the journals above
until an opening has come to its end. -/

namespace CommandRelay.Journal

/-- Where an output puts lines: at the end of a file, with what waits to be put there, or on the
console. -/
inductive Destination where
  | file (place : Place) (waiting : Bytes)
  | console
  deriving DecidableEq, Repr

/-- An output of a journal. -/
structure Output where
  destination : Destination
  rank : Nat
  layout : Text
  deriving DecidableEq, Repr

/-- A registered journal; without a parent the root stands above it. `passesOn` says that lines go
on to the outputs of the journals above. -/
structure Entry where
  name : Text
  rank : Nat := 0
  outputs : List Output := []
  parent : Option Text := none
  passesOn : Bool := true
  deriving DecidableEq, Repr

/-- The registered journals. `awaited` are names above others under which none is registered yet,
with the names below them. `lost` says that some line could not be written. -/
structure Registry where
  disk : Disk := {}
  console : Text := []
  lost : Bool := false
  root : Entry := { name := "root", rank := 30 }
  entries : List Entry := []
  awaited : List (Text × List Text) := []
  unnamed : Nat := 140000000000000
  deriving DecidableEq, Repr

namespace Registry

/-! ## The hierarchy -/

/-- The front parts of a name that end before a dot below a bound, the longest one first. A dot at
the front counts for nothing, nor does one right before a dot that counted. -/
def frontsBelow (name : Text) : Nat → List Text
  | 0 => []
  | 1 => []
  | n + 2 =>
    if name[n + 1]? = some Path.dot then name.take (n + 1) :: frontsBelow name n
    else frontsBelow name (n + 1)

/-- The names above a name, the nearest one first. -/
def fronts (name : Text) : List Text :=
  frontsBelow name name.length

/-- The journal under a name. -/
def find? (r : Registry) (name : Text) : Option Entry :=
  if name = r.root.name then some r.root else r.entries.find? (·.name = name)

/-- Puts a journal in the place of the one of its name. -/
def update (r : Registry) (e : Entry) : Registry :=
  if e.name = r.root.name then { r with root := e }
  else { r with entries := r.entries.map fun x => if x.name = e.name then e else x }

/-- The names below an awaited name. -/
def below (r : Registry) (name : Text) : List Text :=
  ((r.awaited.find? (·.1 = name)).map (·.2)).getD []

/-- Awaits a name above another one. -/
def await (r : Registry) (above name : Text) : Registry :=
  let rest := r.awaited.filter (·.1 ≠ above)
  let names := r.below above
  { r with awaited := rest ++ [(above, if names.contains name then names else names ++ [name])] }

/-- Looks for the nearest registered journal above a name, and awaits those before it. -/
def adopt (name : Text) : Registry → List Text → Registry × Option Text
  | r, [] => (r, none)
  | r, front :: more =>
    match r.entries.find? (·.name = front) with
    | some e => (r, some e.name)
    | none => adopt name (r.await front name) more

/-- The name of the journal above another one. -/
def parentName (r : Registry) (e : Entry) : Text :=
  e.parent.getD r.root.name

/-- Puts a new journal above those that awaited it, unless they have found one as near. -/
def takeOver (r : Registry) (name : Text) (names : List Text) : Registry :=
  { r with
    entries := r.entries.map fun e =>
      if names.contains e.name && !name.isPrefixOf (r.parentName e) then
        { e with parent := some name }
      else e }

/-- Registers a journal, unless there is one of its name. -/
def register (r : Registry) (name : Text) : Registry :=
  if (r.find? name).isSome then r
  else
    let waiting := r.below name
    let r := { r with awaited := r.awaited.filter (·.1 ≠ name) }
    let r := r.takeOver name waiting
    let (r, parent) := adopt name r (fronts name)
    { r with entries := r.entries ++ [{ name, parent }] }

/-- The rank from which on lines pass; zero means that a journal has none of its own. -/
def passRankWithin (r : Registry) : Nat → Text → Nat
  | 0, _ => 0
  | n + 1, name =>
    match r.find? name with
    | none => 0
    | some e =>
      if e.rank ≠ 0 ∨ name = r.root.name then e.rank
      else passRankWithin r n (r.parentName e)

/-- The rank from which on lines of a journal pass. -/
def passRank (r : Registry) (name : Text) : Nat :=
  r.passRankWithin (r.entries.length + 2) name

/-! ## Opening a journal -/

/-- Opens the file of a journal for more lines. It is opened by its absolute path; the working
directory is `base`. -/
def openFile (r : Registry) (base path : Text) : Except AccessFault (Registry × Destination) :=
  let path := Path.absolute base path
  match Path.fault? path with
  | some fault => .error fault
  | none =>
    if Disk.pathLimit < Path.byteSize path then .error (.system (.nameTooLong path))
    else
      match r.disk.openForOutput true ((Path.below? base path).getD path) with
      | .ok (disk, place) => .ok ({ r with disk }, .file place [])
      | .error (.system (.coded number text (some _))) =>
        .error (.system (.coded number text (some path)))
      | .error fault => .error fault

/-- Makes the directory that a file is in, unless it is there. -/
def ensureDirectoryOf (r : Registry) (path : Text) : Registry × Except AccessFault Unit :=
  let directory := Path.directory path
  if directory = [] ∨ r.disk.pathExists directory then (r, .ok ())
  else
    let (disk, answer) := r.disk.ensureDirectories directory
    ({ r with disk }, answer)

/-- Gives a journal without outputs its outputs. -/
def equip (r : Registry) (base : Text) (path : Option Text) (console : Bool) (rank : Nat)
    (layout : Value) (e : Entry) : Registry × Except SetupFault Unit :=
  match layoutOf layout with
  | .error fault => (r, .error fault)
  | .ok layout =>
    let shown : List Output :=
      if console ∨ path.isNone then [⟨.console, rank, layout⟩] else []
    match path with
    | none => (r.update { e with outputs := shown }, .ok ())
    | some path =>
      match r.openFile base path with
      | .error fault => (r, .error (.access fault))
      | .ok (r, destination) =>
        (r.update { e with outputs := ⟨destination, rank, layout⟩ :: shown }, .ok ())

/-- Registers a journal under a name and sets its level, then gives it outputs if it has none. Only
at the end it stops to pass lines on. -/
def openNamed (r : Registry) (base name : Text) (path : Option Text) (console : Bool)
    (level layout : Value) : Registry × Except SetupFault Entry :=
  let r := r.register name
  match rankOf level with
  | .error fault => (r, .error fault)
  | .ok rank =>
    let e := { (r.find? name).getD { name } with rank }
    let r := r.update e
    let (r, answer) :=
      if e.outputs = [] then r.equip base path console rank layout e else (r, .ok ())
    match answer with
    | .error fault => (r, .error fault)
    | .ok () =>
      let e := { (r.find? name).getD e with passesOn := false }
      (r.update e, .ok e)

/-- Opens a journal; an empty path is none. The console is used if that is wanted or if there is
no file. -/
def openJournal (r : Registry) (base : Text) (path : Option Text) (source : Source)
    (console : Bool) : Registry × Except SetupFault Entry :=
  let path := path.filter (· ≠ [])
  let prepared := match path with
    | some p => r.ensureDirectoryOf p
    | none => (r, .ok ())
  match prepared with
  | (r, .error fault) => (r, .error (.access fault))
  | (r, .ok ()) =>
    match source.read with
    | .error fault => (r, .error fault)
    | .ok (level, layout) =>
      match path with
      | some p => r.openNamed base p path console level layout
      | none =>
        let name := s!"exeq.console.{r.unnamed}"
        { r with unnamed := r.unnamed + 1 }.openNamed base name none console level layout

/-! ## Noting lines -/

/-- Puts what waits at the end of a file. -/
def drain (d : Disk) (place : Place) (waiting : Bytes) : Except SystemError Disk :=
  match place with
  | .file names => d.write place (d.contentAt names).length waiting
  | .device _ => d.write place 0 waiting

/-- Flushes an output: the registry, the output and what that raises. -/
def flush (r : Registry) (o : Output) : Registry × Output × Except SystemError Unit :=
  match o.destination with
  | .console => (r, o, .ok ())
  | .file place waiting =>
    match drain r.disk place waiting with
    | .ok disk => ({ r with disk }, { o with destination := .file place [] }, .ok ())
    | .error e => (r, o, .error e)

/-- Writes a line to an output that it passes; a line that cannot be written is lost. -/
def emit (r : Registry) (occasion : Layout.Occasion) (l : Line) (o : Output) :
    Registry × Output :=
  if l.level.rank < o.rank then (r, o)
  else
    match Layout.render o.layout occasion l with
    | none => ({ r with lost := true }, o)
    | some text =>
      match o.destination with
      | .console => ({ r with console := r.console ++ text ++ "\n" }, o)
      | .file place waiting =>
        match Utf8.encode (text ++ "\n") with
        | .error _ => ({ r with lost := true }, o)
        | .ok bytes =>
          match r.flush { o with destination := .file place (waiting ++ bytes) } with
          | (r, o, .ok ()) => (r, o)
          | (r, o, .error _) => ({ r with lost := true }, o)

/-- Writes a line to several outputs. -/
def emitAll (occasion : Layout.Occasion) (l : Line) :
    Registry → List Output → Registry × List Output
  | r, [] => (r, [])
  | r, o :: rest =>
    let (r, o) := r.emit occasion l o
    let (r, rest) := emitAll occasion l r rest
    (r, o :: rest)

/-- Hands a line to the outputs of a journal, then to those of the journals above it as far as lines
are passed on; `n` bounds their number. -/
def hand (occasion : Layout.Occasion) (l : Line) : Nat → Registry → Text → Registry
  | 0, r, _ => r
  | n + 1, r, name =>
    match r.find? name with
    | none => r
    | some e =>
      let (r, outputs) := emitAll occasion l r e.outputs
      let r := r.update { e with outputs }
      if e.passesOn ∧ name ≠ r.root.name then hand occasion l n r (r.parentName e) else r

/-- Notes a line in a journal, then flushes its first output, which may raise an error. -/
def note (r : Registry) (stamp name : Text) (l : Line) : Registry × Except SystemError Unit :=
  let r :=
    if r.passRank name ≤ l.level.rank then
      hand { journal := name, stamp } l (r.entries.length + 2) r name
    else r
  match r.find? name with
  | none => (r, .ok ())
  | some e =>
    match e.outputs with
    | [] => (r, .ok ())
    | first :: rest =>
      let (r, first, answer) := r.flush first
      (r.update { e with outputs := first :: rest }, answer)

/-- Notes several lines, as far as none raises an error. -/
def noteAll (stamp name : Text) : Registry → List Line → Registry × Except SystemError Unit
  | r, [] => (r, .ok ())
  | r, l :: rest =>
    match r.note stamp name l with
    | (r, .ok ()) => noteAll stamp name r rest
    | (r, .error e) => (r, .error e)

end Registry

end CommandRelay.Journal
