import CommandRelay.Disk.Basic

/-! # Making directories

A directory is made with all that is missing on the way to it. One that is there already is
fine, and what has been made stays when the rest cannot be made. -/

namespace CommandRelay.Disk

/-- Makes one directory. -/
def makeDirectory (d : Disk) (path : Text) : Except AccessFault Disk :=
  match Path.fault? path with
  | some fault => .error fault
  | none =>
    match d.locate (trimSlashes path) with
    | .error (.coded number text _) => .error (.system (.coded number text (some path)))
    | .error e => .error (.system e)
    | .ok (.vacant names) => .ok (d.put names .directory)
    | .ok _ => .error (.system (.fileExists path))

/-- Whether an error says that something stands where nothing should. -/
def isExists : AccessFault → Bool
  | .system e => e.kind = .fileExists
  | _ => false

/-- Makes a directory that may be there already. -/
def ensureDirectory (d : Disk) (path : Text) : Disk × Except AccessFault Unit :=
  match d.makeDirectory path with
  | .ok d => (d, .ok ())
  | .error (.system e) => (d, if d.directoryExists path then .ok () else .error (.system e))
  | .error fault => (d, .error fault)

/-- Makes a directory and what is missing on the way; `n` bounds the names. -/
def ensureWithin : Nat → Disk → Text → Disk × Except AccessFault Unit
  | 0, d, _ => (d, .ok ())
  | n + 1, d, path =>
    let (head, tail) := Path.split path
    let (head, tail) := if tail = [] then Path.split head else (head, tail)
    let last (d : Disk) := if tail = "." then (d, .ok ()) else d.ensureDirectory path
    if head ≠ [] ∧ tail ≠ [] ∧ !d.pathExists head then
      match ensureWithin n d head with
      | (d, .ok ()) => last d
      | (d, .error fault) => if isExists fault then last d else (d, .error fault)
    else d.ensureDirectory path

/-- Makes a directory and what is missing on the way, as far as that can be made. -/
def ensureDirectories (d : Disk) (path : Text) : Disk × Except AccessFault Unit :=
  ensureWithin (path.length + 1) d path

end CommandRelay.Disk
