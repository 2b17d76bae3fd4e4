import CommandRelay.Execution.Session
import CommandRelay.Failure.Basic

/-! # Redirect files

The targets of a command are opened before anything is started, each one for the channel that it
belongs to. Two targets that are spelled alike share one sink. Files are closed in the order of
their channels, and a failure to close one does not keep the next from being closed. -/

namespace CommandRelay

/-- What goes wrong with redirect files, each known by its path: the times at which the system
refuses the bytes that it is given, and errors that closing a file raises besides its own. -/
structure FileFaults where
  refusals : List (Text × Nat × SystemError) := []
  closing : List (Text × SystemError) := []
  deriving DecidableEq, Repr

/-- The refusals that are about the file at a path. -/
def FileFaults.refusalsOf (faults : FileFaults) (path : Text) : List (Nat × SystemError) :=
  (faults.refusals.filter (·.1 = path)).map (·.2)

/-- The sinks of the redirect files of a run. -/
structure Redirects where
  stdout : Option Nat := none
  stderr : Option Nat := none
  deriving DecidableEq, Repr

namespace Redirects

/-- The sinks in order, a shared one once. -/
def sinks (r : Redirects) : List Nat :=
  r.stdout.toList ++ r.stderr.toList.filter (some · ≠ r.stdout)

/-- Opens a target, into which the system may refuse to write. -/
def openTarget (faults : FileFaults) (path : Text) (s : Session) : Session × Except Failure Nat :=
  match Writer.openFile s.outlets.disk path with
  | .ok (disk, w) =>
    let refusals := faults.refusalsOf path
    let (outlets, i) := { s.outlets with disk }.add (.file { w with refusals })
    ({ s with outlets }.emit (.opened path), .ok i)
  | .error (.system e) =>
    (s.note .error ("Échec d'ouverture du fichier de redirection " ++ path ++ " : " ++ e.message),
      .error (.redirect path e.reason))
  | .error fault => (s, .error (.access fault))

/-- Closes a file. The text of an error names the path. -/
def closeSink (faults : FileFaults) (s : Session) (i : Nat) :
    Session × List Text :=
  match s.outlets.sinks[i]? with
  | some (.file w) =>
    let (outlets, answer) := s.outlets.close i
    let s := { s with outlets }.emit (.closed w.path)
    match answer, faults.closing.find? (·.1 = w.path) with
    | .error e, _ => (s, [w.path ++ " : " ++ e.message])
    | .ok (), some (_, e) => (s, [w.path ++ " : " ++ e.message])
    | .ok (), none => (s, [])
  | _ => (s, [])

/-- Closes several files, with the texts of the errors. -/
def closeSinks (faults : FileFaults) (s : Session) :
    List Nat → Session × List Text
  | [] => (s, [])
  | i :: rest =>
    let (s, first) := closeSink faults s i
    let (s, more) := closeSinks faults s rest
    (s, first ++ more)

/-- Closes the files and notes the errors, whose texts are the answer. -/
def close (faults : FileFaults) (r : Redirects) (s : Session) :
    Session × List Text :=
  let (s, errors) := closeSinks faults s r.sinks
  (errors.foldl (fun s e => s.note .error ("Échec de fermeture : " ++ e)) s, errors)

/-- Opens the target of the error channel after the one of the output channel. -/
def openSecond (faults : FileFaults) (c : Command) (first : Redirects)
    (s : Session) : Session × Except Failure Redirects :=
  if c.stderrTarget = [] then (s, .ok first)
  else if c.stderrTarget = c.stdoutTarget then (s, .ok { first with stderr := first.stdout })
  else
    match openTarget faults c.stderrTarget s with
    | (s, .ok i) => (s, .ok { first with stderr := some i })
    | (s, .error (.access fault)) => (s, .error (.access fault))
    | (s, .error f) => ((first.close faults s).1, .error f)

/-- Opens the targets of a command, if that is allowed; else they are noted and left alone. -/
def openTargets (allowed : Bool) (faults : FileFaults) (c : Command)
    (s : Session) : Session × Except Failure Redirects :=
  if c.stdoutTarget = [] ∧ c.stderrTarget = [] then (s, .ok {})
  else if !allowed then
    (s.note .warning ("Redirections ignorées (non autorisées) : stdout='" ++ c.stdoutTarget ++
      "' stderr='" ++ c.stderrTarget ++ "'"), .ok {})
  else if c.stdoutTarget = [] then openSecond faults c {} s
  else
    match openTarget faults c.stdoutTarget s with
    | (s, .error f) => (s, .error f)
    | (s, .ok i) => openSecond faults c { stdout := some i } s

end Redirects

end CommandRelay
