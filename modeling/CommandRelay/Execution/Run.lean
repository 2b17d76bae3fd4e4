import CommandRelay.Authorization.Basic
import CommandRelay.Command.Notice
import CommandRelay.Execution.Redirects
import CommandRelay.Execution.Relay
import CommandRelay.Execution.Signal

/-! # Runs

A run takes a command from authorization to its result. The executable is checked before anything
else happens, then the targets are opened, then the child is started, unless the run is cancelled
by then, and its output is relayed. Redirect files are closed on the way out. A code other than
zero is no failure; to be refused, not to start, to lose output or to die of a signal is one.

A run may show notices on a console; one that cannot be shown makes the run fail with the fault of
the console. The lines of a run go to a logger of which it is assumed that it raises nothing. -/

namespace CommandRelay

/-- Where the output of a command goes. -/
structure RunOptions where
  echo : Bool := false
  redirect : Bool := false
  deriving DecidableEq, Repr

/-- What runs commands: how it relays, how it shows notices, and whether it is the superuser. -/
structure Executor where
  plan : RelayPlan := {}
  style : Option NoticeStyle := none
  terminal : Bool := false
  asRoot : Bool := false
  deriving DecidableEq, Repr

/-- The consoles of a run, by the numbers of their sinks: where the two channels are echoed and
where notices are shown. -/
structure Consoles where
  stdout : Nat
  stderr : Nat
  notices : Nat
  deriving DecidableEq, Repr

/-- What the world does during a run: requests to cancel at certain moments, how a child comes
about, what goes wrong with redirect files, and the text of the time that the run takes. -/
structure Surroundings where
  whileAuthorizing : Option Text := none
  whileSpawning : Option Text := none
  waitAlarms : List (Nat × Text) := []
  launch : Disk → List Text → Except AccessFault Child
  fileFaults : FileFaults := {}
  elapsed : String := "0.0"

/-- What a run that is no failure gives. -/
structure RunResult where
  command : Command
  code : Option Int
  success : Bool
  cancelled : Bool
  asRoot : Bool
  closeErrors : List Text := []
  elapsed : String
  deriving DecidableEq

/-- What decides whether an executable may run; it may note something in the session. -/
abbrev Check := Session → Text → Session × Except Failure Unit

/-- The check of an authorizer. -/
def Authorizer.toCheck (a : Authorizer) : Check := fun s name =>
  (s, a.check name)

namespace Run

/-- Shows a notice on the console, if notices are shown. -/
def announce (x : Executor) (consoles : Consoles) (n : Notice) (c : Command) (s : Session) :
    Session × Except AccessFault Unit :=
  match x.style with
  | some style => s.display consoles.notices (style.render x.terminal n c x.asRoot ++ "\n")
  | none => (s, .ok ())

/-- Notes a notice. -/
def record (x : Executor) (level : Level) (n : Notice) (c : Command) (s : Session) : Session :=
  s.note level (n.text c x.asRoot)

/-- The sinks of a channel: its file comes before its console. -/
def tree (options : RunOptions) (file : Option Nat) (console : Nat) : SinkTree :=
  .group ((file.toList ++ if options.echo then [console] else []).map .leaf)

/-- The result of a run that was cancelled. -/
def cancelledResult (x : Executor) (c : Command) (code : Option Int) (elapsed : String) :
    RunResult :=
  { command := c, code, success := false, cancelled := true, asRoot := x.asRoot, elapsed }

/-- What a relay that is done amounts to. -/
def conclude (x : Executor) (consoles : Consoles) (w : Surroundings) (c : Command) (r : Relay) :
    Session × Except Failure RunResult :=
  let s := r.session
  let code := r.child.code?.getD 0
  match r.broken, r.lost with
  | some fault, _ => (s, .error (.access fault))
  | none, lost =>
    if r.stopped then
      let notice := Notice.cancel s.cancellation.reason
      match announce x consoles notice c (record x .warning notice c s) with
      | (s, .error fault) => (s, .error (.access fault))
      | (s, .ok ()) => (s, .ok (cancelledResult x c (some code) w.elapsed))
    else
      match lost with
      | some e => (s, .error (.streamWrite (.outputLost c.name e) (some c)))
      | none =>
        if code < 0 then
          let cause := ExecutionCause.signalled c.name (Signal.name code.natAbs)
          (s.note .error cause.message, .error (.execution cause (some c)))
        else
          let s := record x (if code = 0 then .info else .warning) (.exit code) c s
          match announce x consoles (.exit code) c s with
          | (s, .error fault) => (s, .error (.access fault))
          | (s, .ok ()) =>
            (s.note .debug ("Terminé : " ++ c.name ++ s!" ({w.elapsed}s)"), .ok
              { command := c, code := some code, success := code = 0, cancelled := false,
                asRoot := x.asRoot, elapsed := w.elapsed })

/-- The relay of a child that has just been started. -/
def relay (x : Executor) (options : RunOptions) (consoles : Consoles) (w : Surroundings)
    (c : Command) (files : Redirects) (child : Child) (s : Session) : Relay :=
  Relay.listen
    { plan := { x.plan with name := c.name }
      child
      trees :=
        ⟨tree options files.stdout consoles.stdout, tree options files.stderr consoles.stderr⟩
      session := s
      waitAlarms := w.waitAlarms }

/-- Starts the child, unless the run has been cancelled. -/
def spawn (x : Executor) (w : Surroundings) (c : Command) (s : Session) :
    Session × Except Failure Child :=
  let s := (s.emit (.spawning c.argv x.plan.grouped)).cancelIf w.whileSpawning
  match w.launch s.outlets.disk c.argv with
  | .ok child => (s, .ok child)
  | .error (.system e) =>
    (s.note .error ("Erreur système au lancement : " ++ e.message),
      .error (.execution (.notStarted c.name e) (some c)))
  | .error fault => (s, .error (.access fault))

/-- Starts the child and relays its output; nothing if the child never ends. -/
def execute (x : Executor) (options : RunOptions) (consoles : Consoles) (w : Surroundings)
    (c : Command) (files : Redirects) (s : Session) :
    Option (Session × Except Failure RunResult) :=
  match announce x consoles .start c (record x .info .start c s) with
  | (s, .error fault) => some (s, .error (.access fault))
  | (s, .ok ()) =>
    if s.isCancelled then
      some (record x .warning (.cancel s.cancellation.reason) c s,
        .ok (cancelledResult x c none "0.0"))
    else
      match spawn x w c s with
      | (s, .error f) => some (s, .error f)
      | (s, .ok child) =>
        (relay x options consoles w c files child s).settle.map (conclude x consoles w c)

/-- Closes the redirect files; the errors go into a result. -/
def finish (w : Surroundings) (files : Redirects) (s : Session)
    (answer : Except Failure RunResult) : Session × Except Failure RunResult :=
  let (s, errors) := files.close w.fileFaults s
  (s, answer.map fun r => { r with closeErrors := errors })

end Run

/-- Runs a command that a check lets pass; nothing if the child never ends. -/
def run (x : Executor) (options : RunOptions) (consoles : Consoles) (w : Surroundings)
    (check : Check) (c : Command) (s : Session) : Option (Session × Except Failure RunResult) :=
  match check ((s.emit (.consulted c.name)).cancelIf w.whileAuthorizing) c.name with
  | (s, .error f) => some (s, .error f)
  | (s, .ok ()) =>
    match Redirects.openTargets options.redirect w.fileFaults c s with
    | (s, .error f) => some (s, .error f)
    | (s, .ok files) =>
      (Run.execute x options consoles w c files s).map fun (s, answer) =>
        Run.finish w files s answer

/-- Reads a record and runs the command that it holds. -/
def runPayload (x : Executor) (options : RunOptions) (consoles : Consoles) (w : Surroundings)
    (check : Check) (payload : Payload) (s : Session) :
    Option (Session × Except Failure RunResult) :=
  match Command.decode payload with
  | .error e => some (s, .error (.record e))
  | .ok c => run x options consoles w check c s

end CommandRelay
