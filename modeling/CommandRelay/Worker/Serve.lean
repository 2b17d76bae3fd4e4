import CommandRelay.Authorization.Audit
import CommandRelay.Journal.Registry
import CommandRelay.Worker.Basic

/-! # Workers

A worker is started from a settings file, with a journal as the settings say. It takes payloads
one after the other: the authorizer notes its decision in the journal, the run notes what
happens, and all share one disk. A journal that refuses a line makes the run fail. -/

namespace CommandRelay

/-- A worker: its settings, the registered journals with the disk below them, and the name of its
own journal. -/
structure Worker where
  settings : Settings
  registry : Journal.Registry
  journal : Text

namespace Worker

/-- Where the settings of a journal are looked up. -/
def journalSource (s : Settings) : Journal.Source :=
  .document (.object [("logging", Configuration.journalValue s.journal)])

/-- Starts a worker from a settings file. -/
def start (processors : Option Int) (base : Text) (console : Bool) (disk : Disk)
    (path : Option Text) : Except Failure Worker :=
  match Configuration.settingsOf processors disk path with
  | .error fault => .error (.settings fault)
  | .ok settings =>
    let registry : Journal.Registry := { disk }
    match registry.openJournal base settings.journal.file (journalSource settings) console with
    | (_, .error fault) => .error (.journal fault)
    | (registry, .ok entry) => .ok { settings, registry, journal := entry.name }

/-- Why the journal of a worker refuses a line, if it does. -/
def refusal? (w : Worker) (stamp : Text) (line : Line) : Option SystemError :=
  match (w.registry.note stamp w.journal line).2 with
  | .error e => some e
  | .ok () => none

/-- The check of the authorizer, which notes its decisions in the journal. What it notes is nested
three deep at most, for which every writer has room. -/
def check (w : Worker) (timestamp stamp : Text) : Check := fun s name =>
  let a := w.settings.authorizer
  let line := (a.event timestamp name).line
  (s.note line.level line.text,
    match w.refusal? stamp line with
    | some e => .error (.access (.system e))
    | none => a.check name)

/-- Takes a payload: the worker afterwards, and what became of the run. `sinks` are the consoles of
the run, `timestamp` is the time of decisions and `stamp` that of lines. -/
def take (w : Worker) (x : Executor) (sinks : List Sink) (consoles : Consoles)
    (surroundings : Surroundings) (timestamp stamp : Text) (payload : Payload) :
    Worker × Option (Session × Except Failure RunResult) :=
  let session : Session :=
    { outlets := { disk := w.registry.disk, sinks }, timers := w.settings.timers }
  match runPayload x w.settings.runOptions consoles surroundings (w.check timestamp stamp) payload
      session with
  | none => (w, none)
  | some (session, answer) =>
    let registry := { w.registry with disk := session.outlets.disk }
    let (registry, noted) := registry.noteAll stamp w.journal session.lines
    let answer := match noted with
      | .ok () => answer
      | .error e => .error (.access (.system e))
    ({ w with registry }, some (session, answer))

end Worker

end CommandRelay
