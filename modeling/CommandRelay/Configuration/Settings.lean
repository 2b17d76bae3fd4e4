import CommandRelay.Validation.Lenient

/-! # Settings

The settings of a worker, as a document gives them. Every field may be left out; unknown ones are
refused, here and in the nested settings of the journal. A check reports the defects of the
declared fields in their order, then the unknown fields in the order of the document. A name that
is no string is the only defect reported of the object that it stands in. -/

namespace CommandRelay

/-- The settings of a journal: the name of the least level noted, the layout of a line and the
file that lines go to. -/
structure JournalSettings where
  level : Text := "INFO"
  layout : Text := "%(asctime)s - %(levelname)s - %(message)s"
  file : Option Text := none
  deriving DecidableEq, Repr

/-- The settings of a worker. -/
structure Settings where
  privileged : Bool := false
  echo : Bool := false
  redirect : Bool := false
  jobs : Int
  timeout : Option Binary64 := none
  whitelist : List Text := []
  queue : Text := "exeq"
  journal : JournalSettings := {}
  deriving DecidableEq, Repr

namespace Settings

/-- The fields of an object. -/
abbrev Fields := List (Text × Value)

/-- Checks a field, which has a default. -/
def field {α : Type} (fields : Fields) (name : Text) (default : α) (check : Value → Checked α) :
    Checked α :=
  Checked.under (.key name) <|
    match Value.lookup? fields name with
    | some v => check v
    | none => .ok default

/-- Checks that the names of all fields are strings; otherwise nothing else is looked at. -/
def withNames {α : Type} (fields : Fields) (check : Fields → Checked α) : Checked α :=
  if fields.all (·.1.isWhole) then check fields else Checked.fail .stringUnicode

/-- A defect for every field that is not declared. -/
def undeclared (declared : List Text) (fields : Fields) : Checked Unit :=
  let unknown := fields.filter fun f => !declared.contains f.1
  if unknown = [] then .ok ()
  else .error (unknown.map fun f => ⟨[.key f.1], .extraForbidden⟩)

/-- The names of the settings of a journal. -/
def journalFields : List Text :=
  ["level", "format", "file"]

/-- The name of the settings of a journal in messages. -/
def journalSchema : String := "LoggingSettings"

/-- Checks the settings of a journal. -/
def checkJournal : Value → Checked JournalSettings
  | .object fields => withNames fields fun fields =>
    let base : JournalSettings := {}
    (Checked.both (field fields "level" base.level Lenient.text) <|
      Checked.both (field fields "format" base.layout Lenient.text) <|
        Checked.both (field fields "file" base.file (Lenient.optional Lenient.text))
          (undeclared journalFields fields)).map
      fun (level, layout, file, _) => { level, layout, file }
  | _ => Checked.fail (.recordType journalSchema)

/-- The names of the settings of a worker. -/
def workerFields : List Text :=
  ["privileged", "echo", "allow_file_redirect", "jobs", "timeout", "whitelist", "queue",
    "logging"]

/-- The name of the settings of a worker in messages. -/
def schema : String := "ExeqSettings"

/-- The default number of jobs: one for each processor, one if their number is not known. -/
def defaultJobs (processors : Option Int) : Int :=
  match processors with
  | none | some 0 => 1
  | some n => n

/-- The settings that nobody has set. -/
def default (processors : Option Int) : Settings :=
  { jobs := defaultJobs processors }

/-- Checks the settings of a worker. -/
def check (processors : Option Int) : Value → Checked Settings
  | .object fields => withNames fields fun fields =>
    let base := default processors
    (Checked.both (field fields "privileged" base.privileged Lenient.bool) <|
      Checked.both (field fields "echo" base.echo Lenient.bool) <|
        Checked.both (field fields "allow_file_redirect" base.redirect Lenient.bool) <|
          Checked.both (field fields "jobs" base.jobs Lenient.atLeastOne) <|
            Checked.both
              (field fields "timeout" base.timeout (Lenient.optional Lenient.aboveZero)) <|
              Checked.both (field fields "whitelist" base.whitelist Lenient.texts) <|
                Checked.both (field fields "queue" base.queue Lenient.someText) <|
                  Checked.both (field fields "logging" base.journal checkJournal)
                    (undeclared workerFields fields)).map
      fun (privileged, echo, redirect, jobs, timeout, whitelist, queue, journal, _) =>
        { privileged, echo, redirect, jobs, timeout, whitelist, queue, journal }
  | _ => Checked.fail (.recordType schema)

end Settings

end CommandRelay
