import CommandRelay.Configuration.Settings
import CommandRelay.Disk.Basic
import CommandRelay.Disk.Path
import CommandRelay.Document.Json.Reader
import CommandRelay.Document.Toml.Reader

/-! # Configuration files

A configuration file is read as TOML or as JSON, whichever its ending says. What it holds is taken
as it is or checked against a schema. -/

namespace CommandRelay.Configuration

/-- What a file is checked against; something that is no schema is named by how it is shown. -/
inductive Schema where
  | raw
  | settings
  | journal
  | unfit (shown : String)
  deriving DecidableEq, Repr

/-- Why a configuration file cannot be used. -/
inductive LoadFault where
  | missing (path : Text)
  | access (fault : AccessFault)
  | ending (suffix : Text)
  | json (error : Json.ReadError)
  | toml (error : Toml.ReadError)
  | undecodable (error : DecodeError)
  | defective (schema : String) (defects : List Defect)
  | noSchema (shown : String)
  deriving DecidableEq, Repr

namespace LoadFault

/-- The wording of a fault. -/
def message : LoadFault → Text
  | .missing path => "Fichier de configuration non trouvé: " ++ path
  | .access fault => fault.message
  | .ending suffix => "Extension non supportée: " ++ suffix ++ ". Utilisez .toml ou .json"
  | .json e => e.message
  | .toml e => e.message
  | .undecodable e => e.message
  | .defective schema defects => Defect.summary schema defects
  | .noSchema shown =>
    s!"Le schema doit être une sous-classe de pydantic.BaseModel, reçu: {shown}"

/-- The kind of a fault. -/
def kind : LoadFault → ErrorKind
  | .missing _ => .notFound
  | .access fault => fault.kind
  | .ending _ => .value
  | .json (.malformed ..) => .jsonDecode
  | .toml (.malformed ..) => .tomlDecode
  | .json (.integerTooLong _) | .toml (.integerTooLong _) => .value
  | .json (.tooDeep _) | .toml .tooDeep => .recursion
  | .json (.undecodable _) | .toml (.undecodable _) | .undecodable _ => .unicodeDecode
  | .defective .. => .validation
  | .noSchema _ => .type

/-- The defects that a schema found. -/
def defects : LoadFault → List Defect
  | .defective _ ds => ds
  | _ => []

end LoadFault

/-- A text in which every line ends in a line feed alone. -/
def unifyLineEnds : Text → Text
  | .char '\r' :: .char '\n' :: t => .char '\n' :: unifyLineEnds t
  | .char '\r' :: t => .char '\n' :: unifyLineEnds t
  | p :: t => p :: unifyLineEnds t
  | [] => []

/-- Reads a JSON document in UTF-8, whatever its line ends. -/
def readJson (bytes : Bytes) : Except LoadFault Value :=
  match Utf8.decode bytes with
  | .error e => .error (.undecodable e)
  | .ok t => (Json.readText (unifyLineEnds t)).mapError .json

/-- What a file system answers: whether something is under a path, and the bytes of a file. -/
structure FileSystem where
  status : Text → Except AccessFault Unit
  read : Text → Except AccessFault Bytes

/-- The answers of a disk. -/
def FileSystem.ofDisk (d : Disk) : FileSystem := ⟨d.status, d.read⟩

instance : Coe Disk FileSystem := ⟨.ofDisk⟩

/-- Looks whether there is a file, which the system may refuse to tell. A path that is never given
to the system leads nowhere. -/
def lookFor (fs : FileSystem) (path : Text) : Except LoadFault Unit :=
  match fs.status path with
  | .ok () => .ok ()
  | .error (.system e) =>
    if e.isAbsence then .error (.missing path) else .error (.access (.system e))
  | .error _ => .error (.missing path)

/-- Reads what a file holds. -/
def readFile (fs : FileSystem) (given : Text) : Except LoadFault Value := do
  let path := Path.plain given
  lookFor fs path
  let suffix := Path.lowerEnding path
  if suffix = ".toml" then
    let bytes ← (fs.read path).mapError .access
    (Toml.readBytes bytes).mapError .toml
  else if suffix = ".json" then
    let bytes ← (fs.read path).mapError .access
    readJson bytes
  else .error (.ending suffix)

/-- The value of journal settings. -/
def journalValue (j : JournalSettings) : Value :=
  .object [("level", .string j.level), ("format", .string j.layout),
    ("file", (j.file.map Value.string).getD .null)]

/-- What a file holds, as far as its schema tells. -/
inductive Loaded where
  | raw (v : Value)
  | settings (s : Settings)
  | journal (j : JournalSettings)

/-- Loads the settings of a worker. -/
def loadSettings (processors : Option Int) (fs : FileSystem) (path : Text) :
    Except LoadFault Settings := do
  let v ← readFile fs path
  (Settings.check processors v).mapError (.defective Settings.schema)

/-- Loads a file; the schema is looked at only after the file has been read. -/
def load (schema : Schema) (processors : Option Int) (fs : FileSystem) (path : Text) :
    Except LoadFault Loaded :=
  match schema with
  | .raw => (readFile fs path).map .raw
  | .settings => (loadSettings processors fs path).map .settings
  | .journal => do
    let v ← readFile fs path
    let j ← (Settings.checkJournal v).mapError (.defective Settings.journalSchema)
    .ok (.journal j)
  | .unfit shown => do
    let _ ← readFile fs path
    .error (.noSchema shown)

/-- Why the settings of a worker cannot be had: the path that was given, and the fault. -/
structure SettingsFault where
  path : Text
  fault : LoadFault
  deriving DecidableEq, Repr

namespace SettingsFault

/-- Whether a fault is put down to the file: it cannot be had, or what it holds is no good. -/
def isOfFile (f : SettingsFault) : Bool :=
  f.fault.kind.isA .system || f.fault.kind.isA .value

/-- The wording of a fault of a settings file. -/
def message (f : SettingsFault) : Text :=
  if f.isOfFile then "Configuration invalide (" ++ f.path ++ ") : " ++ f.fault.message
  else f.fault.message

/-- The kind of a fault of a settings file. -/
def kind (f : SettingsFault) : ErrorKind :=
  if f.isOfFile then .configurationFile else f.fault.kind

end SettingsFault

/-- The settings of a worker: those of a file, or the default ones if none is named. -/
def settingsOf (processors : Option Int) (fs : FileSystem) :
    Option Text → Except SettingsFault Settings
  | none => .ok (Settings.default processors)
  | some path => (loadSettings processors fs path).mapError (⟨path, ·⟩)

end CommandRelay.Configuration
