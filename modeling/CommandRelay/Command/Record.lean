import CommandRelay.Command.Basic
import CommandRelay.Document.Json.Reader
import CommandRelay.Document.Json.Writer
import CommandRelay.Validation.Defect

/-! # Command records

A command travels as a JSON object with four fields, all of them required. Decoding accepts an
object, a text or bytes, takes no value of another type for a field, and reports every defect of
the four fields; other fields are ignored. The task name and the queue name route a record to the
hosts that may run it. -/

namespace CommandRelay

/-- What a worker receives: a value, or a document that holds one. -/
inductive Payload where
  | value (v : Value)
  | text (t : Text)
  | bytes (b : Bytes)

/-- Why a payload is no command. -/
inductive RecordError where
  | malformed (error : Json.ReadError)
  | notObject (kind : String)
  | defective (defects : List Defect)
  deriving DecidableEq, Repr

/-- Why a command has no record in UTF-8. -/
inductive RecordFault where
  | defective (defects : List Defect)
  | unencodable (error : EncodeError)
  deriving DecidableEq, Repr

namespace Record

/-- The name of the schema in messages. -/
def schemaName : String := "CommandPayload"

/-- A text field. -/
def checkText : Value → Checked Text
  | .string t => .ok t
  | _ => Checked.fail .stringType

/-- A text field that must not be empty, and in which no half of a pair may stand alone. -/
def checkName (v : Value) : Checked { t : Text // t ≠ [] } :=
  match checkText v with
  | .error d => .error d
  | .ok t =>
    if !t.isWhole then Checked.fail .stringUnicode
    else if h : t ≠ [] then .ok ⟨t, h⟩
    else Checked.fail .stringTooShort

/-- A list of texts. -/
def checkTexts : Value → Checked (List Text)
  | .list vs => Checked.items checkText 0 vs
  | _ => Checked.fail .listType

/-- Checks a field that must be present. -/
def required {α : Type} (fields : List (Text × Value)) (key : Text)
    (check : Value → Checked α) : Checked α :=
  Checked.under (.key key) <|
    match Value.lookup? fields key with
    | some v => check v
    | none => Checked.fail .missing

/-- The command of an object. -/
def ofFields (fields : List (Text × Value)) : Checked Command :=
  (Checked.both (required fields "name" checkName) <|
    Checked.both (required fields "args" checkTexts) <|
      Checked.both (required fields "stdoutFile" checkText)
        (required fields "stderrFile" checkText)).map
    fun (name, args, out, err) => ⟨name.val, args, out, err, name.property⟩

end Record

/-- Whether a payload is nested too deep, which is not put down to what it says. -/
def RecordError.isTooDeep : RecordError → Bool
  | .malformed e => e.isTooDeep
  | _ => false

/-- The wording of a refused payload. -/
def RecordError.message : RecordError → String
  | .malformed e =>
    if e.isTooDeep then e.message else s!"Enregistrement JSON invalide : {e.message}"
  | .notObject kind => s!"Enregistrement attendu sous forme d'objet, reçu : {kind}"
  | .defective defects =>
    s!"Enregistrement de commande invalide : {Defect.summary Record.schemaName defects}"

namespace Command

/-- The fields of the record of a command, in order. -/
def recordFields (c : Command) : List (Text × Value) :=
  [("name", .string c.name), ("args", .list (c.args.map .string)),
    ("stdoutFile", .string c.stdoutTarget), ("stderrFile", .string c.stderrTarget)]

/-- The record of a command; it is checked like one that comes in. -/
def toRecord (c : Command) : Checked Value :=
  (Record.ofFields c.recordFields).map fun _ => .object c.recordFields

/-- The record as a JSON text. -/
def toRecordText (c : Command) : Checked Text :=
  c.toRecord.map Json.write

/-- The record as JSON in UTF-8. -/
def toRecordBytes (c : Command) : Except RecordFault Bytes := do
  let t ← c.toRecordText.mapError .defective
  (Utf8.encode t).mapError .unencodable

/-- The command of a value. -/
def ofValue : Value → Except RecordError Command
  | .object fields => (Record.ofFields fields).mapError .defective
  | v => .error (.notObject v.kindName)

/-- The command of a payload; a value that is a text is a document too. -/
def decode : Payload → Except RecordError Command
  | .value (.string t) | .text t => (Json.readText t).mapError .malformed >>= ofValue
  | .value v => ofValue v
  | .bytes b => (Json.readBytes b).mapError .malformed >>= ofValue

end Command

namespace Routing

/-- The name of the tasks that run an executable. -/
def taskName (executable : Text) : Text :=
  "exec:command:" ++ executable

/-- The queue that every host consumes. -/
def sharedQueue : Text := "exeq"

/-- The queue that one host consumes. -/
def hostQueue (host : Text) : Text :=
  sharedQueue ++ "+" ++ host

end Routing

end CommandRelay
