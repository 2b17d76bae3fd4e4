import CommandRelay.Authorization.Basic
import CommandRelay.Document.Literal
import CommandRelay.Journal.Basic

/-! # Audit trail

Each decision about an executable gives one event, and an event is noted as one line of JSON at
the level that its severity asks for. All that an event carries besides the decision is shown as it
is. An event whose record is nested too deep for the writer is not noted at all. -/

namespace CommandRelay

/-- The printed name of a decision. -/
def Decision.eventName : Decision → String
  | .allowed => "command.allowed"
  | .denied => "command.denied"
  | .privileged => "command.privileged"

/-- The decision of a printed name. -/
def Decision.ofEventName? (name : Value) : Option Decision :=
  match name with
  | .string t =>
    [Decision.allowed, .denied, .privileged].find? fun d => Text.ofString d.eventName = t
  | _ => none

/-- The wording of a name that stands for no decision. -/
def Decision.unknownMessage (name : Value) : String :=
  name.literal ++ " is not a valid SecurityEventType"

/-- An event of the audit trail. -/
structure AuditEvent where
  decision : Decision
  resource : Value := .null
  details : Value := .object []
  severity : Value := .string "info"
  timestamp : Value

namespace AuditEvent

/-- The level of a severity; one without a level of its own is an information. -/
def levelOf : Value → Level
  | .string severity =>
    if severity = "error" ∨ severity = "critical" then .error
    else if severity = "warning" then .warning
    else .info
  | _ => .info

/-- The fields of the record of an event, in order. -/
def record (e : AuditEvent) : List (Text × Value) :=
  [("security_event", .string e.decision.eventName),
    ("timestamp", e.timestamp), ("resource", e.resource), ("severity", e.severity),
    ("details", e.details)]

/-- The line of an event. -/
def line (e : AuditEvent) : Line :=
  ⟨levelOf e.severity, Json.write (.object e.record)⟩

/-- What is noted of an event, written with room for so many nests in each other. -/
def lineWithin (room : Nat) (e : AuditEvent) : Except Json.WriteError Line :=
  (Json.writeWithin room (.object e.record)).map fun text => ⟨levelOf e.severity, text⟩

end AuditEvent

/-- The event of a decision of an authorizer. -/
def Authorizer.event (a : Authorizer) (timestamp name : Text) : AuditEvent :=
  match a.decision name with
  | .privileged =>
    { decision := .privileged
      resource := .string name
      details := .object [("privileged", .bool true)]
      severity := .string "warning"
      timestamp := .string timestamp }
  | .denied =>
    { decision := .denied
      resource := .string name
      details := .object [("allowed", .list (a.allowed.map .string))]
      severity := .string "warning"
      timestamp := .string timestamp }
  | .allowed =>
    { decision := .allowed
      resource := .string name
      timestamp := .string timestamp }

end CommandRelay
