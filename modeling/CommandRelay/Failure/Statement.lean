import CommandRelay.Command.Basic
import CommandRelay.Failure.Details

/-! # Statements

A failure can be stated from outside: by its kind, details in order, and perhaps a command under a
name. The kinds of this library say what details they take; `Statement.ofDetails` checks them, and
`Statement.message` is the wording. -/

namespace CommandRelay

/-- What a failed execution was about. -/
inductive Subject where
  | command (c : Command)
  | value (v : Value)

/-- A failure that is stated from outside. -/
inductive Statement where
  | parse (reason name : Value) (args : List Value)
  | refused (name : Value) (allowed : List Value)
  | redirect (path reason : Value)
  | execution (kind : ErrorKind) (message : Value) (subject : Subject)
  | plain (kind : ErrorKind) (message : Text)

/-- The details that a kind takes: those that must be given, and those that may follow. -/
structure Signature where
  label : String
  required : List String
  further : List String := []

namespace Signature

/-- Checks the number of the details, and the name of one more. -/
def check (s : Signature) (given : Nat) (name : Option String) : Except Misstatement Unit := do
  let names := s.required ++ s.further
  match name with
  | some name =>
    if !names.contains name then .error (.unexpectedName s.label name)
    else if (names.take given).contains name then .error (.repeatedName s.label name)
  | none => .ok ()
  if names.length < given then .error (.surplus s.label s.required.length names.length given)
  else if given < s.required.length then .error (.missing s.label (s.required.drop given))
  else .ok ()

/-- What the kinds of this library take, if they do not take everything. -/
def ofKind? : ErrorKind → Option Signature
  | .commandParse => some ⟨"CommandParseError", ["reason"], ["name", "args"]⟩
  | .authorization => some ⟨"AuthorizationError", ["name"], ["allowed"]⟩
  | .redirectSetup => some ⟨"RedirectSetupError", ["path", "reason"], []⟩
  | .execution | .streamWrite => some ⟨"ExecutionError", ["message"], ["command"]⟩
  | _ => none

end Signature

namespace Statement

/-- The name under which a command may be given. -/
def commandName : String := "command"

/-- What a kind without a signature says to a detail under a name. -/
def strangeName (kind : ErrorKind) : Misstatement :=
  let base? := [ErrorKind.loading, .name, .attribute].find? fun base => kind.isA base
  match base? with
  | some base => .strangeName commandName base.label
  | none => .noNames kind.label

/-- The statement that details of a kind without a signature make. A group reads its details before
it looks for names. -/
def ofPlainDetails (kind : ErrorKind) (details : List Value) (named : Bool) :
    Except Misstatement Statement := do
  if named ∧ kind ≠ .group ∧ kind ≠ .anyGroup then .error (strangeName kind)
  let (kind, message) ← Details.read kind details
  .ok (.plain kind message)

/-- The statement that details of a kind make, with a command under its name. -/
def ofDetails (kind : ErrorKind) (details : List Value) (command : Option Command) :
    Except Misstatement Statement :=
  match Signature.ofKind? kind with
  | none => ofPlainDetails kind details command.isSome
  | some s => do
    s.check details.length (command.map fun _ => commandName)
    let detail (i : Nat) (default : Value) := details.getD i default
    match kind with
    | .commandParse =>
      let args ← Details.parts (detail 2 (.list []))
      .ok (.parse (detail 0 .null) (detail 1 (.string [])) args)
    | .authorization =>
      let allowed ← Details.parts (detail 1 (.list []))
      .ok (.refused (detail 0 .null) allowed)
    | .redirectSetup => .ok (.redirect (detail 0 .null) (detail 1 .null))
    | kind =>
      let subject := match command with
        | some c => .command c
        | none => .value (detail 1 .null)
      .ok (.execution kind (detail 0 .null) subject)

/-- The kind of a stated failure. -/
def kind : Statement → ErrorKind
  | .parse .. => .commandParse
  | .refused .. => .authorization
  | .redirect .. => .redirectSetup
  | .execution kind _ _ => kind
  | .plain kind _ => kind

/-- The wording of a stated failure. -/
def message : Statement → Text
  | .parse reason name args =>
    reason.display ++ " '" ++ name.display ++ "' " ++ (Value.list args).literal
  | .refused name allowed =>
    "\x60" ++ name.display ++ "\x60 n'est pas un exécutable autorisé. Autorisés : " ++
      (Value.list allowed).literal
  | .redirect path reason =>
    "Impossible d'ouvrir le fichier de redirection " ++ path.display ++ " : " ++ reason.display
  | .execution _ message _ => message.display
  | .plain _ message => message

end Statement

end CommandRelay
