import CommandRelay.Command.Record
import CommandRelay.Command.Redirection
import CommandRelay.Configuration.Load
import CommandRelay.Journal.Setup
import CommandRelay.Failure.Statement
import CommandRelay.Failure.System

/-! # Failures

A failure is a cause with what belongs to it. `Failure.kind` places it in the tree of kinds, and
`Failure.message` is its wording. -/

namespace CommandRelay

/-- Why the execution of a command failed. -/
inductive ExecutionCause where
  | notStarted (name : Text) (error : SystemError)
  | signalled (name : Text) (signal : String)
  | outputLost (name : Text) (error : SystemError)
  deriving DecidableEq, Repr

/-- The wording of the cause of a failed execution. -/
def ExecutionCause.message : ExecutionCause → Text
  | .notStarted name e => "Impossible de lancer " ++ name ++ " : " ++ e.message
  | .signalled name signal => name ++ " terminé par le signal " ++ signal
  | .outputLost name e => "Échec d'écriture de la sortie de " ++ name ++ " : " ++ e.message

/-- A failure of the library, or one that is stated from outside. -/
inductive Failure where
  | parse (error : ParseError)
  | record (error : RecordError)
  | refused (name : Text) (allowed : List Text)
  | redirect (path reason : Text)
  | execution (cause : ExecutionCause) (command : Option Command)
  | streamWrite (cause : ExecutionCause) (command : Option Command)
  | access (fault : AccessFault)
  | load (fault : Configuration.LoadFault)
  | settings (fault : Configuration.SettingsFault)
  | journal (fault : Journal.SetupFault)
  | stated (statement : Statement)

namespace Failure

/-- The kind of a failure. -/
def kind : Failure → ErrorKind
  | .parse _ => .commandParse
  | .record e => if e.isTooDeep then .recursion else .commandDecode
  | .refused .. => .authorization
  | .redirect .. => .redirectSetup
  | .execution .. => .execution
  | .streamWrite .. => .streamWrite
  | .access fault => fault.kind
  | .load fault => fault.kind
  | .settings fault => fault.kind
  | .journal fault => fault.kind
  | .stated statement => statement.kind

/-- The wording of a refused executable. -/
def refusedMessage (name : Text) (allowed : List Text) : Text :=
  "\x60" ++ name ++ "\x60 n'est pas un exécutable autorisé. Autorisés : " ++ Quoted.list allowed

/-- The wording of a redirection that could not be set up. -/
def redirectMessage (path reason : Text) : Text :=
  "Impossible d'ouvrir le fichier de redirection " ++ path ++ " : " ++ reason

/-- The wording of a failure. -/
def message : Failure → Text
  | .parse e => e.message
  | .record e => e.message
  | .refused name allowed => refusedMessage name allowed
  | .redirect path reason => redirectMessage path reason
  | .execution cause _ | .streamWrite cause _ => cause.message
  | .access fault => fault.message
  | .load fault => fault.message
  | .settings fault => fault.message
  | .journal fault => fault.message
  | .stated statement => statement.message

end Failure

end CommandRelay
