import CommandRelay.Failure.Basic
import CommandRelay.Journal.Basic

/-! # Reports

A failure is reported by a chain of handlers, each of which sees every failure in turn. A handler
tells expected failures, those of a base kind, from unexpected ones. The console handler adds
advice to expected failures: that of the first matching kind in its own list, else that of the
default list. -/

namespace CommandRelay

/-- What reports show of a failure. -/
structure Report where
  kind : ErrorKind
  message : Text
  deriving DecidableEq, Repr

/-- The report of a failure. -/
def Failure.report (f : Failure) : Report :=
  ⟨f.kind, f.message⟩

namespace Report

/-- What a handler does. -/
inductive Effect where
  | print (text : Text)
  | note (line : Line)
  deriving DecidableEq, Repr

/-- A handler that does things of type `ε`. -/
abbrev Handler (ε : Type) := Report → List ε

/-- Advice by kind; the first match counts. -/
abbrev Advice := List (ErrorKind × Text)

/-- Adds advice for a kind; it takes the place of what was there for this very kind. -/
def Advice.put (advice : Advice) (kind : ErrorKind) (text : Text) : Advice :=
  match advice with
  | [] => [(kind, text)]
  | (k, t) :: rest => if k = kind then (k, text) :: rest else (k, t) :: Advice.put rest kind text

/-- The advice of the first kind that a failure is of. -/
def Advice.text? (advice : Advice) (kind : ErrorKind) : Option Text :=
  (List.find? (fun a => kind.isA a.1) advice).map (·.2)

/-- The advice that is given when a handler has none of its own. -/
def defaultAdvice : Advice :=
  [(.commandParse, "Séparez les redirections de la commande par un espace ; " ++
      "les pipes et >> ne sont pas supportés."),
    (.commandDecode, "Vérifiez le format de la tâche publiée."),
    (.authorization, "Ajoutez l'exécutable à la liste blanche ou lancez le serveur " ++
      "en mode privilégié."),
    (.redirectSetup, "Vérifiez le chemin et les permissions du fichier."),
    (.configuration, "Vérifiez votre fichier de configuration."),
    (.execution, "Consultez les logs pour plus de détails."),
    (.everything, "Voir les suggestions ci-dessus.")]

/-- The advice for a kind; the default list ends in one for every kind. -/
def adviceFor (own : Advice) (kind : ErrorKind) : Text :=
  (Advice.text? (own ++ defaultAdvice) kind).getD []

/-- Prints a failure for a person to read. -/
def console (base : ErrorKind) (own : Advice) : Handler Effect := fun r =>
  if r.kind.isA base then
    [.print (s!"\n🛑 {r.kind.label}: " ++ r.message ++ "\n" ++
      "\n🔧 Solution : " ++ adviceFor own r.kind ++ "\n")]
  else
    [.print ("\n💥 Erreur inattendue: " ++ r.message ++ s!"\nType: {r.kind.label}\n" ++
      "\n📋 Cela peut être un bug. Veuillez ouvrir une issue avec ces informations.\n")]

/-- Notes a failure as an error. -/
def journal (base : ErrorKind) : Handler Effect := fun r =>
  let text := r.kind.label ++ ": " ++ r.message
  [.note ⟨.error, if r.kind.isA base then text else "Erreur inattendue: " ++ text⟩]

/-- Hands a failure to every handler in order. -/
def handle {ε : Type} (chain : List (Handler ε)) (r : Report) : List ε :=
  chain.flatMap (· r)

/-- The exit code of a program that ends on a failure, if none is given. -/
def defaultExitCode : Int := 1

end Report

end CommandRelay
