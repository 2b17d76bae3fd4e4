import CommandRelay.Command.Basic
import CommandRelay.Command.Words

/-! # Lifecycle notices

A command is announced when it starts, ends or is cancelled. `Command.render` is its shell line,
`Notice.text` the plain notice, and `NoticeStyle.render` the notice as a console shows it: with
colours when the style has them and the console is a terminal. -/

namespace CommandRelay

/-- A token of a rendered line: redirection operators stay bare. -/
def renderToken (token : Text) : Text :=
  if token = ">" ∨ token = "2>" then token else Words.quote token

/-- The shell line of a command, redirections included. -/
def Command.render (c : Command) : Text :=
  Text.join " " (c.tokens.map renderToken)

/-- What is announced about a command. -/
inductive Notice where
  | start
  | exit (code : Int)
  | cancel (reason : Option Text)
  deriving DecidableEq, Repr

namespace Notice

/-- The mark of the account that a command runs under. -/
def account (asRoot : Bool) : String :=
  if asRoot then "[ROOT]" else "[user]"

/-- What is said of the command; a missing or empty reason is named by a default. -/
def phrase : Notice → Text
  | .start => "Exécution"
  | .exit code => s!"Code retour {code}"
  | .cancel none | .cancel (some []) => "Annulée (annulation)"
  | .cancel (some reason) => "Annulée (" ++ reason ++ ")"

/-- The plain text of a notice. -/
def text (n : Notice) (c : Command) (asRoot : Bool) : Text :=
  account asRoot ++ " " ++ n.phrase ++ " : " ++ c.render

/-- The colour of a notice: by account, but failures and cancellations have their own. -/
def colour (n : Notice) (asRoot : Bool) : String :=
  let byAccount := if asRoot then "\x1b[1;33m" else "\x1b[0;32m"
  match n with
  | .start | .exit 0 => byAccount
  | .exit _ | .cancel _ => "\x1b[0;31m"

end Notice

/-- How a console shows notices. -/
inductive NoticeStyle where
  | plain
  | coloured
  deriving DecidableEq, Repr

/-- A notice as shown; colours need a terminal. -/
def NoticeStyle.render (style : NoticeStyle) (terminal : Bool) (n : Notice) (c : Command)
    (asRoot : Bool) : Text :=
  let text := n.text c asRoot
  if style = .coloured ∧ terminal then n.colour asRoot ++ text ++ "\x1b[0m" else text

end CommandRelay
