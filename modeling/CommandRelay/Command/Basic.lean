import CommandRelay.Text.Point

/-! # Commands

A command is the name of an executable with its arguments and up to two redirection targets. An
empty target stands for no redirection. `Command.tokens` is the form that redirection parsing
takes back, and `Command.argv` is the vector that the system receives. -/

namespace CommandRelay

/-- An executable to start; its name is never empty. -/
structure Command where
  name : Text
  args : List Text := []
  stdoutTarget : Text := []
  stderrTarget : Text := []
  name_ne : name ≠ []
  deriving DecidableEq

namespace Command

/-- The command of the given parts, if the name is not empty. -/
def ofParts? (name : Text) (args : List Text) (stdoutTarget stderrTarget : Text) :
    Option Command :=
  if h : name ≠ [] then some ⟨name, args, stdoutTarget, stderrTarget, h⟩ else none

/-- The name followed by the arguments. -/
def argv (c : Command) : List Text :=
  c.name :: c.args

/-- The operator and the target of a redirection, nothing if there is no target. -/
def redirection (operator target : Text) : List Text :=
  if target = [] then [] else [operator, target]

/-- What follows the name in `tokens`. -/
def argumentTokens (c : Command) : List Text :=
  c.args ++ redirection ">" c.stdoutTarget ++ redirection "2>" c.stderrTarget

/-- The argument vector followed by the redirections that are set. -/
def tokens (c : Command) : List Text :=
  c.name :: c.argumentTokens

/-- The same command without redirections. -/
def withoutTargets (c : Command) : Command :=
  { c with stdoutTarget := [], stderrTarget := [] }

end Command

end CommandRelay
