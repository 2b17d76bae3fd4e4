import CommandRelay.Command.Basic
import CommandRelay.Command.Words
import CommandRelay.Text.Quoted

/-! # Redirection syntax

The arguments of a command line may hold redirections: `>` or `1>` for the standard output and
`2>` for the standard error, followed by a target as the next argument or glued to the operator.
Parsing takes two passes. `normalize` splits glued redirections into tokens; `assemble` walks the
tokens, takes the targets away and keeps the rest as arguments. Pipes, appending and redirections
glued to anything else are refused. -/

namespace CommandRelay

/-- Why a command line is refused. -/
inductive ParseReason where
  | missingName
  | gluedRedirection
  | unreadable
  | missingTarget
  | pipe
  | append
  | duplicateStdout
  | duplicateStderr
  | badLine (fault : Words.Fault)
  | emptyLine
  deriving DecidableEq, Repr

/-- The wording of a reason. -/
def ParseReason.message : ParseReason → String
  | .missingName => "Nom de commande manquant"
  | .gluedRedirection =>
    "Syntaxe de redirection illisible, ajoutez un espace entre la commande et la redirection"
  | .unreadable => "Syntaxe de redirection illisible"
  | .missingTarget => "Syntaxe de redirection illisible : cible manquante"
  | .pipe => "Les pipes ne sont pas disponibles"
  | .append => "La redirection en ajout (>>) n'est pas supportée"
  | .duplicateStdout => "Redirection de stdout en double"
  | .duplicateStderr => "Redirection de stderr en double"
  | .badLine fault => s!"Ligne de commande invalide ({fault.message})"
  | .emptyLine => "Ligne de commande vide"

/-- A refused command line, with the name and the arguments or tokens it was refused for. -/
structure ParseError where
  reason : ParseReason
  name : Text
  args : List Text
  deriving DecidableEq, Repr

/-- The reason, the name between quotes and the quoted arguments. -/
def ParseError.message (e : ParseError) : Text :=
  e.reason.message ++ " '" ++ e.name ++ "' " ++ Quoted.list e.args

namespace Redirection

/-- The point that every operator ends in. -/
def arrow : Point := '>'

/-- The point that joins commands. -/
def bar : Point := '|'

/-- The operators; none of them can be a target. -/
def operators : List Text :=
  [">", "1>", "2>", ">>"]

/-- The tokens of an argument of three points or more. -/
def splitGlued (arg : Text) : Except ParseReason (List Text) :=
  match arg.span (· ≠ arrow) with
  | (_, []) => .ok [arg]
  | (before, _ :: target) =>
    if target.contains arrow then
      match before, target with
      | [], p :: rest =>
        if p ≠ arrow ∨ rest.contains arrow then .error .unreadable else .ok [">>", rest]
      | _, _ => .error .unreadable
    else if before = [] then .ok [">", target]
    else if before = "1" then .ok ["1>", target]
    else if before = "2" then .ok ["2>", target]
    else .error .gluedRedirection

/-- The tokens of one argument: none if it is empty, itself if it is too short to hold a glued
redirection. -/
def tokensOf (arg : Text) : Except ParseReason (List Text) :=
  if arg.contains bar then .error .pipe
  else if arg = [] then .ok []
  else if arg.length ≤ 2 then .ok [arg]
  else splitGlued arg

/-- The tokens of all arguments in order; the first argument at fault decides. -/
def normalizeArgs : List Text → Except ParseReason (List Text)
  | [] => .ok []
  | arg :: rest => do
    let front ← tokensOf arg
    let back ← normalizeArgs rest
    .ok (front ++ back)

/-- The tokens of the arguments of a command. -/
def normalize (name : Text) (args : List Text) : Except ParseError (List Text) :=
  (normalizeArgs args).mapError fun reason => ⟨reason, name, args⟩

/-- What the next token is: an argument or operator, or a target. -/
inductive Expecting where
  | item
  | stdoutTarget
  | stderrTarget
  deriving DecidableEq, Repr

/-- The parts of a command that tokens give. -/
structure Parts where
  args : List Text := []
  stdoutTarget : Text := []
  stderrTarget : Text := []
  deriving DecidableEq, Repr

/-- What a token does to the parts read so far. -/
def step (expecting : Expecting) (parts : Parts) (token : Text) :
    Except ParseReason (Expecting × Parts) :=
  match expecting with
  | .item =>
    if token = ">" ∨ token = "1>" then
      if parts.stdoutTarget = [] then .ok (.stdoutTarget, parts) else .error .duplicateStdout
    else if token = "2>" then
      if parts.stderrTarget = [] then .ok (.stderrTarget, parts) else .error .duplicateStderr
    else if token = ">>" then .error .append
    else if token = [] then .ok (.item, parts)
    else .ok (.item, { parts with args := parts.args ++ [token] })
  | .stdoutTarget =>
    if token ∈ operators then .error .missingTarget
    else .ok (.item, { parts with stdoutTarget := token })
  | .stderrTarget =>
    if token ∈ operators then .error .missingTarget
    else .ok (.item, { parts with stderrTarget := token })

/-- Walks the tokens; a target must not be missing at their end. -/
def assemble (expecting : Expecting) (parts : Parts) : List Text → Except ParseReason Parts
  | [] => if expecting = .item then .ok parts else .error .missingTarget
  | token :: rest => do
    let (expecting, parts) ← step expecting parts token
    assemble expecting parts rest

/-- What an error shows of a command line: its arguments if appending is refused, else its
tokens. -/
def shownFor (reason : ParseReason) (args tokens : List Text) : List Text :=
  if reason = .append then args else tokens

end Redirection

namespace Command

/-- The command of a name and its arguments. -/
def parse (name : Text) (args : List Text) : Except ParseError Command :=
  if h : name = [] then .error ⟨.missingName, name, args⟩
  else if name.contains Redirection.arrow then .error ⟨.gluedRedirection, name, args⟩
  else if name.contains Redirection.bar then .error ⟨.pipe, name, args⟩
  else
    match Redirection.normalize name args with
    | .error e => .error e
    | .ok tokens =>
      match Redirection.assemble .item {} tokens with
      | .error reason => .error ⟨reason, name, Redirection.shownFor reason args tokens⟩
      | .ok parts => .ok ⟨name, parts.args, parts.stdoutTarget, parts.stderrTarget, h⟩

/-- The command of a line, split into shell words. -/
def parseLine (line : Text) : Except ParseError Command :=
  match Words.split line with
  | .error fault => .error ⟨.badLine fault, line, []⟩
  | .ok [] => .error ⟨.emptyLine, line, []⟩
  | .ok (name :: args) => parse name args

end Command

end CommandRelay
