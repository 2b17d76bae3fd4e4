/-! # Scripts

The language of shell scripts as a tree. A word is made of parts: text that stands for itself, the
values of names, what other scripts print and the values of sums. Parts in quotes are never split
into several fields. `Script` has the commands with what joins them; the numbers of the lines are
kept where messages show them. -/

namespace CommandRelay.Program

/-- How the value of a name is used: as it is, its size, a word in its place while there is none,
the same with an assignment or as a complaint, a word in its place once there is one, or without
what a pattern matches at one of its ends. -/
inductive Use where
  | plain
  | size
  | fallback
  | assignment
  | demand
  | substitute
  | trim (atEnd longest : Bool)
  deriving DecidableEq, Repr

/-- What a redirection does to its stream. -/
inductive RedirectKind where
  | output
  | overwrite
  | append
  | input
  | both
  | duplicate
  | document
  deriving DecidableEq, Repr

mutual

/-- A part of a word. `orEmpty` says that an empty value counts as none, and `bad` is a value that
cannot be read. -/
inductive Part where
  | text (quoted : Bool) (s : String)
  | value (quoted : Bool) (name : String) (use : Use) (orEmpty : Bool) (word : List Part)
  | printed (quoted : Bool) (script : Script)
  | sum (quoted : Bool) (expression : List Part)
  | bad

/-- A redirection of a stream, known by its number. -/
inductive Redirect where
  | mk (stream : Nat) (kind : RedirectKind) (target : List Part)

/-- A script. -/
inductive Script where
  | nothing
  | simple (line : Nat) (assignments : List (String × List Part)) (words : List (List Part))
      (redirects : List Redirect)
  | sequence (first second : Script)
  | both (first second : Script)
  | either (first second : Script)
  | negated (body : Script)
  | pipe (stages : List Script)
  | inside (line : Nat) (body : Script) (redirects : List Redirect)
  | aside (body : Script)
  | redirected (line : Nat) (body : Script) (redirects : List Redirect)
  | branch (condition yes no : Script)
  | loop (whileTrue : Bool) (condition body : Script)
  | each (line : Nat) (name : String) (words : List (List Part)) (body : Script)
  | choice (line : Nat) (subject : List Part) (arms : List (List (List Part) × Script))
  | function (name : String) (body : Script)

end

instance : Inhabited Script := ⟨.nothing⟩

/-- A word of a script. -/
abbrev Word := List Part

namespace Script

/-- Whether a character can begin a name. -/
def startsName (c : Char) : Bool :=
  c.isAlpha || c = '_'

/-- Whether a character can stand in a name. -/
def isNameChar (c : Char) : Bool :=
  c.isAlphanum || c = '_'

/-- Whether a text is a name. -/
def isName (s : String) : Bool :=
  match s.toList with
  | [] => false
  | c :: rest => startsName c && rest.all isNameChar

/-- The commands that no function can stand for, and whose faults end a shell. -/
def specialNames : List String :=
  [".", ":", "break", "continue", "eval", "exec", "exit", "export", "local", "readonly", "return",
    "set", "shift", "times", "trap", "unset"]

/-- Whether a character alone names a value. -/
def isSpecial (c : Char) : Bool :=
  c.isDigit || ['$', '!', '#', '?', '-', '*', '@'].contains c

end Script

end CommandRelay.Program
