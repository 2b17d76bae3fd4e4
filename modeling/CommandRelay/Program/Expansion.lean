import CommandRelay.Program.Expression
import CommandRelay.Program.Fields
import CommandRelay.Program.Shell

/-! # What words come to

The parts of a word come to text by the values of names and sums and by what scripts print; the text
becomes fields, and a field with something special in it the paths that it matches. A word may give
names values, and a fault in it ends the shell. What performs a script is given by the caller. -/

namespace CommandRelay.Program

/-- What performs a script for what it prints. -/
abbrev Substitution := Shell → Script → Shell × String

namespace Shell

/-! ## Parts -/

/-- Whether a name stands for all arguments. -/
def isArguments (name : String) : Bool :=
  name = "@" || name = "*"

/-- What stands between arguments that are made one text. -/
def joint (s : Shell) : String :=
  match s.separators.toList with
  | [] => ""
  | c :: _ => String.singleton c

/-- The text of a value; all arguments are joined. -/
def valueText? (s : Shell) (name : String) : Option String :=
  if isArguments name then
    if s.arguments = [] then none else some (s.joint.intercalate s.arguments)
  else s.value? name

/-- The pieces of a value as it is. -/
def piecesOf (s : Shell) (splits quoted : Bool) (name : String) : List Piece :=
  if !isArguments name then Piece.ofValue quoted (s.value name)
  else if !splits || (name = "*" && quoted) then
    Piece.ofValue quoted (s.joint.intercalate s.arguments)
  else Piece.ofArguments quoted s.arguments

/-- The value of the sum in a text, with the assignments that it makes. -/
def sum (s : Shell) (text : String) : Shell × String :=
  match Expression.valueOf s.value text with
  | .error f => (s.fail (f.message text), "")
  | .ok (n, assignments) =>
    let set (s : Shell) (a : String × Int) : Shell :=
      match s.assign a.1 (toString a.2) false with
      | .ok s => s
      | .error reason => s.fail reason
    (assignments.reverse.foldl set s, toString n)

/-- What a script printed, without the ends of lines at its end and without zeros. -/
def trimLines (printed : String) : String :=
  String.ofList ((printed.toList.reverse.dropWhile (· = '\n')).reverse.filter (· ≠ '\x00'))

/-- The text of the fault that a name has no value. -/
def missing (name : String) (orEmpty : Bool) : String :=
  s!"{name}: parameter not set" ++ if orEmpty then " or null" else ""

mutual

/-- The pieces of a part. `splits` says that fields are wanted, and `separates` that text without
quotes may be taken apart. -/
def expandPart (run : Substitution) (splits separates : Bool) (s : Shell) :
    Part → Shell × List Piece
  | .text quoted text =>
    if text = "" then (s, if quoted then [.quotes] else [])
    else (s, Piece.ofString quoted (separates && !quoted) text)
  | .bad => (s.fail "Bad substitution", [])
  | .sum quoted expression =>
    let (s, pieces) := expandParts run false false s expression
    if s.stop.isSome then (s, [])
    else
      let (s, text) := s.sum (Piece.text pieces)
      (s, Piece.ofValue quoted text)
  | .printed quoted script =>
    let (s, printed) := run s script
    (s, Piece.ofValue quoted (trimLines printed))
  | .value quoted name use orEmpty word =>
    let old := s.valueText? name
    let isMissing := match old with
      | none => true
      | some v => orEmpty && v = ""
    let isDemanded := s.switches.contains 'u' && old.isNone && !isArguments name
    match use with
    | .plain =>
      if isDemanded then (s.fail (missing name false), [])
      else (s, s.piecesOf splits quoted name)
    | .size =>
      if isDemanded then (s.fail (missing name false), [])
      else (s, Piece.ofValue quoted (toString (old.getD "").length))
    | .fallback =>
      if isMissing then expandParts run splits (separates || !quoted) s word
      else (s, s.piecesOf splits quoted name)
    | .substitute =>
      if isMissing then (s, []) else expandParts run splits (separates || !quoted) s word
    | .demand =>
      if isMissing then
        let (s, pieces) := expandParts run false false s word
        let text := Piece.text pieces
        if s.stop.isSome then (s, [])
        else
          (s.fail (if word.isEmpty then missing name orEmpty else s!"{name}: {text}"), [])
      else (s, s.piecesOf splits quoted name)
    | .assignment =>
      if isMissing then
        let (s, pieces) := expandParts run false false s word
        if s.stop.isSome then (s, [])
        else if !Script.isName name then (s.fail s!"{name}: bad variable name", [])
        else
          match s.assign name (Piece.text pieces) false with
          | .ok s => (s, s.piecesOf splits quoted name)
          | .error reason => (s.fail reason, [])
      else (s, s.piecesOf splits quoted name)
    | .trim atEnd longest =>
      if isDemanded then (s.fail (missing name false), [])
      else
        let (s, pieces) := expandParts run false false s word
        let left := (Piece.pattern pieces).trim atEnd longest (old.getD "").toList
        (s, Piece.ofValue quoted (String.ofList left))

/-- The pieces of parts, unless the shell stops among them. -/
def expandParts (run : Substitution) (splits separates : Bool) (s : Shell) :
    List Part → Shell × List Piece
  | [] => (s, [])
  | p :: rest =>
    let (s, pieces) := expandPart run splits separates s p
    if s.stop.isSome then (s, [])
    else
      let (s, more) := expandParts run splits separates s rest
      (s, pieces ++ more)

end

/-! ## Home directories -/

/-- The home directory of a user, or of the one that the shell belongs to. -/
def home? (s : Shell) (user : String) : Option String :=
  match user with
  | "" => s.value? "HOME"
  | "root" => some "/root"
  | _ => none

/-- The parts of text that may begin with a tilde. -/
def expandTilde (s : Shell) (text : String) (isWhole : Bool) : List Part :=
  match text.toList with
  | '~' :: rest =>
    let user := rest.takeWhile (· ≠ '/')
    match (if user.length < rest.length || isWhole then s.home? (String.ofList user) else none) with
    | some home =>
      [.text true home, .text false (String.ofList (rest.drop user.length))]
    | none => [.text false text]
  | _ => [.text false text]

/-- A word with the home directory in the place of a tilde at its front. -/
def withHome (s : Shell) : Word → Word
  | .text false text :: rest => s.expandTilde text rest.isEmpty ++ rest
  | w => w

/-- The value of an assignment with home directories, also after colons. -/
def withHomes (s : Shell) : Word → Word
  | [] => []
  | .text false text :: rest =>
    let pieces := (text.splitOn ":").map fun piece => s.expandTilde piece rest.isEmpty
    [Part.text false ":"].intercalate pieces ++ rest
  | w => w

/-! ## Paths that match -/

/-- The names in a directory that a pattern matches; a dot at the front has to be written. -/
def matching (s : Shell) (before : String) (p : Pattern) : List String :=
  let isDotted : Bool := p.head?.any (·.1 = '.')
  let names := match s.entries (if before = "" then "." else before) with
    | .ok names => [".", ".."] ++ names
    | .error _ => []
  names.filter fun name => (isDotted || name.front ≠ '.') && p.isMatch name.toList

/-- The paths that the rest of a pattern leads to from a path on. -/
def matchFrom (s : Shell) (before : String) : List Pattern → List String
  | [] => []
  | [p] =>
    if p.isSpecial then (s.matching before p).map (before ++ ·)
    else if s.pathExists (before ++ p.text) then [before ++ p.text]
    else []
  | p :: rest =>
    let names := if p.isSpecial then s.matching before p else [p.text]
    names.flatMap fun name => s.matchFrom (before ++ name ++ "/") rest

/-- The paths that a field matches, in order; a field that matches none stands for itself. -/
def pathsOf (s : Shell) (field : Pattern) : List String :=
  if !field.isSpecial || s.switches.contains 'f' then [field.text]
  else
    match (s.matchFrom "" field.components).mergeSort fun a b => decide (a ≤ b) with
    | [] => [field.text]
    | paths => paths

/-! ## Words -/

/-- The fields of a word. -/
def expandWord (run : Substitution) (s : Shell) (w : Word) : Shell × List String :=
  let (s, pieces) := expandParts run true false s (s.withHome w)
  if s.stop.isSome then (s, []) else (s, (Piece.split s.separators pieces).flatMap s.pathsOf)

/-- The fields of words, unless the shell stops among them. -/
def expandWords (run : Substitution) : Shell → List Word → Shell × List String
  | s, [] => (s, [])
  | s, w :: rest =>
    let (s, fields) := s.expandWord run w
    if s.stop.isSome then (s, [])
    else
      let (s, more) := expandWords run s rest
      (s, fields ++ more)

/-- The one text of a word. -/
def expandText (run : Substitution) (s : Shell) (w : Word) : Shell × String :=
  let (s, pieces) := expandParts run false false s (s.withHome w)
  (s, Piece.text pieces)

/-- The text of the value of an assignment. -/
def expandValue (run : Substitution) (s : Shell) (w : Word) : Shell × String :=
  let (s, pieces) := expandParts run false false s (s.withHomes w)
  (s, Piece.text pieces)

/-- The pattern of a word. -/
def expandPattern (run : Substitution) (s : Shell) (w : Word) : Shell × Pattern :=
  let (s, pieces) := expandParts run false false s (s.withHome w)
  (s, Piece.pattern pieces)

end Shell

end CommandRelay.Program
