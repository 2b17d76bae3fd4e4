import CommandRelay.Program.Expression
import CommandRelay.Program.Shell

/-! # Conditions

The conditions of scripts ask about texts, numbers and paths. How many words there are settles what
a word that looks like an operator means, where that is not clear. -/

namespace CommandRelay.Program.Condition

/-- What a word of a condition can be. -/
inductive Role where
  | unary
  | binary
  | no
  | both
  | either
  | opening
  | closing
  deriving DecidableEq, Repr

/-- The role of an operator. -/
def role? (w : String) : Option Role :=
  if w = "!" then some .no
  else if w = "-a" then some .both
  else if w = "-o" then some .either
  else if w = "(" then some .opening
  else if w = ")" then some .closing
  else if ["=", "!=", "<", ">", "-eq", "-ne", "-gt", "-ge", "-lt", "-le", "-nt", "-ot",
      "-ef"].contains w then some .binary
  else if ["-b", "-c", "-d", "-e", "-f", "-g", "-G", "-h", "-k", "-L", "-n", "-O", "-p", "-r",
      "-s", "-S", "-t", "-u", "-w", "-x", "-z"].contains w then some .unary
  else none

/-- The role of the first of some words: an operator that asks about the next one is a text if
there is no next one, or if that is an operator between two. -/
def roleIn : List String → Option Role
  | [] => none
  | w :: rest =>
    match role? w, rest with
    | some .unary, [] => none
    | some .unary, x :: _ :: _ => if role? x = some .binary then none else some .unary
    | some .opening, [] => none
    | r, _ => r

/-- The number that a word stands for. -/
def number (w : String) : Except String Int :=
  let isBlank (c : Char) : Bool := c = ' ' || c = '\t' || c = '\n'
  let cs := (w.toList.dropWhile isBlank).reverse.dropWhile isBlank |>.reverse
  match (String.ofList (if cs.head? = some '+' then cs.drop 1 else cs)).toInt? with
  | some n => .ok n
  | none => .error s!"Illegal number: {w}"

/-- What a path of a shell leads to. -/
def located (s : Shell) (path : String) : Option Located :=
  match s.locate path with
  | .ok (.vacant _) | .error _ => none
  | .ok found => if s.pathExists path then some found else none

/-- Whether what an operator asks about a word holds. -/
def holds (s : Shell) (op w : String) : Bool :=
  match op, located s w with
  | "-n", _ => w ≠ ""
  | "-z", _ => w = ""
  | "-t", _ | "-h", _ | "-L", _ | "-g", _ | "-k", _ | "-u", _ | "-p", _ | "-S", _ | "-b", _ => false
  | _, none => false
  | "-d", some (.node _ .directory) | "-d", some .outside => true
  | "-d", _ => false
  | "-f", some (.node _ (.file ..)) => true
  | "-f", _ => false
  | "-c", some (.device _) => true
  | "-c", _ => false
  | "-s", some (.node _ (.file content _)) => content ≠ []
  | "-s", some (.device _) => false
  | "-x", some (.node _ (.file _ executable)) => executable
  | "-x", some (.device _) => false
  | _, some _ => true

/-- Whether an operator holds between two words. -/
def compare (a op b : String) : Except String Bool := do
  match op with
  | "=" => return a = b
  | "!=" => return a ≠ b
  | "<" => return a < b
  | ">" => return b < a
  | "-nt" | "-ot" => return false
  | "-ef" => return a = b
  | op =>
    let x ← number a
    let y ← number b
    match op with
    | "-eq" => return x = y
    | "-ne" => return x ≠ y
    | "-lt" => return x < y
    | "-le" => return x ≤ y
    | "-gt" => return y < x
    | _ => return y ≤ x

mutual

/-- Whether a condition without joints holds, and the words after it. -/
def single (s : Shell) : Nat → List String → Except String (Bool × List String)
  | 0, ws => .ok (false, ws)
  | n + 1, ws => do
    match ws, roleIn ws with
    | [], _ => return (false, [])
    | _ :: [], some .no => return (true, [])
    | _ :: rest, some .no => do
      let (holds, rest) ← single s n rest
      return (!holds, rest)
    | _ :: rest, some .opening =>
      if roleIn rest = some .closing then return (false, rest.drop 1)
      else do
        let (holds, rest) ← anyOf s n rest
        if roleIn rest = some .closing then return (holds, rest.drop 1)
        else throw "closing paren expected"
    | op :: [], some .unary => throw s!"{op}: argument expected"
    | op :: w :: rest, some .unary => return (holds s op w, rest)
    | a :: op :: rest, _ =>
      if roleIn (op :: rest) = some .binary then
        match rest with
        | [] => throw s!"{op}: argument expected"
        | b :: rest => do return (← compare a op b, rest)
      else return (a ≠ "", op :: rest)
    | [a], _ => return (a ≠ "", [])

/-- Whether all conditions hold that are joined closely. -/
def allOf (s : Shell) : Nat → List String → Except String (Bool × List String)
  | 0, ws => .ok (false, ws)
  | n + 1, ws => do
    let (first, rest) ← single s n ws
    match rest with
    | "-a" :: rest => do
      let (more, rest) ← allOf s n rest
      return (first && more, rest)
    | rest => return (first, rest)

/-- Whether one of the conditions holds that are joined. -/
def anyOf (s : Shell) : Nat → List String → Except String (Bool × List String)
  | 0, ws => .ok (false, ws)
  | n + 1, ws => do
    let (first, rest) ← allOf s n ws
    match rest with
    | "-o" :: rest => do
      let (more, rest) ← anyOf s n rest
      return (first || more, rest)
    | rest => return (first, rest)

end

/-- Whether the whole of some words holds; if some are left, the one before them is at fault. -/
def whole (s : Shell) (ws : List String) : Except String Bool := do
  let (holds, rest) ← anyOf s (4 * ws.length + 4) ws
  if rest = [] then return holds
  let last := (ws.take (ws.length - rest.length)).getLastD ""
  throw s!"{last}: unexpected operator"

/-- Whether a condition holds: three words with an operator in the middle are a comparison, and
otherwise brackets around three or four words and a negation before them are taken away first; `n`
bounds how often. -/
def decided (s : Shell) : Nat → List String → Except String Bool
  | 0, _ => .ok false
  | n + 1, ws =>
    match ws with
    | [] => .ok false
    | [a, op, b] =>
      if role? op = some .binary then compare a op b
      else if a = "(" && b = ")" then whole s [op]
      else if a = "!" then (decided s n [op, b]).map (!·)
      else whole s ws
    | [a, b, c, d] =>
      if a = "(" && d = ")" then whole s [b, c]
      else if a = "!" then (decided s n [b, c, d]).map (!·)
      else whole s ws
    | ws => whole s ws

/-- Whether the condition of a command holds, which is closed by a bracket if it is opened by
one. -/
def test (s : Shell) (name : String) (arguments : List String) : Except String Bool :=
  if name = "[" then
    if arguments.getLast? = some "]" then decided s 3 arguments.dropLast else .error "missing ]"
  else decided s 3 arguments

end CommandRelay.Program.Condition
