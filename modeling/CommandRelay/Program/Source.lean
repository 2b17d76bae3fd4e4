import CommandRelay.Program.Script

/-! # Sources of scripts

A script is read from a source, character by character, with the number of the line. A backslash
before the end of a line joins it to the next one. `Source.takeParts` reads the parts of a word in
the context in which they stand: outside quotes, in quotes, in the braces of a value, in a sum or in
a document that stands in the script. -/

namespace CommandRelay.Program

/-- A token of a script. -/
inductive Token where
  | word (w : Word)
  | reserved (s : String)
  | operator (s : String)
  | redirect (stream : Option Nat) (operator : String)
  | newline
  | finish

/-- The name of a token in messages. -/
def Token.label : Token → String
  | .word _ => "word"
  | .reserved s | .operator s => "\"" ++ s ++ "\""
  | .redirect .. => "redirection"
  | .newline => "newline"
  | .finish => "end of file"

/-- What is left of the text of a script, and the line that it stands on. `jump` counts the lines
of documents that have been taken out of the text and end before the next line. A token may have
been put back, which comes before the text. -/
structure Source where
  rest : List Char
  line : Nat := 1
  jump : Nat := 0
  back : Option Token := none

/-- Why a text is no script, and the line of the fault. -/
structure SyntaxFault where
  line : Nat
  reason : String
  deriving DecidableEq, Repr

/-- The wording of a syntax fault. -/
def SyntaxFault.message (f : SyntaxFault) : String :=
  "Syntax error: " ++ f.reason

/-- What reads from a source. -/
abbrev Reading (α : Type) := StateT Source (Except SyntaxFault) α

namespace Source

/-- Gives up because of a fault. -/
def fail {α : Type} (reason : String) : Reading α := fun s =>
  .error ⟨s.line, reason⟩

/-- The source after its first character. -/
def advance (s : Source) : Source :=
  match s.rest with
  | [] => s
  | '\n' :: rest => { s with rest, line := s.line + 1 + s.jump, jump := 0 }
  | _ :: rest => { s with rest }

/-- The source after the joined lines at its front; `n` bounds them. -/
def joinLines : Nat → Source → Source
  | 0, s => s
  | n + 1, s =>
    match s.rest with
    | '\\' :: '\n' :: _ => joinLines n s.advance.advance
    | _ => s

/-- The next character, which is left in the source. -/
def peek : Reading (Option Char) := do
  modify fun s => joinLines s.rest.length s
  return (← get).rest.head?

/-- Takes the next character away. -/
def skip : Reading Unit :=
  modify advance

/-- Takes the next character if it is a given one. -/
def accept (c : Char) : Reading Bool := do
  if (← peek) = some c then
    skip
    return true
  return false

/-- Takes characters while they are of a kind; `n` bounds them. -/
def takeWhile (p : Char → Bool) : Nat → String → Reading String
  | 0, s => return s
  | n + 1, s => do
    match ← peek with
    | some c =>
      if p c then
        skip
        takeWhile p n (s.push c)
      else return s
    | none => return s

/-! ## Words -/

/-- Where parts of words stand, which settles what is special in them. In braces in quotes, `inner`
is set while another pair of quotes is open. -/
inductive Context where
  | bare
  | braces
  | quotes
  | quotedBraces (inner : Bool)
  | document
  | sum (depth : Nat)
  deriving DecidableEq, Repr

namespace Context

/-- Whether parts count as quoted. -/
def isQuoted : Context → Bool
  | .bare | .braces => false
  | _ => true

/-- What a backslash keeps from being special. -/
def isEscapable (context : Context) (c : Char) : Bool :=
  match context with
  | .bare | .braces => true
  | .document => ['$', '\\', '\x60'].contains c
  | .quotes | .sum _ => ['$', '\\', '\x60', '"'].contains c
  | .quotedBraces _ => ['$', '\\', '\x60', '"', '}'].contains c

/-- The context of the word in the braces of a value; patterns are read as outside quotes. -/
def inBraces (context : Context) (use : Use) : Context :=
  match context, use with
  | .bare, _ | .braces, _ => .braces
  | _, .trim .. => .braces
  | _, _ => .quotedBraces false

end Context

/-- The characters that end a word outside quotes. -/
def endsWord (c : Char) : Bool :=
  [' ', '\t', '\n', ';', '&', '|', '<', '>', '(', ')'].contains c

/-- Adds text to the parts read so far, of which the last one comes first. -/
def addText (quoted : Bool) (s : String) : List Part → List Part
  | .text q t :: rest =>
    if q = quoted then .text q (t ++ s) :: rest else .text quoted s :: .text q t :: rest
  | parts => .text quoted s :: parts

/-- The text up to a single quote. -/
def takeQuoted : Nat → String → Reading String
  | 0, _ => fail "Unterminated quoted string"
  | n + 1, s => do
    match (← get).rest with
    | [] => fail "Unterminated quoted string"
    | '\'' :: _ =>
      skip
      return s
    | c :: _ =>
      skip
      takeQuoted n (s.push c)

/-- The text up to a back quote, with the backslashes that belong to it taken away. -/
def takeBackquoted (inQuotes : Bool) : Nat → String → Reading String
  | 0, _ => fail "EOF in backquote substitution"
  | n + 1, s => do
    match ← peek with
    | none => fail "EOF in backquote substitution"
    | some '\x60' =>
      skip
      return s
    | some '\\' =>
      skip
      match (← get).rest with
      | [] => fail "EOF in backquote substitution"
      | c :: _ =>
        skip
        if ['\\', '\x60', '$'].contains c || (inQuotes && c = '"') then
          takeBackquoted inQuotes n (s.push c)
        else takeBackquoted inQuotes n ((s.push '\\').push c)
    | some c =>
      skip
      takeBackquoted inQuotes n (s.push c)

/-- Reads a script from another text. -/
def within (script : Reading Script) (text : String) : Reading Script := do
  let outer ← get
  set ({ rest := text.toList, line := outer.line } : Source)
  let result ← script
  set outer
  return result

/-- Takes the bracket that closes a script in a word, which has been put back. -/
def closeBracket : Reading Unit := do
  match (← get).back with
  | some (.operator ")") => modify fun s => { s with back := none }
  | some t => fail (t.label ++ " unexpected (expecting \")\")")
  | none => fail "Missing ')'"

/-- How the value in braces is used, after its name; nothing if it cannot be. -/
def takeUse : Reading (Option (Use × Bool)) := do
  let orEmpty ← accept ':'
  match ← peek with
  | some '-' =>
    skip
    return some (.fallback, orEmpty)
  | some '+' =>
    skip
    return some (.substitute, orEmpty)
  | some '?' =>
    skip
    return some (.demand, orEmpty)
  | some '=' =>
    skip
    return some (.assignment, orEmpty)
  | some '}' =>
    return if orEmpty then none else some (.plain, false)
  | some c =>
    if !orEmpty && (c = '%' || c = '#') then
      skip
      let longest ← accept c
      return some (.trim (c = '%') longest, false)
    return none
  | none => return none

/-- The name in the braces of a value, and whether its size is meant; nothing if there is none. -/
def takeBracedName : Reading (Option (String × Bool)) := do
  let bound := (← get).rest.length
  match ← peek with
  | none => return none
  | some c =>
    if Script.startsName c then
      return some (← takeWhile Script.isNameChar bound "", false)
    else if c.isDigit then
      return some (← takeWhile Char.isDigit bound "", false)
    else if c = '#' then
      skip
      match ← peek with
      | some d =>
        if Script.startsName d then return some (← takeWhile Script.isNameChar bound "", true)
        else if d.isDigit then return some (← takeWhile Char.isDigit bound "", true)
        else if Script.isSpecial d then
          let before ← get
          skip
          if (← peek) = some '}' then return some (String.singleton d, true)
          set before
          return some ("#", false)
        else return some ("#", false)
      | none => return some ("#", false)
    else if Script.isSpecial c then
      skip
      return some (String.singleton c, false)
    else return none

/-- Reads the parts of a word up to the end of its context. `script` reads what stands between
brackets, and `asMark` says that values are left alone. -/
def takeParts (script : Reading Script) (asMark : Bool) :
    Nat → Context → List Part → Reading (List Part)
  | 0, _, _ => fail "Unterminated quoted string"
  | n + 1, context, parts => do
    let quoted := context.isQuoted
    let go (context : Context) (parts : List Part) : Reading (List Part) :=
      takeParts script asMark n context parts
    let literal (c : Char) : Reading (List Part) := do
      skip
      go context (addText quoted (String.singleton c) parts)
    match ← peek with
    | none =>
      match context with
      | .bare | .document => return parts.reverse
      | .braces => fail "Missing '\x7d'"
      | .sum _ => fail "Missing '))'"
      | .quotes | .quotedBraces _ => fail "Unterminated quoted string"
    | some '\\' =>
      skip
      match (← get).rest with
      | [] => go context (addText true "\\" parts)
      | c :: _ =>
        skip
        let text := if context.isEscapable c then String.singleton c else String.ofList ['\\', c]
        go context (addText true text parts)
    | some '\'' =>
      if quoted then literal '\''
      else
        skip
        let text ← takeQuoted (← get).rest.length.succ ""
        go context (addText true text parts)
    | some '"' =>
      match context with
      | .bare | .braces =>
        skip
        let inside ← takeParts script asMark n .quotes []
        go context (inside.reverse ++ addText true "" parts)
      | .quotes =>
        skip
        return parts.reverse
      | .quotedBraces inner =>
        skip
        go (.quotedBraces !inner) parts
      | .document | .sum _ => literal '"'
    | some '\x60' =>
      if asMark then literal '\x60'
      else
        skip
        let text ← takeBackquoted quoted (← get).rest.length.succ ""
        let inner ← within script text
        go context (.printed quoted inner :: parts)
    | some '$' =>
      skip
      if asMark then go context (addText quoted "$" parts)
      else
        match ← peek with
        | some '(' =>
          skip
          if ← accept '(' then
            let expression ← takeParts script asMark n (.sum 0) []
            go context (.sum quoted expression :: parts)
          else
            let inner ← script
            closeBracket
            go context (.printed quoted inner :: parts)
        | some '{' =>
          skip
          let p ← do
            match ← takeBracedName with
            | none =>
              let _ ← takeParts script asMark n (context.inBraces .plain) []
              pure Part.bad
            | some (name, true) =>
              if ← accept '}' then pure (Part.value quoted name .size false [])
              else
                let _ ← takeParts script asMark n (context.inBraces .plain) []
                pure Part.bad
            | some (name, false) =>
              match ← takeUse with
              | none =>
                let _ ← takeParts script asMark n (context.inBraces .plain) []
                pure Part.bad
              | some (use, orEmpty) =>
                let word ← takeParts script asMark n (context.inBraces use) []
                pure (Part.value quoted name use orEmpty word)
          go context (p :: parts)
        | some c =>
          if Script.startsName c then
            let name ← takeWhile Script.isNameChar (← get).rest.length ""
            go context (.value quoted name .plain false [] :: parts)
          else if Script.isSpecial c then
            skip
            go context (.value quoted (String.singleton c) .plain false [] :: parts)
          else go context (addText quoted "$" parts)
        | none => go context (addText quoted "$" parts)
    | some c =>
      match context, c with
      | .bare, c => if endsWord c then return parts.reverse else literal c
      | .braces, '}' | .quotedBraces false, '}' =>
        skip
        return parts.reverse
      | .sum depth, '(' =>
        skip
        go (.sum (depth + 1)) (addText true "(" parts)
      | .sum (depth + 1), ')' =>
        skip
        go (.sum depth) (addText true ")" parts)
      | .sum 0, ')' =>
        skip
        if ← accept ')' then return parts.reverse
        go context (addText true ")" parts)
      | _, c => literal c

end Source

end CommandRelay.Program
