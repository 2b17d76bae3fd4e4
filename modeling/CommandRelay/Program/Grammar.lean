import CommandRelay.Program.Source

/-! # The grammar of scripts

Scripts are read by recursive descent: lists of pipelines of commands. A word is a reserved one
only where a command may begin and if none of it is quoted. `Script.next` reads what stands on one
line, with the lines that belong to it, so that a fault further down does not keep the lines before
it from being performed. -/

namespace CommandRelay.Program

namespace Token

/-- The words that are reserved. -/
def reservedWords : List String :=
  ["!", "case", "do", "done", "elif", "else", "esac", "fi", "for", "if", "in", "then", "until",
    "while", "\x7b", "\x7d"]

/-- The text of a word of which nothing is quoted and everything stands for itself. -/
def plain? : Word → Option String
  | [.text false s] => some s
  | _ => none

/-- A token where reserved words are looked for. -/
def classify : Token → Token
  | .word w =>
    match plain? w with
    | some s => if reservedWords.contains s then .reserved s else .word w
    | none => .word w
  | t => t

/-- Whether a token is a given reserved word. -/
def isReserved (s : String) : Token → Bool
  | .reserved t => s = t
  | _ => false

/-- Whether a token is a given operator. -/
def isOperator (s : String) : Token → Bool
  | .operator t => s = t
  | _ => false

/-- Whether a token ends a list that stands inside something else. -/
def endsList : Token → Bool
  | .reserved s => ["done", "elif", "else", "esac", "fi", "then", "do", "\x7d"].contains s
  | .operator s => [")", ";;"].contains s
  | .finish => true
  | _ => false

end Token

namespace Source

/-- Gives up because of a token that was not expected. -/
def unexpected {α : Type} (t : Token) (wanted : Option String) : Reading α :=
  fail (t.label ++ " unexpected" ++
    match wanted with
    | some w => s!" (expecting \"{w}\")"
    | none => "")

/-! ## Tokens -/

/-- Takes a comment away. -/
def skipComment : Nat → Reading Unit
  | 0 => return
  | n + 1 => do
    match (← get).rest with
    | [] | '\n' :: _ => return
    | _ =>
      skip
      skipComment n

/-- Takes blanks and a comment away. -/
def skipBlanks : Nat → Reading Unit
  | 0 => return
  | n + 1 => do
    match ← peek with
    | some ' ' | some '\t' =>
      skip
      skipBlanks n
    | some '#' =>
      skipComment (← get).rest.length
      skipBlanks n
    | _ => return

/-- The operator of a redirection; the character that begins it has been taken. -/
def takeRedirect (first : Char) : Reading String := do
  if first = '>' then
    if ← accept '>' then return ">>"
    if ← accept '|' then return ">|"
    if ← accept '&' then return ">&"
    return ">"
  else
    if ← accept '<' then
      if ← accept '-' then return "<<-"
      return "<<"
    if ← accept '&' then return "<&"
    if ← accept '>' then return "<>"
    return "<"

/-- An operator whose character may stand twice. -/
def takeDouble (c : Char) : Reading Token := do
  skip
  if ← accept c then return .operator (String.ofList [c, c])
  return .operator (String.singleton c)

/-- The next token of the text; `script` reads what stands between brackets in words, and `asMark`
says that a word is read as the mark of a document. -/
def readToken (script : Reading Script) (asMark : Bool) : Reading Token := do
  skipBlanks (← get).rest.length.succ
  match ← peek with
  | none => return .finish
  | some '\n' =>
    skip
    return .newline
  | some '&' => takeDouble '&'
  | some '|' => takeDouble '|'
  | some ';' => takeDouble ';'
  | some '(' =>
    skip
    return .operator "("
  | some ')' =>
    skip
    return .operator ")"
  | some c =>
    if c = '>' || c = '<' then
      skip
      return .redirect none (← takeRedirect c)
    let w ← takeParts script asMark (2 * (← get).rest.length + 2) .bare []
    match Token.plain? w, ← peek with
    | some s, some c =>
      if s.length = 1 && s.isNat && (c = '>' || c = '<') then
        skip
        return .redirect s.toNat? (← takeRedirect c)
      return .word w
    | _, _ => return .word w

/-- Takes the token that was put back, or the next one of the text. -/
def takeToken (script : Reading Script) (asMark : Bool) : Reading Token := do
  match (← get).back with
  | some t =>
    modify fun s => { s with back := none }
    return t
  | none => readToken script asMark

/-- Puts a token back. -/
def putBack (t : Token) : Reading Unit :=
  modify fun s => { s with back := some t }

/-- Takes the ends of lines away; `n` bounds them. -/
def skipLines (script : Reading Script) : Nat → Reading Unit
  | 0 => return
  | n + 1 => do
    match ← takeToken script false with
    | .newline => skipLines script n
    | t => putBack t

/-- The next token that is no end of a line, where reserved words are looked for. -/
def takeNext (script : Reading Script) : Reading Token := do
  skipLines script (← get).rest.length.succ
  return (← takeToken script false).classify

/-! ## Documents -/

/-- How many characters there are up to the end of the line, quotes being passed over; `quote` is
the one that is open. -/
def lineLength (quote : Option Char) : List Char → Nat
  | [] => 0
  | '\\' :: c :: rest =>
    if quote = some '\'' ∧ c = '\'' then 2 + lineLength none rest else 2 + lineLength quote rest
  | c :: rest =>
    if quote = some c then 1 + lineLength none rest
    else if quote = none && c = '\n' then 0
    else if quote = none && (c = '\'' || c = '"') then 1 + lineLength (some c) rest
    else 1 + lineLength quote rest

/-- The lines of a document up to its mark, with what follows; `n` bounds the lines. -/
def splitDocument (mark : List Char) (strip : Bool) : Nat → List Char → List Char →
    Nat × List Char × List Char
  | 0, text, rest => (0, text.reverse, rest)
  | n + 1, text, rest =>
    if rest = [] then (0, text.reverse, [])
    else
      let line := rest.takeWhile (· ≠ '\n')
      let after := rest.drop (line.length + 1)
      let shown := if strip then line.dropWhile (· = '\t') else line
      if shown = mark then (1, text.reverse, after)
      else
        let ended := if line.length < rest.length then ['\n'] else []
        let (count, text, rest) :=
          splitDocument mark strip n (ended ++ (shown.reverse ++ text)) after
        (count + 1, text, rest)

/-- The text of the parts of a word, whatever is quoted. -/
def bareText (w : Word) : String :=
  String.join (w.map fun
    | .text _ s => s
    | _ => "")

/-- Whether something in a word is quoted. -/
def hasQuotes (w : Word) : Bool :=
  w.any fun
    | .text quoted _ => quoted
    | _ => false

/-- Takes a document out of the lines that follow, and reads its parts unless its mark is
quoted. -/
def takeDocument (script : Reading Script) (mark : Word) (strip : Bool) : Reading Word := do
  let s ← get
  let here := lineLength none s.rest
  let (count, text, rest) := splitDocument (bareText mark).toList strip s.rest.length []
    (s.rest.drop (here + 1))
  let left : Source :=
    { s with rest := s.rest.take (here + 1) ++ rest, jump := s.jump + count }
  if hasQuotes mark then
    set left
    return [.text true (String.ofList text)]
  else
    set ({ rest := text, line := s.line + 1 } : Source)
    let parts ← takeParts script false (2 * text.length + 2) .document []
    set left
    return parts

/-- The target of a redirection after its operator. -/
def takeTarget (script : Reading Script) (stream : Option Nat) (operator : String) :
    Reading Redirect := do
  let isDocument := operator = "<<" || operator = "<<-"
  match ← takeToken script isDocument with
  | .word w =>
    match operator with
    | ">>" => return .mk (stream.getD 1) .append w
    | ">&" => return .mk (stream.getD 1) .duplicate w
    | "<&" => return .mk (stream.getD 0) .duplicate w
    | "<>" => return .mk (stream.getD 0) .both w
    | "<" => return .mk (stream.getD 0) .input w
    | ">" => return .mk (stream.getD 1) .output w
    | ">|" => return .mk (stream.getD 1) .overwrite w
    | _ => return .mk (stream.getD 0) .document (← takeDocument script w (operator = "<<-"))
  | t => unexpected t none

/-- The redirections that follow, and nothing else; `n` bounds them. -/
def takeRedirects (script : Reading Script) : Nat → List Redirect → Reading (List Redirect)
  | 0, redirects => return redirects.reverse
  | n + 1, redirects => do
    match ← takeToken script false with
    | .redirect stream operator =>
      let r ← takeTarget script stream operator
      takeRedirects script n (r :: redirects)
    | t =>
      putBack t
      return redirects.reverse

/-! ## Commands -/

/-- The name and the value of an assignment. -/
def assignment? : Word → Option (String × Word)
  | .text false s :: rest =>
    let name := s.toList.takeWhile (· ≠ '=')
    match s.toList.drop name.length with
    | '=' :: value =>
      if Script.isName (String.ofList name) then
        some (String.ofList name,
          if value = [] then rest else .text false (String.ofList value) :: rest)
      else none
    | _ => none
  | _ => none

/-- What ends a list of commands: the end of a line, a token that cannot begin a command, or the
same where the list may be empty. -/
inductive ListEnd where
  | line
  | token
  | bracket
  deriving DecidableEq, Repr

/-- Takes a token that must be a given one. -/
def expect (script : Reading Script) (isWanted : Token → Bool) (wanted : String) :
    Reading Unit := do
  let t ← takeToken script false
  if !isWanted t.classify then unexpected t.classify (some wanted)

/-- The words up to the end of a line. -/
def takeWords (script : Reading Script) : Nat → List Word → Reading (List Word)
  | 0, words => return words.reverse
  | n + 1, words => do
    match ← takeToken script false with
    | .word w => takeWords script n (w :: words)
    | .newline | .operator ";" => return words.reverse
    | t => unexpected t none

/-- The name that a loop over words gives to each of them. -/
def takeName (script : Reading Script) : Reading String := do
  match ← takeToken script false with
  | .word w =>
    match Token.plain? w with
    | some name => if Script.isName name then return name else fail "Bad for loop variable"
    | none => fail "Bad for loop variable"
  | _ => fail "Bad for loop variable"

/-- The words of a loop over words, which are the arguments if there are none. -/
def takeEachWords (script : Reading Script) : Reading (List Word) := do
  match ← takeNext script with
  | .reserved "in" => takeWords script (← get).rest.length.succ []
  | .operator ";" => return [[.value true "@" .plain false []]]
  | t =>
    putBack t
    return [[.value true "@" .plain false []]]

/-- The patterns of an arm up to its bracket. -/
def takePatterns (script : Reading Script) : Nat → Token → List Word → Reading (List Word)
  | 0, _, words => return words.reverse
  | n + 1, first, words => do
    let words := match first with
      | .word w => w :: words
      | .reserved s => [.text false s] :: words
      | _ => words
    match ← takeToken script false with
    | .operator "|" => takePatterns script n (← takeToken script false) words
    | .operator ")" => return words.reverse
    | t => unexpected t (some ")")

mutual

/-- A list of commands. -/
def takeList : Nat → ListEnd → Bool → Script → Reading Script
  | 0, _, _, done => return done
  | n + 1, ending, isFirst, done => do
    let script := takeList n .bracket true .nothing
    let t ← if ending = .line then Token.classify <$> takeToken script false else takeNext script
    match t with
    | .newline => return done
    | .finish =>
      putBack .finish
      return done
    | t =>
      putBack t
      if t.endsList && (ending = .bracket || ending = .token && !isFirst) then return done
      let first ← takeChain n
      let done := match done with
        | .nothing => first
        | done => .sequence done first
      match ← takeToken script false with
      | .operator ";" => takeList n ending false done
      | .newline =>
        putBack .newline
        takeList n ending false done
      | .finish =>
        putBack .finish
        return done
      | t =>
        if ending = .line then unexpected t.classify none
        putBack t
        return done

/-- Pipelines joined by conditions, which may be left to run on their own. -/
def takeChain : Nat → Reading Script
  | 0 => return .nothing
  | n + 1 => do
    let script := takeList n .bracket true .nothing
    let whole ← takeMore n (← takePipeline n)
    match ← takeToken script false with
    | .operator "&" =>
      putBack (.operator ";")
      return .aside whole
    | t =>
      putBack t
      return whole

/-- What conditions join to a pipeline. -/
def takeMore : Nat → Script → Reading Script
  | 0, first => return first
  | n + 1, first => do
    let script := takeList n .bracket true .nothing
    match ← takeToken script false with
    | .operator "&&" =>
      putBack (← takeNext script)
      takeMore n (.both first (← takePipeline n))
    | .operator "||" =>
      putBack (← takeNext script)
      takeMore n (.either first (← takePipeline n))
    | t =>
      putBack t
      return first

/-- Commands joined by pipes, after a negation or not. -/
def takePipeline : Nat → Reading Script
  | 0 => return .nothing
  | n + 1 => do
    let script := takeList n .bracket true .nothing
    let first ← takeToken script false
    let negated := first.isReserved "!"
    let first ← if negated then Token.classify <$> takeToken script false else pure first
    putBack first
    let stages ← takeStages n [← takeCommand n]
    let whole := match stages with
      | [one] => one
      | stages => .pipe stages
    return if negated then .negated whole else whole

/-- The commands that pipes join to others, the last one first. -/
def takeStages : Nat → List Script → Reading (List Script)
  | 0, stages => return stages.reverse
  | n + 1, stages => do
    let script := takeList n .bracket true .nothing
    match ← takeToken script false with
    | .operator "|" =>
      putBack (← takeNext script)
      takeStages n ((← takeCommand n) :: stages)
    | t =>
      putBack t
      return stages.reverse

/-- A command with the redirections that follow it. -/
def takeCommand : Nat → Reading Script
  | 0 => return .nothing
  | n + 1 => do
    let script := takeList n .bracket true .nothing
    let body := takeList n .token true .nothing
    let line := (← get).line
    let close (isWanted : Token → Bool) (wanted : String) (c : Script) : Reading Script := do
      expect script isWanted wanted
      let redirects ← takeRedirects script (← get).rest.length []
      return match c, redirects with
        | c, [] => c
        | .inside line body _, redirects => .inside line body redirects
        | c, redirects => .redirected line c redirects
    match ← takeToken script false with
    | .reserved "if" => close (Token.isReserved "fi") "fi" (← takeBranch n)
    | .reserved "while" =>
      let condition ← body
      expect script (Token.isReserved "do") "do"
      close (Token.isReserved "done") "done" (.loop true condition (← body))
    | .reserved "until" =>
      let condition ← body
      expect script (Token.isReserved "do") "do"
      close (Token.isReserved "done") "done" (.loop false condition (← body))
    | .reserved "for" =>
      let name ← takeName script
      let words ← takeEachWords script
      let t ← takeNext script
      if !t.isReserved "do" then unexpected t (some "do")
      close (Token.isReserved "done") "done" (.each line name words (← body))
    | .reserved "case" =>
      match ← takeToken script false with
      | .word subject =>
        let t ← takeNext script
        if !t.isReserved "in" then unexpected t (some "in")
        let c := Script.choice line subject (← takeArms n [])
        let redirects ← takeRedirects script (← get).rest.length []
        return if redirects.isEmpty then c else .redirected line c redirects
      | t => fail (t.label ++ " unexpected (expecting word)")
    | .operator "(" => close (Token.isOperator ")") ")" (.inside line (← body) [])
    | .reserved "\x7b" => close (Token.isReserved "\x7d") "\x7d" (← body)
    | .word w =>
      putBack (.word w)
      takeSimple n line [] [] []
    | .redirect stream operator =>
      putBack (.redirect stream operator)
      takeSimple n line [] [] []
    | t => unexpected t none

/-- A condition with what depends on it, after its first word. -/
def takeBranch : Nat → Reading Script
  | 0 => return .nothing
  | n + 1 => do
    let script := takeList n .bracket true .nothing
    let body := takeList n .token true .nothing
    let condition ← body
    expect script (Token.isReserved "then") "then"
    let yes ← body
    match (← takeToken script false).classify with
    | .reserved "elif" => return .branch condition yes (← takeBranch n)
    | .reserved "else" => return .branch condition yes (← body)
    | t =>
      putBack t
      return .branch condition yes .nothing

/-- The arms of a choice, the last one first, and its last word. -/
def takeArms : Nat → List (List Word × Script) → Reading (List (List Word × Script))
  | 0, arms => return arms.reverse
  | n + 1, arms => do
    let script := takeList n .bracket true .nothing
    let first ← takeNext script
    if first.isReserved "esac" then return arms.reverse
    let first ← if first.isOperator "(" then takeToken script false else pure first
    let patterns ← takePatterns script (← get).rest.length.succ first []
    let arms := (patterns, ← script) :: arms
    let t ← takeNext script
    if t.isReserved "esac" then return arms.reverse
    if t.isOperator ";;" then takeArms n arms else unexpected t (some ";;")

/-- A simple command, or the definition of a function. -/
def takeSimple : Nat → Nat → List (String × Word) → List Word → List Redirect → Reading Script
  | 0, line, assignments, words, redirects =>
    return .simple line assignments.reverse words.reverse redirects.reverse
  | n + 1, line, assignments, words, redirects => do
    let script := takeList n .bracket true .nothing
    match ← takeToken script false with
    | .word w =>
      match words, assignment? w with
      | [], some a => takeSimple n line (a :: assignments) words redirects
      | _, _ => takeSimple n line assignments (w :: words) redirects
    | .redirect stream operator =>
      let r ← takeTarget script stream operator
      takeSimple n line assignments words (r :: redirects)
    | t =>
      match t, assignments, words, redirects with
      | .operator "(", [], [w], [] =>
        expect script (Token.isOperator ")") ")"
        let name := bareText w
        if hasQuotes w || !Script.isName name || Script.specialNames.contains name then
          fail "Bad function name"
        putBack (← takeNext script)
        return .function name (← takeCommand n)
      | _, _, _, _ =>
        putBack t
        return .simple line assignments.reverse words.reverse redirects.reverse

end

/-- Whether the end of the text has been seen. -/
def isFinished (s : Source) : Bool :=
  match s.back with
  | some .finish => true
  | _ => false

end Source

namespace Script

/-- What stands on the next line of a source, and the source after it. -/
def next (s : Source) : Except SyntaxFault (Script × Source) :=
  Source.takeList (20 * s.rest.length + 20) .line true .nothing s

end Script

end CommandRelay.Program
