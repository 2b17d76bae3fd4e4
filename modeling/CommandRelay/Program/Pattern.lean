/-! # Patterns

A pattern matches texts: an asterisk matches anything, a question mark one character, and a set in
brackets one of its characters. A character of a pattern that is quoted stands for itself, and so
does one after a backslash. -/

namespace CommandRelay.Program

/-- A pattern: characters, and whether they are quoted. -/
abbrev Pattern := List (Char × Bool)

namespace Pattern

/-- The pattern that matches one text alone. -/
def literal (s : String) : Pattern :=
  s.toList.map fun c => (c, true)

/-- The text of a pattern, with nothing taken as special. -/
def text (p : Pattern) : String :=
  String.ofList (p.map (·.1))

/-- The classes of characters that sets can name. -/
def inClass (name : String) (c : Char) : Bool :=
  match name with
  | "alpha" => c.isAlpha
  | "digit" => c.isDigit
  | "alnum" => c.isAlphanum
  | "upper" => c.isUpper
  | "lower" => c.isLower
  | "space" => [' ', '\t', '\n', '\r', '\x0b', '\x0c'].contains c
  | "blank" => c = ' ' || c = '\t'
  | "punct" => '!' ≤ c && c ≤ '~' && !c.isAlphanum
  | "print" => ' ' ≤ c && c ≤ '~'
  | "graph" => '!' ≤ c && c ≤ '~'
  | "cntrl" => c < ' ' || c = '\x7f'
  | "xdigit" => c.isDigit || ('a' ≤ c && c ≤ 'f') || ('A' ≤ c && c ≤ 'F')
  | _ => false

/-- A class that is named at the front of what follows a bracket in a set, and the rest. -/
def takeClass (p : Pattern) : Option (String × Pattern) :=
  match p with
  | (':', false) :: rest =>
    let name := rest.takeWhile fun c => c.1.isAlpha
    match rest.drop name.length with
    | (':', false) :: (']', false) :: rest => some (text name, rest)
    | _ => none
  | _ => none

/-- Whether a character is in a set, and what follows the set; nothing if the set is not closed.
`isFirst` is set where a closing bracket stands for itself. -/
def takeSet (c : Char) : Nat → Bool → Bool → Pattern → Option (Bool × Pattern)
  | 0, _, _, _ => none
  | _, _, _, [] => none
  | n + 1, isFirst, found, (d, quoted) :: rest =>
    if d = ']' && !quoted && !isFirst then some (found, rest)
    else
      match (if d = '[' && !quoted then takeClass rest else none) with
      | some (name, rest) => takeSet c n false (found || inClass name c) rest
      | none =>
        match rest with
        | ('-', false) :: (']', false) :: _ => takeSet c n false (found || c = d) rest
        | ('-', false) :: (e, _) :: rest => takeSet c n false (found || (d ≤ c && c ≤ e)) rest
        | rest => takeSet c n false (found || c = d) rest

/-- Whether a character is in the set that begins a pattern, and what follows the set. -/
def matchSet (c : Char) (p : Pattern) : Option (Bool × Pattern) :=
  match p with
  | ('!', false) :: rest =>
    (takeSet c (rest.length + 1) true false rest).map fun (found, rest) => (!found, rest)
  | p => takeSet c (p.length + 1) true false p

/-- Whether a pattern matches a text; `n` bounds the steps. -/
def matchWithin : Nat → Pattern → List Char → Bool
  | 0, _, _ => false
  | _, [], cs => cs = []
  | n + 1, ('*', false) :: p, cs =>
    matchWithin n p cs ||
      match cs with
      | [] => false
      | _ :: cs => matchWithin n (('*', false) :: p) cs
  | _, _, [] => false
  | n + 1, ('?', false) :: p, _ :: cs => matchWithin n p cs
  | n + 1, ('\\', false) :: (d, _) :: p, c :: cs => d = c && matchWithin n p cs
  | n + 1, ('[', false) :: p, c :: cs =>
    match matchSet c p with
    | some (found, p) => found && matchWithin n p cs
    | none => c = '[' && matchWithin n p cs
  | n + 1, (d, _) :: p, c :: cs => d = c && matchWithin n p cs

/-- Whether a pattern matches a text. -/
def isMatch (p : Pattern) (cs : List Char) : Bool :=
  matchWithin (p.length + cs.length + 1) p cs

/-- Whether something in a pattern is special. -/
def isSpecial (p : Pattern) : Bool :=
  p.any fun (c, quoted) => !quoted && (c = '*' || c = '?' || c = '[')

/-- A text without what a pattern matches at one of its ends. -/
def trim (p : Pattern) (atEnd longest : Bool) (cs : List Char) : List Char :=
  let lengths := List.range (cs.length + 1)
  let lengths := if longest then lengths.reverse else lengths
  let drop (k : Nat) : List Char × List Char :=
    if atEnd then (cs.drop (cs.length - k), cs.take (cs.length - k)) else (cs.take k, cs.drop k)
  match lengths.find? fun k => p.isMatch (drop k).1 with
  | some k => (drop k).2
  | none => cs

/-- The parts of a pattern between slashes. -/
def components : Pattern → List Pattern
  | [] => [[]]
  | (c, quoted) :: p =>
    match components p with
    | part :: parts => if c = '/' then [] :: part :: parts else ((c, quoted) :: part) :: parts
    | [] => [[(c, quoted)]]

end Pattern

end CommandRelay.Program
