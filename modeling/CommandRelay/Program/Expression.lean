/-! # Expressions

The sums of scripts are expressions over whole numbers of 64 bits, with the operators of most
programming languages and assignments to names. They are read into a tree and then given a value:
what a condition leaves out has no effect. -/

namespace CommandRelay.Program

/-- An operator between two numbers. -/
inductive Operator where
  | times | quotient | remainder | plus | minus | shiftLeft | shiftRight
  | less | lessEqual | greater | greaterEqual | equal | unequal
  | bitAnd | bitXor | bitOr
  deriving DecidableEq, Repr

/-- An operator before a number. -/
inductive Sign where
  | negative
  | no
  | complement
  deriving DecidableEq, Repr

/-- An expression. An assignment may go through an operator. -/
inductive Expression where
  | number (n : Int)
  | name (s : String)
  | signed (sign : Sign) (e : Expression)
  | joined (op : Operator) (a b : Expression)
  | conjunction (a b : Expression)
  | disjunction (a b : Expression)
  | choice (condition yes no : Expression)
  | assign (name : String) (op : Option Operator) (e : Expression)
  deriving Repr

/-! ## Numbers of 64 bits -/

/-- The number of 64 bits that is a number up to multiples of their count. -/
def wrap (n : Int) : Int :=
  Int.bmod n 18446744073709551616

/-- The bits of a number. -/
def bits (n : Int) : Nat :=
  (Int.emod n 18446744073709551616).toNat

/-- The truth of a condition as a number. -/
def truth (b : Bool) : Int :=
  if b then 1 else 0

namespace Operator

/-- The operators that are written with two characters, then those with one. -/
def spellings : List (String × Operator) :=
  [("<<", .shiftLeft), (">>", .shiftRight), ("<=", .lessEqual), (">=", .greaterEqual),
    ("==", .equal), ("!=", .unequal), ("*", .times), ("/", .quotient), ("%", .remainder),
    ("+", .plus), ("-", .minus), ("<", .less), (">", .greater), ("&", .bitAnd), ("^", .bitXor),
    ("|", .bitOr)]

/-- How loosely an operator binds. -/
def looseness : Operator → Nat
  | .times | .quotient | .remainder => 0
  | .plus | .minus => 1
  | .shiftLeft | .shiftRight => 2
  | .less | .lessEqual | .greater | .greaterEqual => 3
  | .equal | .unequal => 4
  | .bitAnd => 5
  | .bitXor => 6
  | .bitOr => 7

/-- Whether an operator can stand in an assignment. -/
def isAssignable : Operator → Bool
  | .less | .lessEqual | .greater | .greaterEqual | .equal | .unequal => false
  | _ => true

/-- What an operator makes of two numbers. -/
def apply (op : Operator) (a b : Int) : Except String Int :=
  match op with
  | .times => .ok (wrap (a * b))
  | .quotient => if b = 0 then .error "division by zero" else .ok (wrap (a.tdiv b))
  | .remainder => if b = 0 then .error "division by zero" else .ok (a.tmod b)
  | .plus => .ok (wrap (a + b))
  | .minus => .ok (wrap (a - b))
  | .shiftLeft => .ok (wrap (a * ((Nat.pow 2 (bits b % 64) : Nat) : Int)))
  | .shiftRight => .ok (a.fdiv ((Nat.pow 2 (bits b % 64) : Nat) : Int))
  | .less => .ok (truth (a < b))
  | .lessEqual => .ok (truth (a ≤ b))
  | .greater => .ok (truth (b < a))
  | .greaterEqual => .ok (truth (b ≤ a))
  | .equal => .ok (truth (a = b))
  | .unequal => .ok (truth (a ≠ b))
  | .bitAnd => .ok (wrap (Nat.land (bits a) (bits b)))
  | .bitXor => .ok (wrap (Nat.xor (bits a) (bits b)))
  | .bitOr => .ok (wrap (Nat.lor (bits a) (bits b)))

end Operator

namespace Expression

/-! ## Reading -/

/-- What is left after blanks. -/
def skipBlanks (cs : List Char) : List Char :=
  cs.dropWhile fun c => c = ' ' || c = '\t' || c = '\n'

/-- The operator at the front, unless an equals sign makes it an assignment, and the rest. -/
def operator? (cs : List Char) : Option (Operator × List Char) :=
  let cs := skipBlanks cs
  match Operator.spellings.find? fun (s, _) => s.toList.isPrefixOf cs with
  | none => none
  | some (s, op) =>
    let rest := cs.drop s.length
    let isDouble := (s = "&" && rest.head? = some '&') || (s = "|" && rest.head? = some '|')
    if isDouble || (op.isAssignable && rest.head? = some '=') then none else some (op, rest)

/-- The operator of an assignment at the front, and the rest. -/
def assignment? (cs : List Char) : Option (Option Operator × List Char) :=
  match skipBlanks cs with
  | '=' :: rest => if rest.head? = some '=' then none else some (none, rest)
  | cs =>
    match Operator.spellings.find? fun (s, op) =>
        op.isAssignable && (s ++ "=").toList.isPrefixOf cs with
    | some (s, op) => some (some op, cs.drop (s.length + 1))
    | none => none

/-- The value of digits in a base; nothing if there are none. -/
def digits (base : Nat) (cs : List Char) : Option (Nat × List Char) :=
  let value (c : Char) : Option Nat :=
    let v :=
      if c.isDigit then c.toNat - '0'.toNat
      else if 'a' ≤ c && c ≤ 'f' then c.toNat - 'a'.toNat + 10
      else if 'A' ≤ c && c ≤ 'F' then c.toNat - 'A'.toNat + 10
      else 16
    if v < base then some v else none
  let ds := cs.takeWhile fun c => (value c).isSome
  if ds = [] then none
  else some (ds.foldl (fun n c => n * base + (value c).getD 0) 0, cs.drop ds.length)

/-- The greatest number. -/
def greatest : Int := 9223372036854775807

/-- A number without a sign at the front, and the rest: a zero at the front makes it octal, an `x`
after that hexadecimal. -/
def digitsOf (cs : List Char) : Option (Nat × List Char) :=
  match cs with
  | '0' :: x :: rest =>
    if x = 'x' || x = 'X' then
      match digits 16 rest with
      | some r => some r
      | none => some (0, x :: rest)
    else digits 8 cs
  | cs => if cs.head? = some '0' then digits 8 cs else digits 10 cs

/-- A number at the front as far as 64 bits hold it, and the rest. -/
def unsigned (cs : List Char) : Option (Int × List Char) :=
  (digitsOf cs).map fun (n, rest) => (min (n : Int) greatest, rest)

/-- Whether a character can begin a name. -/
def startsName (c : Char) : Bool :=
  c.isAlpha || c = '_'

mutual

/-- An operand, and the rest. -/
def operand : Nat → List Char → Except String (Expression × List Char)
  | 0, _ => .error "expecting primary"
  | n + 1, cs =>
    match skipBlanks cs with
    | '(' :: rest => do
      let (e, rest) ← assigned n rest
      match skipBlanks rest with
      | ')' :: rest => return (e, rest)
      | _ => throw "expecting ')'"
    | '+' :: rest => operand n rest
    | '-' :: rest => do
      let (e, rest) ← operand n rest
      return (.signed .negative e, rest)
    | '!' :: rest =>
      if rest.head? = some '=' then throw "expecting primary"
      else do
        let (e, rest) ← operand n rest
        return (.signed .no e, rest)
    | '~' :: rest => do
      let (e, rest) ← operand n rest
      return (.signed .complement e, rest)
    | c :: rest =>
      if startsName c then
        let name := (c :: rest).takeWhile fun d => d.isAlphanum || d = '_'
        .ok (.name (String.ofList name), (c :: rest).drop name.length)
      else
        match unsigned (c :: rest) with
        | some (v, rest) => .ok (.number v, rest)
        | none => throw "expecting primary"
    | [] => throw "expecting primary"

/-- What operators that bind closer than a limit join to an operand. -/
def joinedTo : Nat → Nat → Expression → List Char → Except String (Expression × List Char)
  | 0, _, a, cs => .ok (a, cs)
  | n + 1, limit, a, cs =>
    match operator? cs with
    | none => .ok (a, cs)
    | some (op, rest) =>
      if limit ≤ op.looseness then .ok (a, cs)
      else do
        let (b, rest) ← operand n rest
        let (b, rest) ← joinedTo n op.looseness b rest
        joinedTo n limit (.joined op a b) rest

/-- Conditions that must all hold. -/
def conjunctions : Nat → List Char → Except String (Expression × List Char)
  | 0, _ => .error "expecting primary"
  | n + 1, cs => do
    let (a, rest) ← operand n cs
    let (a, rest) ← joinedTo n 8 a rest
    match skipBlanks rest with
    | '&' :: '&' :: rest => do
      let (b, rest) ← conjunctions n rest
      return (.conjunction a b, rest)
    | _ => return (a, rest)

/-- Conditions of which one must hold. -/
def disjunctions : Nat → List Char → Except String (Expression × List Char)
  | 0, _ => .error "expecting primary"
  | n + 1, cs => do
    let (a, rest) ← conjunctions n cs
    match skipBlanks rest with
    | '|' :: '|' :: rest => do
      let (b, rest) ← disjunctions n rest
      return (.disjunction a b, rest)
    | _ => return (a, rest)

/-- A choice between two expressions. -/
def chosen : Nat → List Char → Except String (Expression × List Char)
  | 0, _ => .error "expecting primary"
  | n + 1, cs => do
    let (a, rest) ← disjunctions n cs
    match skipBlanks rest with
    | '?' :: rest => do
      let (b, rest) ← assigned n rest
      match skipBlanks rest with
      | ':' :: rest => do
        let (c, rest) ← chosen n rest
        return (.choice a b c, rest)
      | _ => throw "expecting ':'"
    | _ => return (a, rest)

/-- An assignment, or what can stand in one. -/
def assigned : Nat → List Char → Except String (Expression × List Char)
  | 0, _ => .error "expecting primary"
  | n + 1, cs =>
    let start := skipBlanks cs
    let name := start.takeWhile fun d => d.isAlphanum || d = '_'
    let isName := (start.head?.map startsName).getD false
    match isName, assignment? (start.drop name.length) with
    | true, some (op, rest) => do
      let (e, rest) ← assigned n rest
      return (.assign (String.ofList name) op e, rest)
    | _, _ => chosen n cs

end

/-- Reads an expression. -/
def read (text : String) : Except String Expression := do
  let (e, rest) ← assigned (8 * text.length + 8) text.toList
  if skipBlanks rest = [] then return e else throw "expecting EOF"

/-! ## Values -/

/-- Why an expression has no value. -/
inductive Fault where
  | malformed (reason : String)
  | illegal (text : String)
  deriving DecidableEq, Repr

/-- The wording of a fault in an expression. -/
def Fault.message (expression : String) : Fault → String
  | .malformed reason => s!"arithmetic expression: {reason}: \"{expression}\""
  | .illegal text => s!"Illegal number: {text}"

/-- The number that the value of a name stands for; none stands for zero. -/
def numberOf (text : String) : Except Fault Int :=
  let isBlank (c : Char) : Bool := [' ', '\t', '\n', '\r', '\x0b', '\x0c'].contains c
  let cs := text.toList.dropWhile isBlank
  if text = "" then .ok 0
  else
    let (isNegative, cs) := match cs with
      | '-' :: cs => (true, cs)
      | '+' :: cs => (false, cs)
      | cs => (false, cs)
    match unsigned cs with
    | some (n, rest) =>
      if rest.all isBlank then .ok (if isNegative then -n else n) else .error (.illegal text)
    | none => .error (.illegal text)

/-- The value of an expression; `names` holds the assignments made so far, the last one first, and
`value` says what names were before. -/
def evaluate (value : String → String) (e : Expression) (names : List (String × Int)) :
    Except Fault (Int × List (String × Int)) :=
  let lookUp (s : String) (names : List (String × Int)) : Except Fault Int :=
    match names.find? (·.1 = s) with
    | some (_, n) => .ok n
    | none => numberOf (value s)
  match e with
  | .number n => .ok (n, names)
  | .name s => (lookUp s names).map fun n => (n, names)
  | .signed sign e => do
    let (n, names) ← evaluate value e names
    let n := match sign with
      | .negative => wrap (-n)
      | .no => truth (n = 0)
      | .complement => -n - 1
    return (n, names)
  | .joined op a b => do
    let (a, names) ← evaluate value a names
    let (b, names) ← evaluate value b names
    let n ← (Operator.apply op a b).mapError .malformed
    return (n, names)
  | .conjunction a b => do
    let (a, names) ← evaluate value a names
    if a = 0 then return (0, names)
    let (b, names) ← evaluate value b names
    return (truth (b ≠ 0), names)
  | .disjunction a b => do
    let (a, names) ← evaluate value a names
    if a ≠ 0 then return (1, names)
    let (b, names) ← evaluate value b names
    return (truth (b ≠ 0), names)
  | .choice condition yes no => do
    let (c, names) ← evaluate value condition names
    if c ≠ 0 then evaluate value yes names else evaluate value no names
  | .assign s op e => do
    let (n, names) ← evaluate value e names
    let n ← match op with
      | none => pure n
      | some op => do
        let old ← lookUp s names
        (Operator.apply op old n).mapError .malformed
    return (n, (s, n) :: names)

/-- The value of the expression in a text, with the assignments that it makes, the last one
first. -/
def valueOf (value : String → String) (text : String) :
    Except Fault (Int × List (String × Int)) := do
  let e ← (read text).mapError .malformed
  evaluate value e []

end Expression

end CommandRelay.Program
