import CommandRelay.Document.Toml.Table
import CommandRelay.Text.Utf8

/-! # Reading TOML

A document is read a statement at a time: a header opens a table or adds one to a list of
tables, and a line with a key adds a value to the table that is open. Lines may end in a carriage
return and a line feed. Faults are placed by line and column, or at the end of the document. -/

namespace CommandRelay.Toml

/-- A failed reading: a problem with its line and column, or at the end, an integer with too many
digits, values that stand too deep in each other, or bytes that are no text. -/
inductive ReadError where
  | malformed (problem : Problem) (place : Option (Nat × Nat))
  | integerTooLong (digits : Nat)
  | tooDeep
  | undecodable (error : DecodeError)
  deriving DecidableEq, Repr

/-- The wording of a failed reading. -/
def ReadError.message : ReadError → String
  | .malformed problem (some (line, column)) =>
    s!"{problem.message} (at line {line}, column {column})"
  | .malformed problem none => s!"{problem.message} (at end of document)"
  | .integerTooLong digits => Digits.tooLongMessage digits
  | .tooDeep => "maximum recursion depth exceeded"
  | .undecodable e => e.message

/-- The error of a fault in a document. -/
def Fault.inDocument (cs : List Char) : Fault → ReadError
  | .at problem [] => .malformed problem none
  | .at problem rest =>
    let before := cs.take (cs.length - rest.length)
    let column := (before.reverse.takeWhile (· ≠ '\n')).length + 1
    .malformed problem (some (before.count '\n' + 1, column))
  | .integerTooLong digits => .integerTooLong digits
  | .tooDeep => .tooDeep

/-! ## Keys -/

/-- Whether a character can stand in a name without quotes. -/
def isBare (c : Char) : Bool :=
  c.isAlphanum || c = '-' || c = '_'

/-- One name of a key. -/
def keyName (cs : List Char) : Parsed String :=
  match cs with
  | '"' :: rest => basicString false rest
  | '\'' :: rest => literal ['\''] isControl rest
  | cs =>
    match cs.takeWhile isBare with
    | [] => .error (.at .keyStart cs)
    | name => .ok (String.ofList name, cs.dropWhile isBare)

/-- The names of a key and what follows the blank space behind it; `n` bounds their number. -/
def key : Nat → List Char → Except Fault (Key × List Char)
  | 0, cs => .error (.at .keyStart cs)
  | n + 1, cs => do
    let (name, rest) ← keyName cs
    match skipBlank rest with
    | '.' :: rest =>
      let (more, rest) ← key n (skipBlank rest)
      .ok (name :: more, rest)
    | rest => .ok ([name], rest)

/-- A key with the equals sign behind it. -/
def keyOfPair (cs : List Char) : Except Fault (Key × List Char) := do
  let (k, rest) ← key (cs.length + 1) cs
  match rest with
  | '=' :: rest => .ok (k, skipBlank rest)
  | rest => .error (.at .equalsSign rest)

/-! ## Values -/

/-- The end of a key: all but its last name, and that. -/
def splitKey (k : Key) : Key × Text :=
  (k.dropLast, k.getLastD [])

/-- Whether a value is a list or a table, which is closed once it is written. -/
def isNest : Value → Bool
  | .list _ | .object _ => true
  | _ => false

/-- Adds a pair to a table between braces. -/
def addPair (fields : Fields) (marks : Marks) (k : Key) (v : Value) (rest : List Char) :
    Except Fault Fields :=
  if marks.has k .frozen then .error (.at (.immutable k) rest)
  else
    let (parent, name) := splitKey k
    match atTable false some parent fields with
    | none => .error (.at .overwritten rest)
    | some _ =>
      match atTable false (addValue name v) parent fields with
      | none => .error (.at (.duplicateKey name) rest)
      | some fields => .ok fields

/-- The room for lists and tables that stand in each other. -/
def nestingRoom : Nat := 989

/-- The room that a list takes. -/
def listRoom : Nat := 2

/-- The room that a table takes. -/
def tableRoom : Nat := 3

mutual

/-- The value at the front; `n` bounds the steps, and `room` how deep lists and tables stand in
each other. -/
def value : Nat → Nat → List Char → Except Fault (Value × List Char)
  | 0, _, cs => .error (.at .invalidValue cs)
  | n + 1, room, cs =>
    match cs with
    | '[' :: rest => do
      if room < listRoom then .error .tooDeep
      match ← skipSpace rest.length rest with
      | ']' :: rest => .ok (.list [], rest)
      | rest => (items n (room - listRoom) rest).map fun (vs, rest) => (.list vs, rest)
    | '{' :: rest =>
      if room < tableRoom then .error .tooDeep
      else
        match skipBlank rest with
        | '}' :: rest => .ok (.object [], rest)
        | rest => (pairs n (room - tableRoom) [] {} rest).map fun (fs, rest) => (.object fs, rest)
    | cs => scalar cs

/-- The items of a list up to its closing bracket; one stands at the front. -/
def items : Nat → Nat → List Char → Except Fault (List Value × List Char)
  | 0, _, cs => .error (.at .invalidValue cs)
  | n + 1, room, cs => do
    let (v, rest) ← value n room cs
    match ← skipSpace rest.length rest with
    | ']' :: rest => .ok ([v], rest)
    | ',' :: rest =>
      match ← skipSpace rest.length rest with
      | ']' :: rest => .ok ([v], rest)
      | rest => (items n room rest).map fun (vs, rest) => (v :: vs, rest)
    | rest => .error (.at .unclosedArray rest)

/-- The pairs of a table up to its closing brace, added to those read before. -/
def pairs : Nat → Nat → Fields → Marks → List Char → Except Fault (Fields × List Char)
  | 0, _, _, _, cs => .error (.at .invalidValue cs)
  | n + 1, room, fields, marks, cs => do
    let (k, rest) ← keyOfPair cs
    let (v, rest) ← value n room rest
    let fields ← addPair fields marks k v rest
    match skipBlank rest with
    | '}' :: rest => .ok (fields, rest)
    | ',' :: rest =>
      let marks := if isNest v then marks.set ⟨k, .frozen, true⟩ else marks
      pairs n room fields marks (skipBlank rest)
    | rest => .error (.at .unclosedTable rest)

end

/-! ## Statements -/

/-- A document that is being read: its tables so far, the marks, and the key of the open table. -/
structure Draft where
  fields : Fields := []
  marks : Marks := {}
  header : Key := []

/-- Opens the table that a header names, after its opening bracket. -/
def openTable (d : Draft) (cs : List Char) : Except Fault (Draft × List Char) := do
  let (k, rest) ← key (cs.length + 1) (skipBlank cs)
  if d.marks.has k .declared || d.marks.has k .frozen then .error (.at (.declaredTwice k) rest)
  let marks := d.marks.set ⟨k, .declared, false⟩
  match atTable true some k d.fields with
  | none => .error (.at .overwritten rest)
  | some fields =>
    match rest with
    | ']' :: rest => .ok ({ fields, marks, header := k }, rest)
    | rest => .error (.at .tableEnd rest)

/-- Adds a table to the list that a header names, after its opening brackets. -/
def openListed (d : Draft) (cs : List Char) : Except Fault (Draft × List Char) := do
  let (k, rest) ← key (cs.length + 1) (skipBlank cs)
  if d.marks.has k .frozen then .error (.at (.immutable k) rest)
  let marks := (d.marks.clear k).set ⟨k, .declared, false⟩
  let (parent, name) := splitKey k
  match atTable true (appendTable name) parent d.fields with
  | none => .error (.at .overwritten rest)
  | some fields =>
    match rest with
    | ']' :: ']' :: rest => .ok ({ fields, marks, header := k }, rest)
    | rest => .error (.at .tableListEnd rest)

/-- Marks the tables that a key of a pair leads through, which no header may open later. -/
def markWay (header : Key) (rest : List Char) : Marks → List Key → Except Fault Marks
  | marks, [] => .ok marks
  | marks, k :: ks =>
    if marks.has (header ++ k) .declared then .error (.at (.redefined (header ++ k)) rest)
    else markWay header rest (marks.setLater (header ++ k)) ks

/-- Adds the pair at the front to the open table. -/
def addStatement (d : Draft) (cs : List Char) : Except Fault (Draft × List Char) := do
  let (k, rest) ← keyOfPair cs
  let (v, rest) ← value (2 * rest.length + 2) nestingRoom rest
  let (parent, name) := splitKey k
  let way := (List.range parent.length).map fun i => k.take (i + 1)
  let marks ← markWay d.header rest d.marks way
  if marks.has (d.header ++ parent) .frozen then
    .error (.at (.immutable (d.header ++ parent)) rest)
  match atTable true (addValue name v) (d.header ++ parent) d.fields with
  | none => .error (.at .overwritten rest)
  | some fields =>
    let marks := if isNest v then marks.set ⟨d.header ++ k, .frozen, true⟩ else marks
    .ok ({ d with fields, marks }, rest)

/-- Whether a key can begin with a character. -/
def isKeyStart (c : Char) : Bool :=
  isBare c || c = '"' || c = '\''

/-- The statement at the front of a line that is not empty, if there is one. -/
def statement (d : Draft) (cs : List Char) : Parsed Draft :=
  match cs with
  | '[' :: '[' :: rest => openListed { d with marks := d.marks.settle } rest
  | '[' :: rest => openTable { d with marks := d.marks.settle } rest
  | '#' :: _ => .ok (d, cs)
  | c :: _ => if isKeyStart c then addStatement d cs else .error (.at .invalidStatement cs)
  | [] => .ok (d, [])

/-- Reads statements to the end of the document; `n` bounds the lines. -/
def statements : Nat → Draft → List Char → Except Fault Draft
  | 0, d, _ => .ok d
  | n + 1, d, cs =>
    match skipBlank cs with
    | [] => .ok d
    | '\n' :: rest => statements n d rest
    | cs => do
      let (d, rest) ← statement d cs
      match ← skipComment (skipBlank rest) with
      | [] => .ok d
      | '\n' :: rest => statements n d rest
      | rest => .error (.at .statementEnd rest)

/-- The document with each carriage return and line feed as one line feed. -/
def joinLineEnds : List Char → List Char
  | '\r' :: '\n' :: cs => '\n' :: joinLineEnds cs
  | c :: cs => c :: joinLineEnds cs
  | [] => []

/-- Reads a document given as characters. -/
def readChars (cs : List Char) : Except ReadError Value :=
  let cs := joinLineEnds cs
  match statements (cs.length + 1) {} cs with
  | .ok d => .ok (.object d.fields)
  | .error f => .error (f.inDocument cs)

/-- Reads a document given as bytes. -/
def readBytes (bytes : Bytes) : Except ReadError Value :=
  match Utf8.decode bytes with
  | .ok t => readChars (t.filterMap Point.char?)
  | .error e => .error (.undecodable e)

end CommandRelay.Toml
