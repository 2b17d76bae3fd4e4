import CommandRelay.Decimal.Digits
import CommandRelay.Document.Value
import CommandRelay.Text.Quoted

/-! # TOML scalars

Strings, numbers and moments of TOML. A reader takes what is left of a document and gives what it
has read with the new rest; a fault carries the rest where it lies. Reading prefers a moment to a
number and takes the longest part of the document that is one. -/

namespace CommandRelay.Toml

/-- What is wrong at a position of a document. -/
inductive Problem where
  | statementEnd
  | invalidStatement
  | expected (text : String)
  | invalidCharacter (c : Char)
  | declaredTwice (key : List Text)
  | immutable (key : List Text)
  | redefined (key : List Text)
  | overwritten
  | duplicateKey (name : Text)
  | tableEnd
  | tableListEnd
  | equalsSign
  | keyStart
  | unclosedArray
  | unclosedTable
  | unescapedBackslash
  | invalidHex
  | notScalar
  | unterminated
  | illegalCharacter (c : Char)
  | invalidValue
  | invalidMoment
  deriving DecidableEq, Repr

/-- The wording of a problem. -/
def Problem.message : Problem → String
  | .statementEnd => "Expected newline or end of document after a statement"
  | .invalidStatement => "Invalid statement"
  | .expected text => s!"Expected {Quoted.text text}"
  | .invalidCharacter c => s!"Found invalid character {Quoted.text [c]}"
  | .declaredTwice key => s!"Cannot declare {Quoted.tuple key} twice"
  | .immutable key => s!"Cannot mutate immutable namespace {Quoted.tuple key}"
  | .redefined key => s!"Cannot redefine namespace {Quoted.tuple key}"
  | .overwritten => "Cannot overwrite a value"
  | .duplicateKey name => s!"Duplicate inline table key {Quoted.text name}"
  | .tableEnd => "Expected ']' at the end of a table declaration"
  | .tableListEnd => "Expected ']]' at the end of an array declaration"
  | .equalsSign => "Expected '=' after a key in a key/value pair"
  | .keyStart => "Invalid initial character for a key part"
  | .unclosedArray => "Unclosed array"
  | .unclosedTable => "Unclosed inline table"
  | .unescapedBackslash => "Unescaped '\\' in a string"
  | .invalidHex => "Invalid hex value"
  | .notScalar => "Escaped character is not a Unicode scalar value"
  | .unterminated => "Unterminated string"
  | .illegalCharacter c => s!"Illegal character {Quoted.text [c]}"
  | .invalidValue => "Invalid value"
  | .invalidMoment => "Invalid date or datetime"

/-- A problem with what is left of the document where it lies, an integer with too many digits, or
values that stand too deep in each other. -/
inductive Fault where
  | at (problem : Problem) (rest : List Char)
  | integerTooLong (digits : Nat)
  | tooDeep
  deriving DecidableEq, Repr

/-- What a reader gives: what it has read and the rest, or a fault. -/
abbrev Parsed (α : Type) := Except Fault (α × List Char)

/-! ## Blanks and comments -/

/-- Blank space within a line. -/
def isBlank (c : Char) : Bool :=
  c = ' ' || c = '\t'

/-- Blank space between lines too. -/
def isSpace (c : Char) : Bool :=
  isBlank c || c = '\n'

/-- A control character that nothing but a tab may be. -/
def isControl (c : Char) : Bool :=
  (c.toNat < 0x20 || c.toNat = 0x7F) && c ≠ '\t'

/-- A control character that nothing but a tab and a line feed may be. -/
def isControlInLines (c : Char) : Bool :=
  isControl c && c ≠ '\n'

/-- What follows the blank space at the front. -/
def skipBlank (cs : List Char) : List Char :=
  cs.dropWhile isBlank

/-- What follows a part of the document that holds no refused character. -/
def skipChecked (refused : Char → Bool) (part rest : List Char) : Except Fault (List Char) :=
  match part.find? refused with
  | none => .ok rest
  | some c => .error (.at (.invalidCharacter c) (part.dropWhile (!refused ·) ++ rest))

/-- What follows the comment at the front, if one stands there. -/
def skipComment : List Char → Except Fault (List Char)
  | '#' :: cs => skipChecked isControl (cs.takeWhile (· ≠ '\n')) (cs.dropWhile (· ≠ '\n'))
  | cs => .ok cs

/-- What follows the space and comments at the front; `n` bounds the comments. -/
def skipSpace : Nat → List Char → Except Fault (List Char)
  | 0, cs => .ok cs
  | n + 1, cs =>
    match cs.dropWhile isSpace with
    | '#' :: rest => (skipComment ('#' :: rest)).bind (skipSpace n)
    | rest => .ok rest

/-! ## Strings -/

/-- The text up to a delimiter of one quote or three, and what follows the delimiter. -/
def splitAtDelimiter (delimiter : List Char) : List Char → Option (List Char × List Char)
  | [] => none
  | c :: cs =>
    if (c :: cs).take delimiter.length = delimiter then
      some ([], (c :: cs).drop delimiter.length)
    else (splitAtDelimiter delimiter cs).map fun (part, rest) => (c :: part, rest)

/-- A literal string after its opening delimiter. -/
def literal (delimiter : List Char) (refused : Char → Bool) (cs : List Char) : Parsed String :=
  match splitAtDelimiter delimiter cs with
  | none => .error (.at (.expected (String.ofList delimiter)) [])
  | some (part, rest) =>
    (skipChecked refused part (delimiter ++ rest)).map fun _ => (String.ofList part, rest)

/-- The character that a one-letter escape writes. -/
def shortEscape? : Char → Option Char
  | 'b' => some '\x08'
  | 't' => some '\t'
  | 'n' => some '\n'
  | 'f' => some '\x0C'
  | 'r' => some '\r'
  | '"' => some '"'
  | '\\' => some '\\'
  | _ => none

/-- Whether a character is a hexadecimal digit. -/
def isHex (c : Char) : Bool :=
  c.isDigit || ('a' ≤ c && c ≤ 'f') || ('A' ≤ c && c ≤ 'F')

/-- The character that so many hexadecimal digits write. -/
def hexEscape (count : Nat) (cs : List Char) : Parsed (List Char) :=
  let ds := cs.take count
  let rest := cs.drop count
  if ds.length ≠ count ∨ ds.any (!isHex ·) then .error (.at .invalidHex cs)
  else
    let n := Digits.valueIn 16 ds
    if n.isValidChar then .ok ([Char.ofNat n], rest) else .error (.at .notScalar rest)

/-- What an escape writes, after its backslash. In several lines a backslash at the end of a line
takes away the space up to the next text. -/
def escape (lines : Bool) : List Char → Parsed (List Char)
  | [] => .error (.at .unescapedBackslash [])
  | c :: cs =>
    if lines && c = '\n' then .ok ([], cs.dropWhile isSpace)
    else if lines && isBlank c then
      match skipBlank cs with
      | [] => .ok ([], [])
      | '\n' :: rest => .ok ([], rest.dropWhile isSpace)
      | rest => .error (.at .unescapedBackslash rest)
    else if c = 'u' then hexEscape 4 cs
    else if c = 'U' then hexEscape 8 cs
    else
      match shortEscape? c with
      | some e => .ok ([e], cs)
      | none => .error (.at .unescapedBackslash cs)

/-- The characters of a basic string after its opening delimiter; `n` bounds their number. -/
def basic (lines : Bool) : Nat → List Char → Except Fault (List Char × List Char)
  | 0, cs => .error (.at .unterminated cs)
  | _, [] => .error (.at .unterminated [])
  | n + 1, c :: cs =>
    if c = '"' ∧ !lines then .ok ([], cs)
    else if c = '"' ∧ cs.take 2 = ['"', '"'] then .ok ([], cs.drop 2)
    else if c = '\\' then do
      let (written, rest) ← escape lines cs
      let (more, rest) ← basic lines n rest
      .ok (written ++ more, rest)
    else if c ≠ '"' ∧ (if lines then isControlInLines c else isControl c) then
      .error (.at (.illegalCharacter c) (c :: cs))
    else (basic lines n cs).map fun (more, rest) => (c :: more, rest)

/-- A basic string after its opening delimiter. -/
def basicString (lines : Bool) (cs : List Char) : Parsed String :=
  (basic lines (cs.length + 1) cs).map fun (s, rest) => (String.ofList s, rest)

/-- Up to two more quotes that belong to a string of several lines. -/
def extraQuotes (quote : Char) (s : String) (cs : List Char) : String × List Char :=
  let extra := (cs.take 2).takeWhile (· = quote)
  (s ++ String.ofList extra, cs.drop extra.length)

/-- The text of several lines without a line feed at its start. -/
def afterLineFeed : List Char → List Char
  | '\n' :: cs => cs
  | cs => cs

/-- The string at the front, if one stands there. -/
def string? (cs : List Char) : Option (Parsed String) :=
  match cs with
  | '"' :: '"' :: '"' :: rest =>
    some ((basicString true (afterLineFeed rest)).map fun (s, rest) => extraQuotes '"' s rest)
  | '"' :: rest => some (basicString false rest)
  | '\'' :: '\'' :: '\'' :: rest =>
    some ((literal ['\'', '\'', '\''] isControlInLines (afterLineFeed rest)).map
      fun (s, rest) => extraQuotes '\'' s rest)
  | '\'' :: rest => some (literal ['\''] isControl rest)
  | _ => none

/-! ## Moments -/

/-- The number of two digits at the front within bounds. -/
def twoDigits? (least greatest : Nat) : List Char → Option (Nat × List Char)
  | a :: b :: rest =>
    let n := Digits.value [a, b]
    if a.isDigit && b.isDigit && least ≤ n && n ≤ greatest then some (n, rest) else none
  | _ => none

/-- What follows a character at the front. -/
def after? (c : Char) : List Char → Option (List Char)
  | d :: rest => if d = c then some rest else none
  | [] => none

/-- The time of day at the front; digits beyond the microseconds are dropped. -/
def time? (cs : List Char) : Option (TimeOfDay × List Char) := do
  let (hour, cs) ← twoDigits? 0 23 cs
  let (minute, cs) ← twoDigits? 0 59 (← after? ':' cs)
  let (second, cs) ← twoDigits? 0 59 (← after? ':' cs)
  match cs with
  | '.' :: rest =>
    let ds := rest.takeWhile Char.isDigit
    if ds = [] then some (⟨hour, minute, second, 0⟩, cs)
    else
      let micro := Digits.value ((ds ++ List.replicate 6 '0').take 6)
      some (⟨hour, minute, second, micro⟩, rest.dropWhile Char.isDigit)
  | cs => some (⟨hour, minute, second, 0⟩, cs)

/-- The offset at the front in minutes. -/
def offset? (cs : List Char) : Option (Int × List Char) :=
  match cs with
  | 'Z' :: rest | 'z' :: rest => some (0, rest)
  | sign :: rest =>
    if sign = '+' ∨ sign = '-' then do
      let (hour, rest) ← twoDigits? 0 23 rest
      let (minute, rest) ← twoDigits? 0 59 (← after? ':' rest)
      let n : Int := (hour * 60 + minute : Nat)
      some (if sign = '-' then -n else n, rest)
    else none
  | [] => none

/-- The date at the front, which the calendar need not have. -/
def date? (cs : List Char) : Option (Date × List Char) := do
  let year := cs.take 4
  if year.length ≠ 4 ∨ year.any (!·.isDigit) then failure
  let (month, cs) ← twoDigits? 1 12 (← after? '-' (cs.drop 4))
  let (day, cs) ← twoDigits? 1 31 (← after? '-' cs)
  some (⟨Digits.value year, month, day⟩, cs)

/-- The time that a date is followed by, with its offset. -/
def timeOfDate? (cs : List Char) : Option ((TimeOfDay × Option Int) × List Char) :=
  match cs with
  | c :: rest =>
    if c = 'T' ∨ c = 't' ∨ c = ' ' then
      (time? rest).map fun (t, rest) =>
        match offset? rest with
        | some (o, rest) => ((t, some o), rest)
        | none => ((t, none), rest)
    else none
  | [] => none

/-- The moment at the front, if one stands there. -/
def moment? (cs : List Char) : Option (Parsed Moment) :=
  match date? cs with
  | some (d, rest) =>
    if !d.isValid then some (.error (.at .invalidMoment cs))
    else
      match timeOfDate? rest with
      | some ((t, offset), rest) => some (.ok (.dateTime d t offset, rest))
      | none => some (.ok (.date d, rest))
  | none => (time? cs).map fun (t, rest) => .ok (.time t, rest)

/-! ## Numbers -/

/-- Digits with single underscores between them, after the first digit. -/
def moreDigits (isDigit : Char → Bool) : List Char → List Char × List Char
  | '_' :: c :: cs =>
    if isDigit c then
      let (ds, rest) := moreDigits isDigit cs
      (c :: ds, rest)
    else ([], '_' :: c :: cs)
  | c :: cs =>
    if isDigit c then
      let (ds, rest) := moreDigits isDigit cs
      (c :: ds, rest)
    else ([], c :: cs)
  | [] => ([], [])

/-- The run of digits at the front; a digit must stand first. -/
def digitRun? (isDigit : Char → Bool) : List Char → Option (List Char × List Char)
  | c :: cs =>
    if isDigit c then
      let (ds, rest) := moreDigits isDigit cs
      some (c :: ds, rest)
    else none
  | [] => none

/-- A whole number in base sixteen, eight or two at the front. -/
def prefixed? : List Char → Option (Value × List Char)
  | '0' :: 'x' :: cs => (digitRun? isHex cs).map (based 16)
  | '0' :: 'o' :: cs => (digitRun? (fun c => '0' ≤ c && c ≤ '7') cs).map (based 8)
  | '0' :: 'b' :: cs => (digitRun? (fun c => c = '0' || c = '1') cs).map (based 2)
  | _ => none
where
  /-- The value of digits in a base. -/
  based (base : Nat) (found : List Char × List Char) : Value × List Char :=
    (.int (Digits.valueIn base found.1), found.2)

/-- The exponent at the front, if one stands there. -/
def exponent? : List Char → Option (Int × List Char)
  | e :: cs =>
    if e = 'e' ∨ e = 'E' then
      let (negative, cs) := match cs with
        | '-' :: cs => (true, cs)
        | '+' :: cs => (false, cs)
        | cs => (false, cs)
      (digitRun? Char.isDigit cs).map fun (ds, rest) =>
        let n : Int := Digits.value ds
        (if negative then -n else n, rest)
    else none
  | [] => none

/-- The fraction at the front, none of its digits if there is no fraction. -/
def fraction : List Char → List Char × List Char
  | '.' :: cs => (digitRun? Char.isDigit cs).getD ([], '.' :: cs)
  | cs => ([], cs)

/-- The number whose sign and integral digits have been read. -/
def numberFrom (negative : Bool) (whole rest : List Char) : Parsed Value :=
  let (part, rest) := fraction rest
  match part, exponent? rest with
  | [], none =>
    if Digits.limit < whole.length then .error (.integerTooLong whole.length)
    else
      let n : Int := Digits.value whole
      .ok (.int (if negative then -n else n), rest)
  | part, found =>
    let (e, rest) := found.getD (0, rest)
    .ok (.float (Binary64.ofDecimal negative (Digits.value (whole ++ part)) (e - part.length)),
      rest)

/-- The decimal number at the front, if one stands there. -/
def decimal? (cs : List Char) : Option (Parsed Value) :=
  let (negative, body) := match cs with
    | '-' :: rest => (true, rest)
    | '+' :: rest => (false, rest)
    | rest => (false, rest)
  match body with
  | '0' :: rest => some (numberFrom negative ['0'] rest)
  | body => (digitRun? Char.isDigit body).map fun (whole, rest) => numberFrom negative whole rest

/-- The words that stand for numbers that are not finite. -/
def numberWords : List (String × Binary64) :=
  [("inf", .infinite false), ("nan", .nan), ("+inf", .infinite false), ("-inf", .infinite true),
    ("+nan", .nan), ("-nan", .nan)]

/-- What follows a word at the front. -/
def afterWord? (word : String) (cs : List Char) : Option (List Char) :=
  let w := word.toList
  if cs.take w.length = w then some (cs.drop w.length) else none

/-- The scalar at the front. -/
def scalar (cs : List Char) : Parsed Value :=
  match string? cs with
  | some answer => answer.map fun (s, rest) => (.string s, rest)
  | none =>
    match afterWord? "true" cs, afterWord? "false" cs with
    | some rest, _ => .ok (.bool true, rest)
    | none, some rest => .ok (.bool false, rest)
    | none, none =>
      match moment? cs with
      | some answer => answer.map fun (m, rest) => (.moment m, rest)
      | none =>
        match prefixed? cs, decimal? cs with
        | some found, _ => .ok found
        | none, some answer => answer
        | none, none =>
          match numberWords.findSome? fun (w, x) => (afterWord? w cs).map (x, ·) with
          | some (x, rest) => .ok (.float x, rest)
          | none => .error (.at .invalidValue cs)

end CommandRelay.Toml
