import CommandRelay.Decimal.Digits
import CommandRelay.Document.Value
import CommandRelay.Text.Wide

/-! # Reading JSON

The reader walks a text from left to right and keeps the rest of it, so the position of a fault is
the length of the text less the length of the rest. Besides the standard grammar it takes the
three names of numbers that are not finite. A key that appears again replaces the earlier value,
and two escaped surrogate halves in a row write one scalar value.

Documents given as bytes are first decoded: a byte order mark settles the encoding, and without
one the zero bytes among the first four do. Lists and objects may stand in each other up to a
fixed depth.

## Implementation notes

`value` recurses on a budget of steps. A step for a list or an object and the step for what stands
in it consume at least one code point between them, so twice the length of the text is enough. -/

namespace CommandRelay.Json

/-- What is wrong at a position of a text. -/
inductive Problem where
  | expectingValue
  | expectingName
  | expectingColon
  | expectingComma
  | extraData
  | unterminatedString
  | controlCharacter
  | invalidEscape
  | invalidUnicodeEscape
  | byteOrderMark
  deriving DecidableEq, Repr

/-- The wording of a problem. -/
def Problem.message : Problem → String
  | .expectingValue => "Expecting value"
  | .expectingName => "Expecting property name enclosed in double quotes"
  | .expectingColon => "Expecting ':' delimiter"
  | .expectingComma => "Expecting ',' delimiter"
  | .extraData => "Extra data"
  | .unterminatedString => "Unterminated string starting at"
  | .controlCharacter => "Invalid control character at"
  | .invalidEscape => "Invalid \\escape"
  | .invalidUnicodeEscape => "Invalid \\uXXXX escape"
  | .byteOrderMark => "Unexpected UTF-8 BOM (decode using utf-8-sig)"

/-- What other values can stand in. -/
inductive Nest where
  | array
  | object
  deriving DecidableEq, Repr

/-- The name of a nest in messages. -/
def Nest.label : Nest → String
  | .array => "array"
  | .object => "object"

/-- A fault with what is left of the text where it lies, an integer with too many digits, or a nest
that stands too deep in others. -/
inductive Fault where
  | at (problem : Problem) (rest : Text)
  | integerTooLong (digits : Nat)
  | tooDeep (nest : Nest)
  deriving DecidableEq, Repr

/-- A failed reading: a problem with its position, an integer with too many digits, a nest that
stands too deep in others, or bytes that are no text. -/
inductive ReadError where
  | malformed (problem : Problem) (line column offset : Nat)
  | integerTooLong (digits : Nat)
  | tooDeep (nest : Nest)
  | undecodable (error : DecodeError)
  deriving DecidableEq, Repr

/-- The wording of a failed reading. -/
def ReadError.message : ReadError → String
  | .malformed problem line column offset =>
    s!"{problem.message}: line {line} column {column} (char {offset})"
  | .integerTooLong digits => Digits.tooLongMessage digits
  | .tooDeep nest =>
    s!"maximum recursion depth exceeded while decoding a JSON {nest.label} from a unicode string"
  | .undecodable e => e.message

/-- Whether a document is nested too deep, which is no fault of its grammar. -/
def ReadError.isTooDeep : ReadError → Bool
  | .tooDeep _ => true
  | _ => false

/-- The error of a fault in a text: lines and columns count from one, offsets from zero. -/
def Fault.inText (t : Text) : Fault → ReadError
  | .at problem rest =>
    let offset := t.length - rest.length
    let before := t.take offset
    let column := (before.reverse.takeWhile (· != .char '\n')).length + 1
    .malformed problem (before.count (.char '\n') + 1) column offset
  | .integerTooLong digits => .integerTooLong digits
  | .tooDeep nest => .tooDeep nest

/-- Blank space between the parts of a document. -/
def isBlank (p : Point) : Bool :=
  p == .char ' ' || p == .char '\n' || p == .char '\t' || p == .char '\r'

/-- What follows the blank space at the front. -/
def skipBlank (t : Text) : Text :=
  t.dropWhile isBlank

/-- The value of a hexadecimal digit. -/
def hexDigit? : Point → Option Nat
  | .char c =>
    if '0' ≤ c ∧ c ≤ '9' then some (c.toNat - '0'.toNat)
    else if 'a' ≤ c ∧ c ≤ 'f' then some (c.toNat - 'a'.toNat + 10)
    else if 'A' ≤ c ∧ c ≤ 'F' then some (c.toNat - 'A'.toNat + 10)
    else none
  | .half _ => none

/-- The point that four hexadecimal digits write. -/
def hexPoint? (a b c d : Point) : Option Point := do
  let n := (((← hexDigit? a) * 16 + (← hexDigit? b)) * 16 + (← hexDigit? c)) * 16 + (← hexDigit? d)
  Point.ofCode? n

/-- The character that a one-letter escape writes. -/
def shortEscape? : Point → Option Char
  | .char '"' => some '"'
  | .char '\\' => some '\\'
  | .char '/' => some '/'
  | .char 'b' => some '\x08'
  | .char 'f' => some '\x0C'
  | .char 'n' => some '\n'
  | .char 'r' => some '\r'
  | .char 't' => some '\t'
  | _ => none

/-- A point of a string literal, with a mark on those that were written as a number. -/
structure Piece where
  point : Point
  escaped : Bool
  deriving DecidableEq, Repr

/-- Joins an escaped high half and the escaped low half behind it. -/
def joinHalves : List Piece → Text
  | ⟨high, true⟩ :: ⟨low, true⟩ :: rest =>
    if high.isHigh && low.isLow then high.join low :: joinHalves rest
    else high :: joinHalves (⟨low, true⟩ :: rest)
  | piece :: rest => piece.point :: joinHalves rest
  | [] => []

/-- The pieces of a string literal after its opening quote, and what follows the closing one;
`start` is the text from the opening quote on. -/
def pieces (start : Text) : Text → Except Fault (List Piece × Text)
  | [] => .error (.at .unterminatedString start)
  | p :: rest =>
    if p = .char '"' then .ok ([], rest)
    else if p = .char '\\' then
      match rest with
      | [] => .error (.at .unterminatedString start)
      | e :: tail =>
        if e = .char 'u' then
          match tail with
          | a :: b :: c :: d :: more =>
            match hexPoint? a b c d with
            | some q =>
              if more.isEmpty then .error (.at .invalidUnicodeEscape rest)
              else (pieces start more).map fun (ps, t) => (⟨q, true⟩ :: ps, t)
            | none => .error (.at .invalidUnicodeEscape rest)
          | _ => .error (.at .invalidUnicodeEscape rest)
        else
          match shortEscape? e with
          | some c => (pieces start tail).map fun (ps, t) => (⟨.char c, false⟩ :: ps, t)
          | none => .error (.at .invalidEscape (p :: rest))
    else if p.code < 0x20 then .error (.at .controlCharacter (p :: rest))
    else (pieces start rest).map fun (ps, t) => (⟨p, false⟩ :: ps, t)

/-- The string literal whose opening quote stands before `rest`. -/
def string (rest : Text) : Except Fault (Text × Text) :=
  (pieces (.char '"' :: rest) rest).map fun (ps, t) => (joinHalves ps, t)

/-- A decimal digit. -/
def isDigit : Point → Bool
  | .char c => c.isDigit
  | .half _ => false

/-- The run of decimal digits at the front, and what follows it. -/
def digitRun (t : Text) : List Char × Text :=
  ((t.takeWhile isDigit).filterMap Point.char?, t.dropWhile isDigit)

/-- The fraction at the front: its digits, none if there is no fraction. -/
def fraction : Text → List Char × Text
  | .char '.' :: rest =>
    match digitRun rest with
    | ([], _) => ([], .char '.' :: rest)
    | (ds, t) => (ds, t)
  | t => ([], t)

/-- The exponent at the front, if there is one. -/
def exponent (t : Text) : Option (Int × Text) :=
  match t with
  | .char e :: rest =>
    if e = 'e' ∨ e = 'E' then
      let (negative, rest) := match rest with
        | .char '-' :: r => (true, r)
        | .char '+' :: r => (false, r)
        | r => (false, r)
      match digitRun rest with
      | ([], _) => none
      | (ds, r) => some (if negative then -(Digits.value ds : Int) else Digits.value ds, r)
    else none
  | _ => none

/-- The number whose integral digits are given, the sign being read already. -/
def numberFrom (negative : Bool) (whole : List Char) (t : Text) : Except Fault (Value × Text) :=
  let (part, t) := fraction t
  match part, exponent t with
  | [], none =>
    if Digits.limit < whole.length then .error (.integerTooLong whole.length)
    else
      let n : Int := Digits.value whole
      .ok (.int (if negative then -n else n), t)
  | part, none =>
    .ok (.float (Binary64.ofDecimal negative (Digits.value (whole ++ part)) (-part.length)), t)
  | part, some (e, t) =>
    .ok (.float (Binary64.ofDecimal negative (Digits.value (whole ++ part)) (e - part.length)), t)

/-- The number at the front, if one stands there: no integral part but zero starts with zero. -/
def number? (t : Text) : Option (Except Fault (Value × Text)) :=
  let (negative, body) := match t with
    | .char '-' :: r => (true, r)
    | r => (false, r)
  match digitRun body with
  | ([], _) => none
  | ('0' :: _, _) => some (numberFrom negative ['0'] (body.drop 1))
  | (ds, r) => some (numberFrom negative ds r)

/-- What follows a word at the front. -/
def afterWord? (word t : Text) : Option Text :=
  if word.isPrefixOf t then some (t.drop word.length) else none

/-- The words that stand for a value. -/
def words : List (Text × Value) :=
  [("null", .null), ("true", .bool true), ("false", .bool false), ("NaN", .float .nan),
    ("Infinity", .float (.infinite false)), ("-Infinity", .float (.infinite true))]

/-- A word or a number. -/
def scalar (t : Text) : Except Fault (Value × Text) :=
  match words.findSome? fun (w, v) => (afterWord? w t).map (v, ·) with
  | some found => .ok found
  | none => (number? t).getD (.error (.at .expectingValue t))

/-- The name of a field with the colon behind it. -/
def fieldName (t : Text) : Except Fault (Text × Text) :=
  match t with
  | .char '"' :: rest => do
    let (name, rest) ← string rest
    match skipBlank rest with
    | .char ':' :: rest => .ok (name, skipBlank rest)
    | rest => .error (.at .expectingColon rest)
  | t => .error (.at .expectingName t)

/-- How deep lists and objects may stand in each other. -/
def nestingLimit : Nat := 990

mutual

/-- The value at the front; so many more nests may stand in each other as `room` says. -/
def value : Nat → Nat → Text → Except Fault (Value × Text)
  | 0, _, t => .error (.at .expectingValue t)
  | fuel + 1, room, t =>
    match t with
    | .char '"' :: rest => (string rest).map fun (s, r) => (.string s, r)
    | .char '[' :: rest =>
      if room = 0 then .error (.tooDeep .array)
      else
        match skipBlank rest with
        | .char ']' :: rest => .ok (.list [], rest)
        | rest => (items fuel (room - 1) rest).map fun (vs, r) => (.list vs, r)
    | .char '{' :: rest =>
      if room = 0 then .error (.tooDeep .object)
      else
        match skipBlank rest with
        | .char '}' :: rest => .ok (.object [], rest)
        | rest => (fields fuel (room - 1) [] rest).map fun (fs, r) => (.object fs, r)
    | t => scalar t

/-- The items of a list up to its closing bracket; one stands at the front. -/
def items : Nat → Nat → Text → Except Fault (List Value × Text)
  | 0, _, t => .error (.at .expectingValue t)
  | fuel + 1, room, t => do
    let (v, rest) ← value fuel room t
    match skipBlank rest with
    | .char ']' :: rest => .ok ([v], rest)
    | .char ',' :: rest =>
      let (vs, rest) ← items fuel room (skipBlank rest)
      .ok (v :: vs, rest)
    | rest => .error (.at .expectingComma rest)

/-- The fields of an object up to its closing brace, added to those read before. -/
def fields : Nat → Nat → List (Text × Value) → Text →
    Except Fault (List (Text × Value) × Text)
  | 0, _, _, t => .error (.at .expectingValue t)
  | fuel + 1, room, before, t => do
    let (name, rest) ← fieldName t
    let (v, rest) ← value fuel room rest
    let now := Value.put before name v
    match skipBlank rest with
    | .char '}' :: rest => .ok (now, rest)
    | .char ',' :: rest => fields fuel room now (skipBlank rest)
    | rest => .error (.at .expectingComma rest)

end

/-- The value of a whole text, blank space around it being skipped. -/
def document (t : Text) : Except Fault Value := do
  let (v, rest) ← value (2 * t.length + 2) nestingLimit (skipBlank t)
  match skipBlank rest with
  | [] => .ok v
  | rest => .error (.at .extraData rest)

/-- Reads a decoded document. -/
def readDecoded (t : Text) : Except ReadError Value :=
  (document t).mapError (Fault.inText t)

/-- Reads a document given as text, in which no byte order mark may stand. -/
def readText (t : Text) : Except ReadError Value :=
  match t with
  | .char '\uFEFF' :: _ => .error (Fault.inText t (.at .byteOrderMark t))
  | t => readDecoded t

/-- The encoding of a document. -/
inductive Encoding where
  | utf8
  | utf16 (order : Endian)
  | utf32 (order : Endian)
  deriving DecidableEq, Repr

/-- The byte order mark at the front: the encoding it stands for and its length. -/
def mark? : Bytes → Option (Encoding × Nat)
  | 0 :: 0 :: 0xFE :: 0xFF :: _ => some (.utf32 .big, 4)
  | 0xFF :: 0xFE :: 0 :: 0 :: _ => some (.utf32 .little, 4)
  | 0xFE :: 0xFF :: _ => some (.utf16 .big, 2)
  | 0xFF :: 0xFE :: _ => some (.utf16 .little, 2)
  | 0xEF :: 0xBB :: 0xBF :: _ => some (.utf8, 3)
  | _ => none

/-- The encoding of a document without a byte order mark, from its zero bytes. -/
def guess : Bytes → Encoding
  | a :: b :: c :: d :: _ =>
    if a = 0 then (if b = 0 then .utf32 .big else .utf16 .big)
    else if b = 0 then (if c = 0 ∧ d = 0 then .utf32 .little else .utf16 .little)
    else .utf8
  | [a, b] => if a = 0 then .utf16 .big else if b = 0 then .utf16 .little else .utf8
  | _ => .utf8

/-- Decodes a document. Positions count the byte order mark except in UTF-8. -/
def decode (bytes : Bytes) : Except DecodeError Text :=
  let (encoding, skipped) := (mark? bytes).getD (guess bytes, 0)
  let body := bytes.drop skipped
  match encoding with
  | .utf8 => Utf8.decodeFrom true 0 body
  | .utf16 order => Utf16.decodeFrom order skipped body
  | .utf32 order => Utf32.decodeFrom order skipped body

/-- Reads a document given as bytes. -/
def readBytes (bytes : Bytes) : Except ReadError Value :=
  match decode bytes with
  | .ok t => readDecoded t
  | .error e => .error (.undecodable e)

end CommandRelay.Json
