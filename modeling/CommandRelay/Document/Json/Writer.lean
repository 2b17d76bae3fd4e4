import CommandRelay.Document.Value
import CommandRelay.Decimal.Shortest
import CommandRelay.Text.Escape

/-! # Writing JSON

Values are written on one line, with a space after each comma and colon. The quote, the backslash
and the control characters below U+0020 are escaped; every other code point stands as it is.

A writer has room for so many lists and objects in each other and refuses what is nested deeper
(`writeWithin`). The room is what the calls around it have left, so it differs from one place to
another; `write` gives the text for the places where the depth of a value is known. -/

namespace CommandRelay.Json

/-- One code point of a string literal. -/
def escape : Point → Text
  | .char '"' => "\\\""
  | .char '\\' => "\\\\"
  | .char '\x08' => "\\b"
  | .char '\x0C' => "\\f"
  | .char '\n' => "\\n"
  | .char '\r' => "\\r"
  | .char '\t' => "\\t"
  | p =>
    if p.code < 0x20 then "\\u" ++ String.ofList (hexDigits 4 p.code)
    else [p]

/-- A string literal. -/
def writeString (s : Text) : Text :=
  .char '"' :: s.flatMap escape ++ [.char '"']

/-- Numbers in documents: like those in messages, but for the names of the infinite ones. -/
def numberLayout : NumberLayout :=
  { NumberLayout.plain with nan := "NaN", infinity := "Infinity" }

mutual

/-- The text of a value. -/
def write : Value → Text
  | .null => "null"
  | .bool b => if b then "true" else "false"
  | .int n => Text.ofInt n
  | .float x => numberLayout.render x
  | .string s => writeString s
  | .list items => .char '[' :: writeItems items ++ [.char ']']
  | .object fields => .char '{' :: writeFields fields ++ [.char '}']
  | .moment m => writeString (m.text " ")

/-- The items of a list. -/
def writeItems : List Value → Text
  | [] => []
  | [v] => write v
  | v :: rest => write v ++ ", " ++ writeItems rest

/-- The fields of an object. -/
def writeFields : List (Text × Value) → Text
  | [] => []
  | [(k, v)] => writeString k ++ ": " ++ write v
  | (k, v) :: rest =>
    writeString k ++ ": " ++ write v ++ ", " ++ writeFields rest

end

/-- Why a value cannot be written. -/
inductive WriteError where
  | tooDeep
  deriving DecidableEq, Repr

/-- The wording of a refusal to write. -/
def WriteError.message : WriteError → String
  | .tooDeep => "maximum recursion depth exceeded while encoding a JSON object"

/-- How deep lists and objects may stand in each other in what the journals are handed. -/
def writingLimit : Nat := 991

mutual

/-- The text of a value, written with room for so many nests in each other. -/
def writeWithin (room : Nat) : Value → Except WriteError Text
  | .list items =>
    match room with
    | 0 => .error .tooDeep
    | room + 1 => (itemsWithin room items).map fun t => .char '[' :: t ++ [.char ']']
  | .object fields =>
    match room with
    | 0 => .error .tooDeep
    | room + 1 => (fieldsWithin room fields).map fun t => .char '{' :: t ++ [.char '}']
  | v => .ok (write v)

/-- The items of a list, each written with the same room. -/
def itemsWithin (room : Nat) : List Value → Except WriteError Text
  | [] => .ok []
  | [v] => writeWithin room v
  | v :: rest => do
    let first ← writeWithin room v
    let others ← itemsWithin room rest
    return first ++ ", " ++ others

/-- The fields of an object, each written with the same room. -/
def fieldsWithin (room : Nat) : List (Text × Value) → Except WriteError Text
  | [] => .ok []
  | [(k, v)] => (writeWithin room v).map fun t => writeString k ++ ": " ++ t
  | (k, v) :: rest => do
    let first ← writeWithin room v
    let others ← fieldsWithin room rest
    return writeString k ++ ": " ++ first ++ ", " ++ others

end

end CommandRelay.Json
