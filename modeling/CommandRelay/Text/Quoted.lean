import CommandRelay.Text.Escape
import CommandRelay.Text.Printable

/-! # Quoted text

A quoted text stands between single quotes, or between double quotes if it holds a single quote
and no double one. The backslash, the quote and the unprintable code points are escaped.
`Quoted.list` puts the quoted items of a list between brackets. -/

namespace CommandRelay.Quoted

/-- The quote that delimits a text. -/
def delimiter (t : Text) : Char :=
  if t.contains '\'' && !t.contains '"' then '"' else '\''

/-- One point between quotes. -/
def point (quote : Char) (p : Point) : List Char :=
  match p with
  | .char c =>
    if c = quote || c = '\\' then ['\\', c]
    else if c = '\n' then ['\\', 'n']
    else if c = '\r' then ['\\', 'r']
    else if c = '\t' then ['\\', 't']
    else if p.isPrintable then [c]
    else p.escape
  | .half _ => p.escape

/-- A text between quotes. -/
def text (t : Text) : String :=
  let quote := delimiter t
  String.ofList (quote :: t.flatMap (point quote) ++ [quote])

/-- Quoted texts between brackets, separated by a comma and a space. -/
def list (items : List Text) : String :=
  "[" ++ ", ".intercalate (items.map text) ++ "]"

/-- Quoted texts between parentheses; a lone text is followed by a comma. -/
def tuple : List Text → String
  | [item] => "(" ++ text item ++ ",)"
  | items => "(" ++ ", ".intercalate (items.map text) ++ ")"

end CommandRelay.Quoted
