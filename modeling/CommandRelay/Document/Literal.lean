import CommandRelay.Decimal.Shortest
import CommandRelay.Document.Value
import CommandRelay.Text.Quoted

/-! # Values in messages

A value is shown as a literal: texts are quoted, lists stand between brackets and objects between
braces. Shown plainly, a text stands for itself and everything else is its literal. -/

namespace CommandRelay.Value

mutual

/-- The literal of a value. -/
def literal : Value → String
  | .null => "None"
  | .bool b => if b then "True" else "False"
  | .int n => toString n
  | .float x => NumberLayout.plain.render x
  | .string s => Quoted.text s
  | .list items => "[" ++ ", ".intercalate (literals items) ++ "]"
  | .object fields => "\x7b" ++ ", ".intercalate (fieldLiterals fields) ++ "\x7d"
  | .moment m => m.text " "

/-- The literals of several values. -/
def literals : List Value → List String
  | [] => []
  | v :: rest => literal v :: literals rest

/-- The literals of the fields of an object, each with its key. -/
def fieldLiterals : List (Text × Value) → List String
  | [] => []
  | (k, v) :: rest => (Quoted.text k ++ ": " ++ literal v) :: fieldLiterals rest

end

/-- The plain text of a value. -/
def display : Value → Text
  | .string s => s
  | v => v.literal

/-- The text of a group of details: nothing, the one that there is, or all between parentheses. -/
def displayAll : List Value → Text
  | [] => ""
  | [v] => v.display
  | vs => "(" ++ ", ".intercalate (vs.map literal) ++ ")"

end CommandRelay.Value
