import CommandRelay.Text.Point

/-! # Defects of a document

Checking a document against a schema collects every defect, each with the place where it lies. -/

namespace CommandRelay

/-- A step on the way to a part of a document. -/
inductive PathStep where
  | key (name : Text)
  | index (i : Nat)
  deriving DecidableEq, Repr

/-- What is wrong with a part of a document. -/
inductive DefectKind where
  | missing
  | extraForbidden
  | recordType (schema : String)
  | stringType
  | stringUnicode
  | stringTooShort
  | listType
  | boolType
  | boolParsing
  | intType
  | intParsing
  | intParsingSize
  | intFromFloat
  | finiteNumber
  | atLeastOne
  | floatType
  | floatParsing
  | aboveZero
  deriving DecidableEq, Repr

namespace DefectKind

/-- The code of a defect. -/
def code : DefectKind → String
  | .missing => "missing"
  | .extraForbidden => "extra_forbidden"
  | .recordType _ => "model_type"
  | .stringType => "string_type"
  | .stringUnicode => "string_unicode"
  | .stringTooShort => "string_too_short"
  | .listType => "list_type"
  | .boolType => "bool_type"
  | .boolParsing => "bool_parsing"
  | .intType => "int_type"
  | .intParsing => "int_parsing"
  | .intParsingSize => "int_parsing_size"
  | .intFromFloat => "int_from_float"
  | .finiteNumber => "finite_number"
  | .atLeastOne => "greater_than_equal"
  | .floatType => "float_type"
  | .floatParsing => "float_parsing"
  | .aboveZero => "greater_than"

/-- The wording of a defect. -/
def message : DefectKind → String
  | .missing => "Field required"
  | .extraForbidden => "Extra inputs are not permitted"
  | .recordType schema => s!"Input should be a valid dictionary or instance of {schema}"
  | .stringType => "Input should be a valid string"
  | .stringUnicode =>
    "Input should be a valid string, unable to parse raw data as a unicode string"
  | .stringTooShort => "String should have at least 1 character"
  | .listType => "Input should be a valid list"
  | .boolType => "Input should be a valid boolean"
  | .boolParsing => "Input should be a valid boolean, unable to interpret input"
  | .intType => "Input should be a valid integer"
  | .intParsing => "Input should be a valid integer, unable to parse string as an integer"
  | .intParsingSize => "Unable to parse input string as an integer, exceeded maximum size"
  | .intFromFloat => "Input should be a valid integer, got a number with a fractional part"
  | .finiteNumber => "Input should be a finite number"
  | .atLeastOne => "Input should be greater than or equal to 1"
  | .floatType => "Input should be a valid number"
  | .floatParsing => "Input should be a valid number, unable to parse string as a number"
  | .aboveZero => "Input should be greater than 0"

end DefectKind

/-- A defect and the place where it lies. -/
structure Defect where
  path : List PathStep
  kind : DefectKind
  deriving DecidableEq, Repr

namespace Defect

/-- The same defect seen from one step further out. -/
def under (step : PathStep) (d : Defect) : Defect :=
  { d with path := step :: d.path }

/-- How many defects a document has with respect to a schema. -/
def summary (schema : String) (defects : List Defect) : String :=
  let noun := if defects.length = 1 then "error" else "errors"
  s!"{defects.length} validation {noun} for {schema}"

end Defect

/-- A checked value, or every defect found. -/
abbrev Checked (α : Type) := Except (List Defect) α

namespace Checked

/-- Both values, or the defects of both checks in order. -/
def both {α β : Type} : Checked α → Checked β → Checked (α × β)
  | .ok a, .ok b => .ok (a, b)
  | .error d, .ok _ => .error d
  | .ok _, .error d => .error d
  | .error d, .error d' => .error (d ++ d')

/-- A defect at the place itself. -/
def fail {α : Type} (kind : DefectKind) : Checked α :=
  .error [⟨[], kind⟩]

/-- The same check seen from one step further out. -/
def under {α : Type} (step : PathStep) (c : Checked α) : Checked α :=
  c.mapError (·.map (Defect.under step))

/-- Checks every item of a list, numbered from `first`. -/
def items {α β : Type} (check : α → Checked β) (first : Nat) : List α → Checked (List β)
  | [] => .ok []
  | a :: rest =>
    (both (under (.index first) (check a)) (items check (first + 1) rest)).map fun (b, bs) =>
      b :: bs

end Checked

end CommandRelay
