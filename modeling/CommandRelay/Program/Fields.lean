import CommandRelay.Program.Pattern

/-! # Fields

What the parts of a word come to is a row of pieces: characters that may be quoted or come from a
value, marks of quotes, and cuts between arguments. `Piece.split` takes the row apart into fields at
the separators that come from values. Blanks among the separators count once and not at the ends;
every other separator ends a field, even an empty one. -/

namespace CommandRelay.Program

/-- A piece of a word: a character, quoted or not, that may separate fields or not; an empty pair of
quotes, which makes a field of nothing; the arguments where there are none, which takes that back;
and the place between two arguments. -/
inductive Piece where
  | char (c : Char) (quoted separates : Bool)
  | quotes
  | absent
  | cut
  deriving DecidableEq, Repr

namespace Piece

/-- The pieces of a text. -/
def ofString (quoted separates : Bool) (s : String) : List Piece :=
  s.toList.map fun c => .char c quoted separates

/-- The pieces of the value of a part, which quotes keep in one field. -/
def ofValue (quoted : Bool) (s : String) : List Piece :=
  ofString quoted (!quoted) s

/-- The pieces of several arguments, each of which is a field of its own. -/
def ofArguments (quoted : Bool) (arguments : List String) : List Piece :=
  let one (s : String) : List Piece := (if quoted then [.quotes] else []) ++ ofValue quoted s
  match arguments with
  | [] => if quoted then [.absent] else []
  | arguments => ([Piece.cut].intercalate (arguments.map one))

/-- The characters of a row of pieces, quoted or not. -/
def pattern (pieces : List Piece) : Pattern :=
  pieces.filterMap fun
    | .char c quoted _ => some (c, quoted)
    | _ => none

/-- The text of a row of pieces. -/
def text (pieces : List Piece) : String :=
  (pattern pieces).text

/-- Whether a separator is a blank. -/
def isBlank (c : Char) : Bool :=
  c = ' ' || c = '\t' || c = '\n'

/-- Takes pieces apart at separators. `field` is the field that is being made, its last character
first, if it has begun; `gap` is set after a separator, to whether only blanks have been seen. -/
def splitFrom (separators : String) :
    List Piece → Option Pattern → Option Bool → List Pattern → List Pattern
  | [], field, _, fields => (field.toList ++ fields).reverse.map List.reverse
  | .cut :: rest, field, _, fields =>
    splitFrom separators rest none none (field.toList ++ fields)
  | .quotes :: rest, field, _, fields =>
    splitFrom separators rest (some (field.getD [])) none fields
  | .absent :: rest, field, gap, fields => splitFrom separators rest field gap fields
  | .char c quoted separates :: rest, field, gap, fields =>
    if separates && separators.toList.contains c then
      match field, gap with
      | some field, _ => splitFrom separators rest none (some (isBlank c)) (field :: fields)
      | none, some blanks =>
        if isBlank c then splitFrom separators rest none (some blanks) fields
        else if blanks then splitFrom separators rest none (some false) fields
        else splitFrom separators rest none (some false) ([] :: fields)
      | none, none =>
        if isBlank c then splitFrom separators rest none none fields
        else splitFrom separators rest none (some false) ([] :: fields)
    else splitFrom separators rest (some ((c, quoted) :: field.getD [])) none fields

/-- The fields of a row of pieces. -/
def split (separators : String) (pieces : List Piece) : List Pattern :=
  let isEmpty := pieces.contains .absent && pieces.all fun
    | .char .. => false
    | _ => true
  if isEmpty then [] else splitFrom separators pieces none none []

end Piece

end CommandRelay.Program
