import CommandRelay.Document.Literal
import CommandRelay.Failure.System
import CommandRelay.Journal.Layout
import CommandRelay.Text.Case

/-! # Setting up a journal

A journal is set up with a level and a layout. They are looked up in a document, in a table of
dotted keys, or in a table that takes no dotted keys; what is not there has a default. A level
is named in either case, and a name that is no level stands for the level of information. -/

namespace CommandRelay.Journal

/-- Where the level and the layout are looked up. -/
inductive Source where
  | absent
  | document (v : Value)
  | dotted (fields : List (Text × Value))
  | undotted (fields : List (Text × Value))

/-- Why a journal cannot be set up. -/
inductive SetupFault where
  | access (fault : AccessFault)
  | noSection (kind : String)
  | unknownLevel (text : Text)
  | noLevel (shown : String)
  | layout (text : Text)
  | noLayout (kind : String)
  deriving DecidableEq, Repr

namespace SetupFault

/-- The wording of a fault. -/
def message : SetupFault → Text
  | .access fault => fault.message
  | .noSection kind => s!"'{kind}' object has no attribute 'get'"
  | .unknownLevel text => s!"Unknown level: {Quoted.text text}"
  | .noLevel shown => s!"Level not an integer or a valid string: {shown}"
  | .layout text => "Invalid format '" ++ text ++ "' for '%' style"
  | .noLayout kind => s!"expected string or bytes-like object, got '{kind}'"

/-- The kind of a fault. -/
def kind : SetupFault → ErrorKind
  | .access fault => fault.kind
  | .noSection _ => .attribute
  | .unknownLevel _ | .layout _ => .value
  | .noLevel _ | .noLayout _ => .type

end SetupFault

/-! ## Looking up -/

/-- Whether a value counts as something. -/
def isTruthy : Value → Bool
  | .null => false
  | .bool b => b
  | .int n => n ≠ 0
  | .float (.finite _ m _) => m ≠ 0
  | .float _ => true
  | .string t => t ≠ []
  | .list vs => !vs.isEmpty
  | .object fs => !fs.isEmpty
  | .moment _ => true

/-- The name of the default level. -/
def defaultLevel : Value := .string "INFO"

/-- The default layout of a journal. -/
def defaultLayout : Value := .string "%(asctime)s - %(levelname)s - %(message)s"

/-- A value, or another one if it counts as nothing. -/
def orElse (v other : Value) : Value :=
  if isTruthy v then v else other

/-- The level and the layout under two dotted keys; nothing if both are null. -/
def dottedPair? (fields : List (Text × Value)) : Option (Value × Value) :=
  let find (key : Text) : Value := (Value.lookup? fields key).getD .null
  match find "logging.level", find "logging.format" with
  | .null, .null => none
  | level, layout => some (orElse level defaultLevel, orElse layout defaultLayout)

/-- The level and the layout in a section of a table. -/
def sectionPair (fields : List (Text × Value)) : Except SetupFault (Value × Value) :=
  let given := (Value.lookup? fields "logging").getD .null
  if !isTruthy given then .ok (defaultLevel, defaultLayout)
  else
    match given with
    | .object fields =>
      .ok ((Value.lookup? fields "level").getD defaultLevel,
        (Value.lookup? fields "format").getD defaultLayout)
    | v => .error (.noSection v.kindName)

/-- The level and the layout that a source gives. -/
def Source.read : Source → Except SetupFault (Value × Value)
  | .document (.object fields) | .dotted fields =>
    match dottedPair? fields with
    | some pair => .ok pair
    | none => sectionPair fields
  | .undotted fields => sectionPair fields
  | .absent | .document _ => .ok (defaultLevel, defaultLayout)

/-! ## Levels and layouts -/

/-- The levels that have a name, with their ranks. -/
def levelNames : List (Text × Nat) :=
  [("DEBUG", 10), ("INFO", 20), ("WARNING", 30), ("WARN", 30), ("ERROR", 40), ("CRITICAL", 50),
    ("FATAL", 50), ("NOTSET", 0)]

/-- The rank of the default level. -/
def defaultRank : Nat := 20

/-- Names that look like levels and are none. -/
def falseLevels : List (Text × SetupFault) :=
  [("BASIC_FORMAT", .unknownLevel "%(levelname)s:%(name)s:%(message)s"),
    ("_STYLES", .noLevel <|
      "\x7b'%': (<class 'logging.PercentStyle'>, '%(levelname)s:%(name)s:%(message)s'), " ++
      "'\x7b': (<class 'logging.StrFormatStyle'>, " ++
      "'\x7blevelname\x7d:\x7bname\x7d:\x7bmessage\x7d'), " ++
      "'$': (<class 'logging.StringTemplateStyle'>, " ++
      "'$\x7blevelname\x7d:$\x7bname\x7d:$\x7bmessage\x7d')\x7d")]

/-- The rank of the level that a value names. -/
def rankOf (v : Value) : Except SetupFault Nat :=
  let name := Case.upper v.display
  match falseLevels.find? (·.1 = name) with
  | some (_, fault) => .error fault
  | none => .ok (((levelNames.find? (·.1 = name)).map (·.2)).getD defaultRank)

/-- The layout of nothing but the text. -/
def plainLayout : Text := "%(message)s"

/-- The layout that a value gives; one that counts as nothing is plain. -/
def layoutOf (v : Value) : Except SetupFault Text :=
  if !isTruthy v then .ok plainLayout
  else
    match v with
    | .string t => if Layout.hasField t then .ok t else .error (.layout t)
    | v => .error (.noLayout v.kindName)

end CommandRelay.Journal
