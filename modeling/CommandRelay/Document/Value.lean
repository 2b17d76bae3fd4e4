import CommandRelay.Decimal.Binary64
import CommandRelay.Text.Point

/-! # Document values

The values that a structured document can hold, whichever format it is written in. The fields of
an object keep the order in which their keys first appeared. -/

namespace CommandRelay

/-- A day of the calendar. -/
structure Date where
  year : Nat
  month : Nat
  day : Nat
  deriving DecidableEq, Repr

/-- A time of day, to the microsecond. -/
structure TimeOfDay where
  hour : Nat
  minute : Nat
  second : Nat
  microsecond : Nat
  deriving DecidableEq, Repr

/-- A date, a time of day, or both with an optional offset from universal time in minutes. -/
inductive Moment where
  | date (d : Date)
  | time (t : TimeOfDay)
  | dateTime (d : Date) (t : TimeOfDay) (offset : Option Int)
  deriving DecidableEq, Repr

/-- The decimal digits of a number, with zeros in front up to a width. -/
def zeroPadded (width n : Nat) : String :=
  let digits := Nat.toDigits 10 n
  String.ofList (List.replicate (width - digits.length) '0' ++ digits)

namespace Date

/-- Whether a year has a 29th of February. -/
def isLeap (year : Nat) : Bool :=
  year % 4 == 0 && (year % 100 != 0 || year % 400 == 0)

/-- The number of days of a month. -/
def daysIn (year month : Nat) : Nat :=
  if month = 2 then (if isLeap year then 29 else 28)
  else if [4, 6, 9, 11].contains month then 30 else 31

/-- Whether the calendar has this day. -/
def isValid (d : Date) : Bool :=
  1 ≤ d.year && d.year ≤ 9999 && 1 ≤ d.month && d.month ≤ 12 &&
    1 ≤ d.day && d.day ≤ daysIn d.year d.month

/-- Year, month and day with hyphens between them. -/
def text (d : Date) : String :=
  s!"{zeroPadded 4 d.year}-{zeroPadded 2 d.month}-{zeroPadded 2 d.day}"

end Date

/-- Hour, minute and second with colons, then the microseconds unless there are none. -/
def TimeOfDay.text (t : TimeOfDay) : String :=
  let base := s!"{zeroPadded 2 t.hour}:{zeroPadded 2 t.minute}:{zeroPadded 2 t.second}"
  if t.microsecond = 0 then base else s!"{base}.{zeroPadded 6 t.microsecond}"

namespace Moment

/-- A sign, then hours and minutes with a colon. -/
def offsetText (minutes : Int) : String :=
  let sign := if minutes < 0 then "-" else "+"
  s!"{sign}{zeroPadded 2 (minutes.natAbs / 60)}:{zeroPadded 2 (minutes.natAbs % 60)}"

/-- The text of a moment, a date and a time being joined by `separator`. -/
def text (separator : String) : Moment → String
  | .date d => d.text
  | .time t => t.text
  | .dateTime d t offset => d.text ++ separator ++ t.text ++ (offset.map offsetText).getD ""

end Moment

/-- A value of a structured document. -/
inductive Value where
  | null
  | bool (b : Bool)
  | int (n : Int)
  | float (x : Binary64)
  | string (s : Text)
  | list (items : List Value)
  | object (fields : List (Text × Value))
  | moment (m : Moment)
  deriving Repr

namespace Value

instance : Inhabited Value := ⟨.null⟩

/-- Adds a field: a key that is present keeps its place and takes the new value. -/
def put (fields : List (Text × Value)) (key : Text) (value : Value) : List (Text × Value) :=
  match fields with
  | [] => [(key, value)]
  | (k, v) :: rest => if k = key then (k, value) :: rest else (k, v) :: put rest key value

/-- The value of a key. -/
def lookup? (fields : List (Text × Value)) (key : Text) : Option Value :=
  (fields.find? fun f => f.1 = key).map (·.2)

/-- The name of a kind of value in messages. -/
def kindName : Value → String
  | .null => "NoneType"
  | .bool _ => "bool"
  | .int _ => "int"
  | .float _ => "float"
  | .string _ => "str"
  | .list _ => "list"
  | .object _ => "dict"
  | .moment (.date _) => "date"
  | .moment (.time _) => "time"
  | .moment (.dateTime ..) => "datetime"

end Value

end CommandRelay
