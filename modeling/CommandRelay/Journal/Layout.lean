import CommandRelay.Decimal.Binary64
import CommandRelay.Decimal.Digits
import CommandRelay.Journal.Basic
import CommandRelay.Text.Quoted
import CommandRelay.Text.Word

/-! # Layouts

A layout says how a line is written: text with fields in it, each of which names a datum of the
line and how it is shown. The first field may name no datum and shows the table of them all. A
layout is accepted if it holds at least one whole field; a field that names an unknown datum, or
shows one in a way that does not suit it, fails only when a line is written. -/

namespace CommandRelay.Layout

/-- How a datum is shown: to the left, with a sign or a blank, in the longer form, with zeros in
front; then the least width, the precision and the conversion. -/
structure Style where
  left : Bool := false
  sign : Bool := false
  blank : Bool := false
  long : Bool := false
  zeros : Bool := false
  width : Nat := 0
  precision : Option Nat := none
  conversion : Point
  deriving DecidableEq, Repr

/-- A part of a layout. -/
inductive Part where
  | text (p : Point)
  | field (key : Text) (style : Style)
  | table (style : Style)
  deriving DecidableEq, Repr

/-- A datum of a line: a text, a whole number, a number of seconds or of parts of them, or something
that is only ever shown. -/
inductive Datum where
  | text (t : Text)
  | whole (n : Nat)
  | real (n : Nat)
  | shown (s : String)
  deriving DecidableEq, Repr

/-! ## Reading a layout -/

/-- The greatest width that there is room for, and the greatest precision of a number. -/
def greatestWidth : Nat := 10000000

/-- The greatest precision. -/
def greatestPrecision : Nat := 2147483647

/-- The key up to the bracket that closes it. -/
def key? : Nat → Text → Option (Text × Text)
  | _, [] => none
  | 0, .char ')' :: rest => some ([], rest)
  | depth + 1, .char ')' :: rest =>
    (key? depth rest).map fun (k, rest) => (.char ')' :: k, rest)
  | depth, p :: rest =>
    (key? (if p = '(' then depth + 1 else depth) rest).map fun (k, rest) => (p :: k, rest)

/-- The points that are flags. -/
def flags : Text := "-+ #0"

/-- The points before a conversion that mean nothing. -/
def lengths : Text := "hlL"

/-- Whether a point is a digit. -/
def isDigit : Point → Bool
  | .char c => c.isDigit
  | .half _ => false

/-- Takes the number at the front, zero if there is none. -/
def number? (greatest : Nat) (t : Text) : Option (Nat × Text) :=
  let n := Digits.value ((t.takeWhile isDigit).filterMap Point.char?)
  if n ≤ greatest then some (n, t.dropWhile isDigit) else none

/-- The style of a field, after its key. -/
def style? (t : Text) : Option (Style × Text) := do
  let given := t.takeWhile (· ∈ flags)
  let (width, rest) ← number? greatestWidth (t.dropWhile (· ∈ flags))
  let (precision, rest) ← match rest with
    | .char '.' :: rest =>
      (number? greatestPrecision rest).map fun (p, rest) => (some p, rest)
    | rest => some (none, rest)
  let rest := match rest with
    | p :: more => if p ∈ lengths then more else rest
    | [] => []
  let has (c : Char) : Bool := given.contains c
  match rest with
  | conversion :: rest =>
    some ({ left := has '-', sign := has '+', blank := has ' ', long := has '#', zeros := has '0',
            width, precision, conversion }, rest)
  | [] => none

/-- The parts of a layout; `n` bounds their number. Two percent signs in a row write one, any other
one begins a field, which must have a key unless it is the first one. -/
def parts? (isFirst : Bool) : Nat → Text → Option (List Part)
  | 0, _ => none
  | _, [] => some []
  | n + 1, .char '%' :: .char '(' :: rest => do
    let (k, rest) ← key? 0 rest
    let (style, rest) ← style? rest
    (parts? false n rest).map (.field k style :: ·)
  | n + 1, .char '%' :: .char '%' :: rest => (parts? isFirst n rest).map (.text '%' :: ·)
  | n + 1, .char '%' :: rest =>
    if isFirst then do
      let (style, rest) ← style? rest
      (parts? false n rest).map (.table style :: ·)
    else none
  | n + 1, p :: rest => (parts? isFirst n rest).map (.text p :: ·)

/-! ## Accepting a layout -/

/-- Whether a letter names a conversion, in either case. -/
def isConversion : Point → Bool
  | .char c => c.toLower ∈ "diouxefgcrsa%".toList || c ∈ ['ı', 'İ', 'ſ']
  | .half _ => false

/-- What follows an optional star or number. -/
def afterAmount (t : Text) : Text :=
  match t with
  | .char '*' :: rest => rest
  | t => t.dropWhile WordChar.isDigit

/-- Whether the part of a field after its key is whole. -/
def isWholeStyle (t : Text) : Bool :=
  let t := afterAmount (t.dropWhile (· ∈ flags))
  let ends (t : Text) : Bool := t.head?.any isConversion
  match t with
  | .char '.' :: rest => ends (afterAmount rest) && afterAmount rest ≠ rest
  | t => ends t

/-- Whether a whole field stands at the front. -/
def startsField : Text → Bool
  | .char '%' :: .char '(' :: rest =>
    let name := rest.takeWhile WordChar.isWord
    match rest.dropWhile WordChar.isWord with
    | .char ')' :: rest => name ≠ [] && isWholeStyle rest
    | _ => false
  | _ => false

/-- Whether a layout holds a whole field. -/
def hasField : Text → Bool
  | [] => false
  | p :: t => startsField (p :: t) || hasField t

/-! ## Writing a line -/

/-- A text in its width. -/
def pad (s : Style) (body : Text) : Text :=
  let fill : Text := List.replicate (s.width - body.length) (.char ' ')
  if s.left then body ++ fill else fill ++ body

/-- A number in its width: zeros come between its sign and its digits. -/
def padNumber (s : Style) (front digits : List Char) : Text :=
  let zeros := if s.zeros && !s.left then s.width - front.length - digits.length else 0
  pad s ((front ++ List.replicate zeros '0' ++ digits).map .char)

/-- The sign of a number, none of which is below zero. -/
def signOf (s : Style) : List Char :=
  if s.sign then ['+'] else if s.blank then [' '] else []

/-- The digits of a number in a base, as many as the precision wants. -/
def digitsIn (s : Style) (base n : Nat) : List Char :=
  let ds := Nat.toDigits base n
  List.replicate (s.precision.getD 0 - ds.length) '0' ++ ds

/-- A point and places that are all zero. -/
def zeroPlaces (s : Style) (count : Nat) : List Char :=
  if count = 0 then (if s.long then ['.'] else []) else '.' :: List.replicate count '0'

/-- The mantissa and the exponent of a number with so many places. -/
def mantissa (n places : Nat) : Nat × Nat :=
  let e := (Nat.toDigits 10 n).length - 1
  let m := if e ≤ places then n * Nat.pow 10 (places - e)
    else Binary64.roundQuotient n (Nat.pow 10 (e - places))
  if m = Nat.pow 10 (places + 1) then (m / 10, e + 1) else (m, e)

/-- A number with an exponent. -/
def scientific (s : Style) (mark : Char) (n places : Nat) : List Char :=
  let (m, e) := mantissa n places
  let ds := Nat.toDigits 10 m
  let ds := List.replicate (places + 1 - ds.length) '0' ++ ds
  let places := ds.drop 1
  let places := if places = [] then (if s.long then ['.'] else []) else '.' :: places
  ds.take 1 ++ places ++ mark :: '+' :: (Nat.toDigits 10 e).leftpad 2 '0'

/-- Digits without the zeros at the end of their places, and without a point at the end. -/
def trimPlaces (cs : List Char) : List Char :=
  if '.' ∈ cs then
    let kept := (cs.reverse.dropWhile (· = '0')).reverse
    if kept.getLast? = some '.' then kept.dropLast else kept
  else cs

/-- A number in whichever of two forms is the shorter one, with so many digits. -/
def general (s : Style) (mark : Char) (n : Nat) : List Char :=
  let p := max 1 (s.precision.getD 6)
  let (_, e) := mantissa n (p - 1)
  if n ≠ 0 ∧ p ≤ e then
    let cs := scientific s mark n (p - 1)
    if s.long then cs
    else trimPlaces (cs.takeWhile (· ≠ mark)) ++ cs.dropWhile (· ≠ mark)
  else
    let cs := Nat.toDigits 10 n ++ zeroPlaces s (p - 1 - e)
    if s.long then cs else trimPlaces cs

/-- A number of seconds as a conversion shows it: like a whole one where fractions make sense. -/
def suitsReal (s : Style) : Bool :=
  "diueEfFgG".toList.any (s.conversion = ·)

/-- A number as a conversion shows it. -/
def showNumber (s : Style) (n : Nat) : Option Text :=
  let sign := signOf s
  let based (base : Nat) (mark : Char) (upper : Bool) : Text :=
    let ds := (digitsIn s base n).map fun c => if upper then c.toUpper else c
    padNumber s (sign ++ if s.long then ['0', mark] else []) ds
  let places := s.precision.getD 6
  match s.conversion.char?.getD ' ' with
  | 'd' | 'i' | 'u' => some (padNumber s sign (digitsIn s 10 n))
  | 'x' => some (based 16 'x' false)
  | 'X' => some (based 16 'X' true)
  | 'o' => some (based 8 'o' false)
  | 'f' | 'F' => some (padNumber s sign (Nat.toDigits 10 n ++ zeroPlaces s places))
  | 'e' => some (padNumber s sign (scientific s 'e' n places))
  | 'E' => some (padNumber s sign (scientific s 'E' n places))
  | 'g' => some (padNumber s sign (general s 'e' n))
  | 'G' => some (padNumber s sign (general s 'E' n))
  | 'c' => (Point.ofCode? n).map fun p => pad s [p]
  | _ => none

/-- A text, cut to the precision, in its width. -/
def showText (s : Style) (t : Text) : Text :=
  pad s (match s.precision with
    | some p => t.take p
    | none => t)

/-- A text in which all but ASCII is escaped. -/
def asciiOnly (t : Text) : Text :=
  (t.escapeUnless fun c => c.toNat < 0x80).map .char

/-- The literal of a datum. -/
def Datum.literal : Datum → String
  | .text t => Quoted.text t
  | .shown s => s
  | .whole n => toString n
  | .real n => s!"{n}.0"

/-- The text of a datum. -/
def Datum.plain : Datum → Text
  | .text t => t
  | d => d.literal

/-- A datum as a style shows it, if it can. -/
def Datum.render (s : Style) (d : Datum) : Option Text :=
  match s.conversion, d with
  | .char 's', d => some (showText s d.plain)
  | .char 'r', d => some (showText s d.literal)
  | .char 'a', d => some (showText s (asciiOnly d.literal))
  | .char 'c', .text [p] => some (pad s [p])
  | _, .whole n => if greatestWidth < s.precision.getD 0 then none else showNumber s n
  | _, .real n =>
    if greatestWidth < s.precision.getD 0 ∨ !suitsReal s then none else showNumber s n
  | _, _ => none

/-- What a line is written from: the name of its journal and the time, as a text and in seconds, how
long the program has run by then, its process and thread, and the directory of the part of it that
notes lines. -/
structure Occasion where
  journal : Text
  stamp : Text
  seconds : Nat := 946684800
  uptime : Nat := 1
  process : Nat := 4242
  thread : Nat := 140000000000000
  directory : Text := "/"
  deriving DecidableEq, Repr

/-- Where the program notes lines of a level: the function and its line, which lines can name. -/
def callSite : Level → String × Nat
  | .debug => ("log_debug", 111)
  | .info => ("log_info", 116)
  | .warning => ("log_warning", 121)
  | .error => ("log_error", 126)

/-- The data of a line, in the order of the table; the time as a text is there if the layout names
it. -/
def data (layout : Text) (o : Occasion) (l : Line) : List (Text × Datum) :=
  let time : List (Text × Datum) :=
    if Text.isWithin "%(asctime)" layout then [("asctime", .text o.stamp)] else []
  let always : List (Text × Datum) := [("name", .text o.journal), ("msg", .text l.text),
    ("args", .shown "()"), ("levelname", .text l.level.label), ("levelno", .whole l.level.rank),
    ("pathname", .text (o.directory ++ "file_logger.py")), ("filename", .text "file_logger.py"),
    ("module", .text "file_logger"), ("exc_info", .shown "None"), ("exc_text", .shown "None"),
    ("stack_info", .shown "None"), ("lineno", .whole (callSite l.level).2),
    ("funcName", .text (callSite l.level).1), ("created", .real o.seconds), ("msecs", .real 0),
    ("relativeCreated", .real o.uptime), ("thread", .whole o.thread),
    ("threadName", .text "MainThread"), ("processName", .text "MainProcess"),
    ("process", .whole o.process), ("message", .text l.text)]
  always ++ time

/-- All data as one: each key with its datum. -/
def tableOf (fields : List (Text × Datum)) : Datum :=
  let entries := fields.map fun (k, d) => Quoted.text k ++ ": " ++ d.literal
  .shown ("\x7b" ++ ", ".intercalate entries ++ "\x7d")

/-- A part of a layout as it is written from data. -/
def Part.render (fields : List (Text × Datum)) : Part → Option Text
  | .text p => some [p]
  | .field k style => (fields.find? (·.1 = k)).bind fun (_, d) => d.render style
  | .table style => (tableOf fields).render style

/-- A line as a layout writes it; nothing if the layout fails on it. -/
def render (layout : Text) (o : Occasion) (l : Line) : Option Text := do
  let written ← (← parts? true (layout.length + 1) layout).mapM (Part.render (data layout o l))
  some written.flatten

end CommandRelay.Layout
