import CommandRelay.Document.Literal
import CommandRelay.Failure.Misstatement
import CommandRelay.Failure.System

/-! # Details

Most kinds of failure take any details and show them all. A few give their details a meaning: a
system error is a number, a text and up to two paths; a text that cannot be encoded is shown with
the points at fault; an error of grammar names a file and a line. -/

namespace CommandRelay.Details

/-- What is read from the details of a kind. -/
abbrev Reading := Except Misstatement

/-! ## Single details -/

/-- The largest number that counts places. -/
def greatestIndex : Nat := (1 <<< 63) - 1

/-- The least number that counts places. -/
def leastIndex : Int := -(1 <<< 63 : Nat)

/-- Whether a number can count places. -/
def isIndex (n : Int) : Bool :=
  leastIndex ≤ n && n ≤ greatestIndex

/-- The whole number that a detail is. -/
def whole? : Value → Option Int
  | .int n => some n
  | .bool b => some (if b then 1 else 0)
  | _ => none

/-- A detail that counts places. -/
def index (v : Value) : Reading Int :=
  match whole? v with
  | some n => if isIndex n then .ok n else .error .tooLarge
  | none => .error (.notWhole v.kindName)

/-- A detail that is a text, at a place counted from one. -/
def text (reader : String) (place : Nat) : Value → Reading Text
  | .string t => .ok t
  | .null => .error (.notText reader place "None")
  | v => .error (.notText reader place v.kindName)

/-- The parts of a detail: items, keys or points. -/
def parts : Value → Reading (List Value)
  | .list vs => .ok vs
  | .object fields => .ok (fields.map fun f => .string f.1)
  | .string t => .ok (t.map fun p => .string [p])
  | v => .error (.notIterable v.kindName)

/-! ## System errors -/

/-- The kind of a system error whose number is a detail; only the general kind leaves it open. -/
def systemKind (kind : ErrorKind) (number : Value) : ErrorKind :=
  if kind = .system then
    match whole? number with
    | some n => SystemError.kindOfNumber n
    | none => kind
  else kind

/-- Whether the third detail of a system error counts what was written before it was blocked. -/
def isCount (kind : ErrorKind) : Value → Bool
  | .int _ | .float _ | .bool _ => kind = .blocked
  | _ => false

/-- Checks the count of what was written. -/
def checkCount (v : Value) : Reading Unit :=
  match whole? v with
  | some n => if isIndex n then .ok () else .error .tooWide
  | none => .error (.notWhole v.kindName)

/-- The wording of a system error; there is a second path only beside a first one. -/
def systemMessage (number text path target : Value) : Text :=
  let start := "[Errno " ++ number.display ++ "] " ++ text.display
  match path, target with
  | .null, _ => start
  | path, .null => start ++ ": " ++ path.literal
  | path, target => start ++ ": " ++ path.literal ++ " -> " ++ target.literal

/-- The system error that details of a kind describe. Two to five of them are a number, a text, a
path, something that is passed over, and a second path. -/
def systemError (kind : ErrorKind) (details : List Value) : Reading SystemError :=
  match details with
  | number :: text :: rest =>
    if 3 < rest.length then .ok (.stated kind (Value.displayAll details))
    else
      let kind := systemKind kind number
      let path := rest[0]?.getD .null
      if isCount kind path then do
        checkCount path
        .ok (.stated kind (systemMessage number text .null .null))
      else .ok (.stated kind (systemMessage number text path (rest[2]?.getD .null)))
  | _ => .ok (.stated kind (Value.displayAll details))

/-! ## Encodings -/

/-- The number before another one; the least number has the largest one before it. -/
def wrappedPred (n : Int) : Int :=
  if n = leastIndex then greatestIndex else n - 1

/-- The wording of the points at fault, from the place `start` to before `stop`. -/
def spanText (t : Text) (start stop : Int) : Reading Text :=
  if start < t.length ∧ stop = start + 1 then
    if start < 0 then .error .outsideText
    else
      let point := String.ofList ((t.getD start.toNat ' ').escape)
      .ok s!"character '{point}' in position {start}"
  else .ok s!"characters in position {start}-{wrappedPred stop}"

/-- The wording of a text that cannot be encoded. -/
def encodeMessage : List Value → Reading Text
  | [encoding, t, start, stop, reason] => do
    let encoding ← text "" 1 encoding
    let t ← text "" 2 t
    let start ← index start
    let stop ← index stop
    let reason ← text "" 5 reason
    let span ← spanText t start stop
    .ok ("'" ++ encoding ++ "' codec can't encode " ++ span ++ ": " ++ reason)
  | details => .error (.miscounted "function" .exactly 5 details.length)

/-- The wording of a text that cannot be translated. -/
def translateMessage : List Value → Reading Text
  | [t, start, stop, reason] => do
    let t ← text "" 1 t
    let start ← index start
    let stop ← index stop
    let reason ← text "" 4 reason
    let span ← spanText t start stop
    .ok ("can't translate " ++ span ++ ": " ++ reason)
  | details => .error (.miscounted "function" .exactly 4 details.length)

/-- Bytes that cannot be decoded: no detail is a string of bytes. -/
def decodeMessage : List Value → Reading Text
  | [encoding, data, start, stop, reason] => do
    let _ ← text "" 1 encoding
    let _ ← index start
    let _ ← index stop
    let _ ← text "" 5 reason
    .error (.notBytes data.kindName)
  | details => .error (.miscounted "function" .exactly 5 details.length)

/-! ## Errors of grammar -/

/-- The last part of a path. -/
def fileName (path : Text) : Text :=
  (Text.splitOn '/' path).getLastD []

/-- The line that a detail names; a number of no size that counts is shown as minus one. -/
def lineText? : Value → Option Text
  | .int n => some (Text.ofInt (if isIndex n then n else -1))
  | _ => none

/-- The wording of an error of grammar at a place. -/
def placedMessage (message file line : Value) : Text :=
  let place := match file, lineText? line with
    | .string path, some line => " (" ++ fileName path ++ ", line " ++ line ++ ")"
    | .string path, none => " (" ++ fileName path ++ ")"
    | _, some line => " (line " ++ line ++ ")"
    | _, none => []
  message.display ++ place

/-- The wording of an error of grammar: a message and, as the only other detail, its place. -/
def grammarMessage : List Value → Reading Text
  | [message, place] => do
    match ← parts place with
    | file :: line :: _ :: _ :: ends =>
      if ends.length = 1 then .error .halfEnd
      else if 2 < ends.length then
        .error (.miscounted "function" .atMost 6 (4 + ends.length))
      else .ok (placedMessage message file line)
    | few => .error (.miscounted "function" .atLeast 4 few.length)
  | message :: _ => .ok message.display
  | [] => .ok "None"

/-! ## Groups -/

/-- What checks the details of a group. -/
def groupReader : String := "BaseExceptionGroup.__new__()"

/-- A group of failures: no detail is a failure. -/
def groupMessage : List Value → Reading Text
  | [message, members] => do
    let _ ← text groupReader 1 message
    match members with
    | .list [] | .string [] => .error .emptyGroup
    | .list _ | .string _ => .error .strangeMember
    | _ => .error .notSequence
  | details => .error (.miscounted groupReader .exactly 2 details.length)

/-! ## All kinds -/

/-- The kind and the wording of the failure that details of a kind describe. -/
def read (kind : ErrorKind) (details : List Value) : Reading (ErrorKind × Text) :=
  if kind.isA .system then (systemError kind details).map fun e => (e.kind, e.message)
  else if kind.isA .grammar then (grammarMessage details).map fun message => (kind, message)
  else
    match kind, details with
    | .key, [v] => .ok (kind, v.literal)
    | .unicodeEncode, _ => (encodeMessage details).map fun message => (kind, message)
    | .unicodeTranslate, _ => (translateMessage details).map fun message => (kind, message)
    | .unicodeDecode, _ => (decodeMessage details).map fun message => (kind, message)
    | .group, _ | .anyGroup, _ => (groupMessage details).map fun message => (kind, message)
    | _, _ => .ok (kind, Value.displayAll details)

end CommandRelay.Details
