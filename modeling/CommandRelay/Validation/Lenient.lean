import CommandRelay.Decimal.Digits
import CommandRelay.Document.Value
import CommandRelay.Text.Word
import CommandRelay.Validation.Defect

/-! # Lenient checks

A lenient check takes values of another type that stand for what is wanted: words and numbers for a
truth value, texts and whole floats for an integer, texts and integers for a float. -/

namespace CommandRelay.Lenient

/-- Blank space around a number in a text. -/
def isBlank (c : Char) : Bool :=
  let n := c.toNat
  (9 ≤ n && n ≤ 13) || n = 0x20 || n = 0x85 || n = 0xA0 || n = 0x1680 ||
    (0x2000 ≤ n && n ≤ 0x200A) || n = 0x2028 || n = 0x2029 || n = 0x202F || n = 0x205F ||
    n = 0x3000

/-- A text without the blank space around it. -/
def trim (cs : List Char) : List Char :=
  ((cs.dropWhile isBlank).reverse.dropWhile isBlank).reverse

/-- A text without its underscores, if they all stand alone between other characters. -/
def withoutUnderscores? (cs : List Char) : Option (List Char) :=
  if cs.head? = some '_' ∨ cs.getLast? = some '_' ∨ '_' ∉ cs then none
  else if (cs.zip (cs.drop 1)).any fun (a, b) => a = '_' && b = '_' then none
  else some (cs.filter (· ≠ '_'))

/-- A string in which no half of a pair stands alone. -/
def whole (t : Text) : Checked String :=
  match t.toString? with
  | some s => .ok s
  | none => Checked.fail .stringUnicode

/-! ## Truth values -/

/-- The words for false. -/
def falseWords : List String :=
  ["0", "f", "n", "no", "off", "false"]

/-- The words for true. -/
def trueWords : List String :=
  ["1", "t", "y", "on", "yes", "true"]

/-- The truth value that a whole number stands for. -/
def boolOfInt (n : Int) : Checked Bool :=
  if n = 0 then .ok false else if n = 1 then .ok true else Checked.fail .boolParsing

/-- Whether a whole number fits into 64 bits. -/
def isMachineInt (n : Int) : Bool :=
  -9223372036854775808 ≤ n && n < 9223372036854775808

/-- Whether a whole number lies inside the bounds of 64 bits. -/
def isInsideMachine (n : Int) : Bool :=
  -9223372036854775808 < n && n < 9223372036854775808

/-- Checks a truth value; words count in either case. -/
def bool : Value → Checked Bool
  | .bool b => .ok b
  | .string t => do
    let s := String.map Char.toLower (← whole t)
    if s ∈ falseWords then .ok false
    else if s ∈ trueWords then .ok true
    else Checked.fail .boolParsing
  | .int n => if isMachineInt n then boolOfInt n else Checked.fail .boolType
  | .float x =>
    match x.toInt? with
    | some n => if isInsideMachine n then boolOfInt n else Checked.fail .boolType
    | none => Checked.fail .boolType
  | _ => Checked.fail .boolType

/-! ## Integers -/

/-- A text without the zeros it begins with, the last one having been read; underscores among
them go too. A zero before a point stays. -/
def afterZeros (last : Char) : List Char → Option (List Char)
  | [] => some [last]
  | c :: cs =>
    if c = '0' ∨ c = '_' then afterZeros c cs
    else if c.isDigit ∨ c = '-' then some (c :: cs)
    else if c = '.' then some (last :: c :: cs)
    else none

/-- A text without the zeros it begins with; it must begin with a digit or a minus sign. -/
def withoutLeadingZeros? : List Char → Option (List Char)
  | '0' :: cs => afterZeros '0' cs
  | c :: cs => if c.isDigit ∨ c = '-' then some (c :: cs) else none
  | [] => none

/-- A text without a fraction of nothing but zeros. -/
def withoutZeroFraction (cs : List Char) : List Char :=
  match cs.dropWhile (· ≠ '.') with
  | _ :: places =>
    if places ≠ [] ∧ places.all (· = '0') then cs.takeWhile (· ≠ '.') else cs
  | [] => cs

/-- A text without what may stand around an integer: blank space, a plus sign, zeros in front of it
and a fraction of zeros. -/
def plainInteger? (cs : List Char) : Option (List Char) :=
  let unsigned := match trim cs with
    | '+' :: '-' :: _ => none
    | '+' :: cs => some cs
    | cs => some cs
  (unsigned.bind withoutLeadingZeros?).map withoutZeroFraction

/-- The values of the digits that follow; an underscore may stand between two of them. -/
def digitsAfter (afterDigit : Bool) : List Char → Option (List Nat)
  | [] => if afterDigit then some [] else none
  | c :: cs =>
    if c = '_' then
      if afterDigit then digitsAfter false cs else none
    else (WordChar.digitValue? c).bind fun d => (digitsAfter true cs).map (d :: ·)

/-- Whether the text of a number ends in a character that counts as blank there. -/
def isEndBlank (c : Char) : Bool :=
  isBlank c || (0x1C ≤ c.toNat && c.toNat ≤ 0x1F)

/-- Checks the sign and the digits of an integer. Only one that fits into 64 bits and is written in
ASCII digits alone may have more digits than the limit. -/
def intOfDigits (cs : List Char) : Checked Int :=
  let (negative, body) := match cs with
    | '-' :: body => (true, body)
    | body => (false, body)
  match digitsAfter false ((body.reverse.dropWhile isEndBlank).reverse) with
  | none => Checked.fail .intParsing
  | some ds =>
    let size : Nat := ds.foldl (fun n d => 10 * n + d) 0
    let n : Int := if negative then -size else size
    if ds.length ≤ Digits.limit ∨ (body.all Char.isDigit ∧ isMachineInt n) then .ok n
    else Checked.fail .intParsing

/-- Checks an integer that a text writes. -/
def intOfText (s : String) : Checked Int :=
  match plainInteger? s.toList with
  | none => Checked.fail .intParsing
  | some cs => intOfDigits cs

/-- Checks a whole float. -/
def intOfFloat (x : Binary64) : Checked Int :=
  match x with
  | .nan | .infinite _ => Checked.fail .finiteNumber
  | x =>
    match x.toInt? with
    | some n => if isInsideMachine n then .ok n else Checked.fail .intParsingSize
    | none => Checked.fail .intFromFloat

/-- Checks an integer. -/
def int : Value → Checked Int
  | .int n => .ok n
  | .bool b => .ok (if b then 1 else 0)
  | .string t => (whole t).bind intOfText
  | .float x => intOfFloat x
  | _ => Checked.fail .intType

/-- Checks an integer that must be one or more. -/
def atLeastOne (v : Value) : Checked Int := do
  let n ← int v
  if 1 ≤ n then .ok n else Checked.fail .atLeastOne

/-! ## Floats -/

/-- The exponent that ends a number: none of its digits may be missing. -/
def exponent? : List Char → Option Int
  | [] => some 0
  | e :: cs =>
    if e = 'e' ∨ e = 'E' then
      match cs with
      | '-' :: ds => digits? true ds
      | '+' :: ds => digits? false ds
      | ds => digits? false ds
    else none
where
  /-- The exponent that digits write. -/
  digits? (negative : Bool) (ds : List Char) : Option Int :=
    if ds = [] ∨ ds.any (!·.isDigit) then none
    else
      let n : Int := Digits.value ds
      some (if negative then -n else n)

/-- The float that an unsigned decimal number writes: a digit must stand before or after the
point. -/
def unsignedFloat? (negative : Bool) (cs : List Char) : Option Binary64 :=
  let whole := cs.takeWhile Char.isDigit
  let (places, rest) := match cs.dropWhile Char.isDigit with
    | '.' :: rest => (rest.takeWhile Char.isDigit, rest.dropWhile Char.isDigit)
    | rest => ([], rest)
  if whole = [] ∧ places = [] then none
  else
    (exponent? rest).map fun e =>
      Binary64.ofDecimal negative (Digits.value (whole ++ places)) (e - places.length)

/-- The float that a text writes, in words too. -/
def float? (cs : List Char) : Option Binary64 :=
  let (negative, body) := match cs with
    | '-' :: cs => (true, cs)
    | '+' :: cs => (false, cs)
    | cs => (false, cs)
  let word := String.ofList (body.map Char.toLower)
  if word = "inf" ∨ word = "infinity" then some (.infinite negative)
  else if word = "nan" then some .nan
  else unsignedFloat? negative body

/-- Checks a float that a text writes. -/
def floatOfText (s : String) : Checked Binary64 :=
  match float? (trim s.toList) with
  | some x => .ok x
  | none =>
    match (withoutUnderscores? s.toList).bind float? with
    | some x => .ok x
    | none => Checked.fail .floatParsing

/-- Checks a float; an integer beyond every float is none. -/
def float : Value → Checked Binary64
  | .float x => .ok x
  | .int n =>
    match Binary64.ofInt n with
    | .infinite _ => Checked.fail .floatType
    | x => .ok x
  | .bool b => .ok (Binary64.ofInt (if b then 1 else 0))
  | .string t => (whole t).bind floatOfText
  | _ => Checked.fail .floatType

/-- Checks a float that must be above zero. -/
def aboveZero (v : Value) : Checked Binary64 := do
  let x ← float v
  if (Binary64.zero false).lt x then .ok x else Checked.fail .aboveZero

/-! ## Texts and lists -/

/-- Checks a text of any code points. -/
def text : Value → Checked Text
  | .string t => .ok t
  | _ => Checked.fail .stringType

/-- Checks a text that must not be empty, in which no half of a pair stands alone. -/
def someText : Value → Checked Text
  | .string t => do
    let s ← whole t
    if s = "" then Checked.fail .stringTooShort else .ok t
  | _ => Checked.fail .stringType

/-- Checks a list of texts. -/
def texts : Value → Checked (List Text)
  | .list vs => Checked.items text 0 vs
  | _ => Checked.fail .listType

/-- Checks something that may be null. -/
def optional {α : Type} (check : Value → Checked α) : Value → Checked (Option α)
  | .null => .ok none
  | v => (check v).map some

end CommandRelay.Lenient
