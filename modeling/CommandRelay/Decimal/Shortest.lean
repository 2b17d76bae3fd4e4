import CommandRelay.Decimal.Binary64

/-! # Shortest decimal texts

A finite number is written with the fewest digits that read back as that number; of several such
texts the nearest one is taken. `Shortest.digits` computes them exactly, and `NumberLayout` says
how digits and the position of the point become a text. -/

namespace CommandRelay

/-- Digits with the position of the decimal point: the number is `0.d₁d₂… * 10 ^ point`. -/
structure DecimalDigits where
  digits : List Char
  point : Int
  deriving DecidableEq, Repr

namespace Shortest

/-- Numerator and denominator of `n * 2 ^ e`. -/
def binaryQuotient (n : Nat) (e : Int) : Nat × Nat :=
  if 0 ≤ e then (n <<< e.toNat, 1) else (n, 1 <<< (-e).toNat)

/-- Numerator and denominator of `n * 10 ^ e`. -/
def decimalQuotient (n : Nat) (e : Int) : Nat × Nat :=
  if 0 ≤ e then (n * Nat.pow 10 e.toNat, 1) else (n, Nat.pow 10 (-e).toNat)

/-- Order of two quotients. -/
def quotientLt (a b : Nat × Nat) : Bool :=
  a.1 * b.2 < b.1 * a.2

/-- The least `point`, counted up from `start`, such that the quotient is below `10 ^ point`. -/
def pointFrom (q : Nat × Nat) (start : Int) : Nat → Int
  | 0 => start
  | fuel + 1 =>
    if quotientLt q (decimalQuotient 1 start) then start else pointFrom q (start + 1) fuel

/-- The position of the decimal point of a positive quotient. -/
def pointOf (q : Nat × Nat) : Int :=
  let guess : Int := ((q.1.log2 : Int) - q.2.log2) * 30103 / 100000 - 1
  pointFrom q guess 6

/-- The numbers that round to a positive number, as an interval of quotients. -/
structure Interval where
  low : Nat × Nat
  high : Nat × Nat
  closed : Bool

/-- Whether a quotient lies in an interval. -/
def Interval.contains (i : Interval) (q : Nat × Nat) : Bool :=
  if i.closed then !quotientLt q i.low && !quotientLt i.high q
  else quotientLt i.low q && quotientLt q i.high

/-- The interval of `significand * 2 ^ exponent`: half a step to either side, the lower step being
half as long where the exponent changes. -/
def intervalOf (significand : Nat) (exponent : Int) : Interval :=
  let below := if significand = 1 <<< 52 ∧ Binary64.leastExponent < exponent then 1 else 2
  { low := binaryQuotient (4 * significand - below) (exponent - 2)
    high := binaryQuotient (4 * significand + 2) (exponent - 2)
    closed := significand % 2 == 0 }

/-- Of the two neighbours of `q` on the grid of `10 ^ step`, the nearest one that `i` holds. -/
def onGrid? (i : Interval) (q : Nat × Nat) (step : Int) : Option Nat :=
  let (num, den) := decimalQuotient 1 step
  let below := q.1 * den / (q.2 * num)
  let rest := q.1 * den % (q.2 * num)
  let above := below + 1
  let fits (n : Nat) : Bool := i.contains (decimalQuotient n step)
  let upward := decide (q.2 * num < 2 * rest) || (q.2 * num == 2 * rest && below % 2 == 1)
  match fits below, fits above with
  | true, true => some (if upward then above else below)
  | true, false => some below
  | false, true => some above
  | false, false => none

/-- Tries `count`, `count + 1`, … digits. -/
def search (i : Interval) (q : Nat × Nat) (point : Int) : Nat → Nat → Nat × Int
  | _, 0 => (0, point)
  | count, fuel + 1 =>
    let step := point - count
    match onGrid? i q step with
    | some n => (n, step)
    | none => search i q point (count + 1) fuel

/-- The digits of a number without the zeros at its end. -/
def trimZeros (cs : List Char) : List Char :=
  (cs.reverse.dropWhile (· == '0')).reverse

/-- The fewest digits that read back as `significand * 2 ^ exponent`, for a positive number. -/
def digits (significand : Nat) (exponent : Int) : DecimalDigits :=
  if significand = 0 then ⟨['0'], 1⟩
  else
    let q := binaryQuotient significand exponent
    let (n, step) := search (intervalOf significand exponent) q (pointOf q) 1 17
    let all := Nat.toDigits 10 n
    ⟨trimZeros all, step + all.length⟩

end Shortest

/-- How digits become a text: between which positions of the point no exponent is written, how
many digits an exponent has at least, and the names of what is no finite number. -/
structure NumberLayout where
  pointAbove : Int
  pointUpTo : Int
  exponentWidth : Nat
  nan : String
  infinity : String

namespace NumberLayout

/-- Digits without an exponent; an integral number ends in `.0`. -/
def positional (d : DecimalDigits) : List Char :=
  let count : Int := d.digits.length
  if d.point ≤ 0 then '0' :: '.' :: List.replicate (-d.point).toNat '0' ++ d.digits
  else if count ≤ d.point then
    d.digits ++ List.replicate (d.point - count).toNat '0' ++ ['.', '0']
  else d.digits.take d.point.toNat ++ '.' :: d.digits.drop d.point.toNat

/-- Digits with a signed exponent. -/
def scientific (l : NumberLayout) (d : DecimalDigits) : List Char :=
  let e := d.point - 1
  let digits := Nat.toDigits 10 e.natAbs
  let mantissa := match d.digits with
    | [] => []
    | [c] => [c]
    | c :: rest => c :: '.' :: rest
  mantissa ++ 'e' :: (if e < 0 then '-' else '+') ::
    List.replicate (l.exponentWidth - digits.length) '0' ++ digits

/-- The text of a number. -/
def render (l : NumberLayout) : Binary64 → String
  | .nan => l.nan
  | .infinite negative => if negative then "-" ++ l.infinity else l.infinity
  | .finite negative m e =>
    let d := Shortest.digits m e
    let body :=
      if l.pointAbove < d.point && d.point ≤ l.pointUpTo then positional d else l.scientific d
    String.ofList (if negative then '-' :: body else body)

/-- Numbers in messages: positional from `0.0001` up to sixteen integral digits. -/
def plain : NumberLayout := ⟨-4, 16, 2, "nan", "inf"⟩

end NumberLayout

end CommandRelay
