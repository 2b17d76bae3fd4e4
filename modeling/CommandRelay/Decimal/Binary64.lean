/-! # Binary floating-point numbers

`Binary64` holds the numbers of the 64-bit binary format exactly: a finite one is a sign, a
significand and an exponent of two. Rounding a quotient to the format and comparing two numbers
are exact computations on natural numbers, so statements about them need no trusted arithmetic.

## Implementation notes

`ofQuotient` yields canonical numbers: the significand has 53 bits unless the exponent is the
least one. The other operations do not depend on it. -/

namespace CommandRelay

/-- A number of the 64-bit binary format: `± significand * 2 ^ exponent`, or no finite number. -/
inductive Binary64 where
  | nan
  | infinite (negative : Bool)
  | finite (negative : Bool) (significand : Nat) (exponent : Int)
  deriving DecidableEq, Repr

namespace Binary64

/-- The exponent of the smallest positive number. -/
def leastExponent : Int := -1074

/-- The exponent of the largest finite number. -/
def greatestExponent : Int := 971

/-- Zero with a sign. -/
def zero (negative : Bool) : Binary64 :=
  .finite negative 0 leastExponent

/-- Numerator and denominator of `num / den / 2 ^ e`. -/
def scale (num den : Nat) (e : Int) : Nat × Nat :=
  if 0 ≤ e then (num, den <<< e.toNat) else (num <<< (-e).toNat, den)

/-- The exponent at which a positive quotient has a 53-bit integral part. -/
def exponentOf (num den : Nat) : Int :=
  let guess : Int := (num.log2 : Int) - den.log2 - 52
  let (n, d) := scale num den guess
  if n / d < 1 <<< 52 then guess - 1 else guess

/-- The nearest integer to a quotient, a tie going to the even one. -/
def roundQuotient (num den : Nat) : Nat :=
  let q := num / den
  let r := num % den
  if den < 2 * r || (den == 2 * r && q % 2 == 1) then q + 1 else q

/-- The number nearest to a quotient, a tie going to the even significand. -/
def ofQuotient (negative : Bool) (num den : Nat) : Binary64 :=
  if num = 0 then zero negative
  else
    let e := max (exponentOf num den) leastExponent
    let (n, d) := scale num den e
    let m := roundQuotient n d
    let (m, e) := if m = 1 <<< 53 then (1 <<< 52, e + 1) else (m, e)
    if greatestExponent < e then .infinite negative else .finite negative m e

/-- The number nearest to an integer. -/
def ofInt (n : Int) : Binary64 :=
  ofQuotient (n < 0) n.natAbs 1

/-- The number nearest to `± digits * 10 ^ exponent`. Far outside the range of the format the
answer does not depend on the digits. -/
def ofDecimal (negative : Bool) (digits : Nat) (exponent : Int) : Binary64 :=
  let magnitude : Int := (digits.log2 : Int) * 3 / 10 + exponent
  if digits = 0 then zero negative
  else if 400 < magnitude then .infinite negative
  else if magnitude < -400 then zero negative
  else if 0 ≤ exponent then ofQuotient negative (digits * Nat.pow 10 exponent.toNat) 1
  else ofQuotient negative digits (Nat.pow 10 (-exponent).toNat)

/-- The signed integer whose quotient by `2 ^ 1074` is the number. -/
def scaled (negative : Bool) (significand : Nat) (exponent : Int) : Int :=
  let n : Int := significand <<< (exponent - leastExponent).toNat
  if negative then -n else n

/-- Strict order; nothing is below or above `nan`, and the two zeros are equal. -/
def lt : Binary64 → Binary64 → Bool
  | .nan, _ | _, .nan => false
  | .infinite n, .infinite n' => n && !n'
  | .infinite n, .finite .. => n
  | .finite .., .infinite n => !n
  | .finite n m e, .finite n' m' e' => scaled n m e < scaled n' m' e'

/-- Whether the number is an integer, and which. -/
def toInt? : Binary64 → Option Int
  | .finite negative m e =>
    let sign (n : Nat) : Int := if negative then -(n : Int) else n
    if 0 ≤ e then some (sign (m <<< e.toNat))
    else
      let d := 1 <<< (-e).toNat
      if m % d = 0 then some (sign (m / d)) else none
  | _ => none

/-- A number strictly above zero is not below it. -/
theorem not_lt_zero_of_zero_lt {x : Binary64} (h : (zero false).lt x = true) :
    x.lt (zero false) = false := by
  cases x with
  | nan => simp [zero, lt] at h
  | infinite n => cases n <;> simp_all [zero, lt]
  | finite n m e =>
    simp only [zero, lt, decide_eq_true_eq, decide_eq_false_iff_not] at h ⊢
    omega

end Binary64

end CommandRelay
