/-! # Digits

The number that digits write, and the limit on the decimal digits of an integer. -/

namespace CommandRelay.Digits

/-- The value of a digit in a base up to sixteen. -/
def digitValue (c : Char) : Nat :=
  if c.isDigit then c.toNat - '0'.toNat
  else if 'a' ≤ c ∧ c ≤ 'f' then c.toNat - 'a'.toNat + 10
  else c.toNat - 'A'.toNat + 10

/-- The number that digits write in a base. -/
def valueIn (base : Nat) (cs : List Char) : Nat :=
  cs.foldl (fun n c => n * base + digitValue c) 0

/-- The number that decimal digits write. -/
def value (cs : List Char) : Nat :=
  valueIn 10 cs

/-- The greatest number of digits that an integer may have. -/
def limit : Nat := 4300

/-- The wording of a refused integer. -/
def tooLongMessage (digits : Nat) : String :=
  s!"Exceeds the limit ({limit} digits) for integer string conversion: " ++
    s!"value has {digits} digits; use sys.set_int_max_str_digits() to increase the limit"

end CommandRelay.Digits
