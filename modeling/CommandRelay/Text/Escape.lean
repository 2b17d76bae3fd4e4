import CommandRelay.Text.Point

/-! # Escapes

A code point that must not stand as it is can be written by its number, with the fewest of two, four
or eight hexadecimal digits that hold it. -/

namespace CommandRelay

/-- The last `width` hexadecimal digits of a number, in lower case. -/
def hexDigits (width n : Nat) : List Char :=
  (List.range width).reverse.map fun i => Nat.digitChar ((n >>> (4 * i)) % 16)

/-- A code point by its number. -/
def Point.escape (p : Point) : List Char :=
  if p.code < 0x100 then '\\' :: 'x' :: hexDigits 2 p.code
  else if p.code < 0x10000 then '\\' :: 'u' :: hexDigits 4 p.code
  else '\\' :: 'U' :: hexDigits 8 p.code

namespace Text

/-- A text in which only the points of a kind stand as they are. -/
def escapeUnless (stands : Char → Bool) (t : Text) : List Char :=
  t.flatMap fun p =>
    match p with
    | .char c => if stands c then [c] else p.escape
    | .half _ => p.escape

end Text

end CommandRelay
