import CommandRelay.Text.Utf8

/-! # UTF-16 and UTF-32

Both orders of both widths, with lone surrogate halves let through. A byte order mark is handled
by the caller, which passes the number of bytes it skipped as the first position. -/

namespace CommandRelay

/-- The order of the bytes within one unit. -/
inductive Endian where
  | little
  | big
  deriving DecidableEq, Repr

/-- The tag that ends the name of an encoding. -/
def Endian.tag : Endian → String
  | .little => "le"
  | .big => "be"

/-- The number that bytes in the given order write. -/
def Endian.number (order : Endian) (bytes : Bytes) : Nat :=
  let digits := match order with
    | .little => bytes.reverse
    | .big => bytes
  digits.foldl (fun n b => n * 256 + b.toNat) 0

/-- The bytes of a number, `width` of them in the given order. -/
def Endian.bytes (order : Endian) (width n : Nat) : Bytes :=
  let digits := (List.range width).map fun i => UInt8.ofNat (n >>> (8 * i))
  match order with
  | .little => digits
  | .big => digits.reverse

namespace Utf16

/-- Decodes two-byte units; a pair of halves gives one scalar value, a lone half stays. -/
def decodeFrom (order : Endian) (position : Nat) (bytes : Bytes) : Except DecodeError Text :=
  match bytes with
  | [] => .ok []
  | [b] => .error ⟨"utf-16-" ++ order.tag, [b], position, .truncated⟩
  | a :: b :: rest =>
    let p := (Point.ofCode? (order.number [a, b])).getD (.char '\uFFFD')
    match rest with
    | c :: d :: rest' =>
      let q := (Point.ofCode? (order.number [c, d])).getD (.char '\uFFFD')
      if p.isHigh && q.isLow then
        (decodeFrom order (position + 4) rest').map (p.join q :: ·)
      else (decodeFrom order (position + 2) (c :: d :: rest')).map (p :: ·)
    | rest => (decodeFrom order (position + 2) rest).map (p :: ·)
termination_by bytes.length
decreasing_by all_goals simp_all; try omega

/-- The two-byte units of a text. -/
def encode (order : Endian) (t : Text) : Bytes :=
  t.flatMap fun p =>
    if p.code < 0x10000 then order.bytes 2 p.code
    else
      order.bytes 2 (0xD800 + (p.code - 0x10000) / 0x400) ++
        order.bytes 2 (0xDC00 + (p.code - 0x10000) % 0x400)

end Utf16

namespace Utf32

/-- Decodes four-byte units. -/
def decodeFrom (order : Endian) (position : Nat) (bytes : Bytes) : Except DecodeError Text :=
  match bytes with
  | [] => .ok []
  | a :: b :: c :: d :: rest =>
    match Point.ofCode? (order.number [a, b, c, d]) with
    | some p => (decodeFrom order (position + 4) rest).map (p :: ·)
    | none => .error ⟨"utf-32-" ++ order.tag, [a, b, c, d], position, .beyondRange⟩
  | span => .error ⟨"utf-32-" ++ order.tag, span, position, .truncated⟩

/-- The four-byte units of a text. -/
def encode (order : Endian) (t : Text) : Bytes :=
  t.flatMap fun p => order.bytes 4 p.code

end Utf32

end CommandRelay
