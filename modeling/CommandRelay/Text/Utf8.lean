import CommandRelay.Text.Escape

/-! # UTF-8

Encoding stops at a surrogate half, unless it is one of those that stand for bytes. Decoding reads
one sequence at a time. `Utf8.next` looks at the front of the bytes and either gives a scalar value
with the length of its sequence, or says how many bytes are malformed and why; the malformed span
is the longest one that could still have begun a sequence. The strict reader stops at the first such
span, the lenient one writes U+FFFD for each of them, and the third one lets the three bytes of a
lone surrogate half through. -/

namespace CommandRelay

/-- A sequence of octets. -/
abbrev Bytes := List UInt8

namespace Bytes

/-- The UTF-8 encoding of a string. -/
def ofString (s : String) : Bytes :=
  s.toList.flatMap String.utf8EncodeChar

end Bytes

/-- Why a span of bytes is no part of an encoded text. -/
inductive DecodeFault where
  | invalidStart
  | invalidContinuation
  | unexpectedEnd
  | truncated
  | beyondRange
  deriving DecidableEq, Repr

/-- The wording of a decoding fault. -/
def DecodeFault.message : DecodeFault → String
  | .invalidStart => "invalid start byte"
  | .invalidContinuation => "invalid continuation byte"
  | .unexpectedEnd => "unexpected end of data"
  | .truncated => "truncated data"
  | .beyondRange => "code point not in range(0x110000)"

/-- A failed decoding: the encoding, the bytes at fault and the position of the first of them. -/
structure DecodeError where
  encoding : String
  span : Bytes
  position : Nat
  fault : DecodeFault
  deriving DecidableEq, Repr

/-- Two lower-case hexadecimal digits. -/
def hexByte (b : UInt8) : String :=
  String.ofList [Nat.digitChar (b.toNat / 16), Nat.digitChar (b.toNat % 16)]

/-- One byte is quoted, several are given by their first and last position. -/
def DecodeError.message (e : DecodeError) : String :=
  let what := match e.span with
    | [b] => s!"byte 0x{hexByte b} in position {e.position}"
    | span => s!"bytes in position {e.position}-{e.position + span.length - 1}"
  s!"'{e.encoding}' codec can't decode {what}: {e.fault.message}"

/-- A failed encoding: the surrogate halves at fault and the position of the first of them. -/
structure EncodeError where
  span : Text
  position : Nat
  deriving DecidableEq, Repr

/-- One half is quoted, several are given by their first and last position. -/
def EncodeError.message (e : EncodeError) : String :=
  let what := match e.span with
    | [p] => "character '" ++ String.ofList p.escape ++ s!"' in position {e.position}"
    | span => s!"characters in position {e.position}-{e.position + span.length - 1}"
  s!"'utf-8' codec can't encode {what}: surrogates not allowed"

namespace Utf8

/-! ## Encoding -/

/-- The byte that a surrogate half stands for in a file name that is no UTF-8. -/
def escapedByte? (offset : Fin 0x800) : Option UInt8 :=
  if 0x480 ≤ offset.val ∧ offset.val < 0x500 then some (UInt8.ofNat (offset.val - 0x400)) else none

/-- Encodes points; `escapes` says whether halves may stand for bytes, and `position` counts the
points before `t`. -/
def encodeFrom (escapes : Bool) (position : Nat) : Text → Except EncodeError Bytes
  | [] => .ok []
  | .char c :: t => (encodeFrom escapes (position + 1) t).map (String.utf8EncodeChar c ++ ·)
  | .half offset :: t =>
    match if escapes then escapedByte? offset else none with
    | some b => (encodeFrom escapes (position + 1) t).map (b :: ·)
    | none => .error ⟨.half offset :: t.takeWhile Point.isHalf, position⟩

/-- Encodes a text, a surrogate half being an error. -/
def encode (t : Text) : Except EncodeError Bytes :=
  encodeFrom false 0 t

/-- Encodes a name that the system is given. -/
def encodeName (t : Text) : Except EncodeError Bytes :=
  encodeFrom true 0 t

/-- Encodes a text, surrogate halves being written by their numbers. -/
def encodeShown (t : Text) : Bytes :=
  (t.escapeUnless fun _ => true).flatMap String.utf8EncodeChar

/-! ## Decoding -/

/-- A byte of the form 10xxxxxx. -/
def isContinuation (b : UInt8) : Bool :=
  0x80 ≤ b && b < 0xC0

/-- The six payload bits of a continuation byte. -/
def payload (b : UInt8) : Nat :=
  b.toNat % 64

/-- What stands at the front of a sequence of bytes. -/
inductive Next where
  | scalar (c : Char) (length : Nat)
  | malformed (length : Nat) (fault : DecodeFault)
  deriving DecidableEq, Repr

/-- The second byte that a three-byte lead admits: no overlong form and no surrogate half. -/
def admits3 (lead second : UInt8) : Bool :=
  isContinuation second &&
    !(lead == 0xE0 && second < 0xA0) && !(lead == 0xED && 0xA0 ≤ second)

/-- The second byte that a four-byte lead admits: no overlong form and nothing past U+10FFFF. -/
def admits4 (lead second : UInt8) : Bool :=
  isContinuation second &&
    !(lead == 0xF0 && second < 0x90) && !(lead == 0xF4 && 0x90 ≤ second)

/-- A sequence of two bytes. -/
def next2 (lead : UInt8) : Bytes → Next
  | [] => .malformed 1 .unexpectedEnd
  | b :: _ =>
    if isContinuation b then .scalar (Char.ofNat (lead.toNat % 32 * 64 + payload b)) 2
    else .malformed 1 .invalidContinuation

/-- A sequence of three bytes. -/
def next3 (lead : UInt8) : Bytes → Next
  | [] => .malformed 1 .unexpectedEnd
  | b :: rest =>
    if admits3 lead b then
      match rest with
      | [] => .malformed 2 .unexpectedEnd
      | c :: _ =>
        if isContinuation c then
          .scalar (Char.ofNat (lead.toNat % 16 * 4096 + payload b * 64 + payload c)) 3
        else .malformed 2 .invalidContinuation
    else .malformed 1 .invalidContinuation

/-- A sequence of four bytes. -/
def next4 (lead : UInt8) : Bytes → Next
  | [] => .malformed 1 .unexpectedEnd
  | b :: rest =>
    if admits4 lead b then
      match rest with
      | [] => .malformed 2 .unexpectedEnd
      | c :: rest =>
        if isContinuation c then
          match rest with
          | [] => .malformed 3 .unexpectedEnd
          | d :: _ =>
            if isContinuation d then
              .scalar (Char.ofNat
                (lead.toNat % 8 * 262144 + payload b * 4096 + payload c * 64 + payload d)) 4
            else .malformed 3 .invalidContinuation
        else .malformed 2 .invalidContinuation
    else .malformed 1 .invalidContinuation

/-- The sequence at the front of `lead :: rest`. -/
def next (lead : UInt8) (rest : Bytes) : Next :=
  if lead < 0x80 then .scalar (Char.ofNat lead.toNat) 1
  else if lead < 0xC2 then .malformed 1 .invalidStart
  else if lead < 0xE0 then next2 lead rest
  else if lead < 0xF0 then next3 lead rest
  else if lead < 0xF5 then next4 lead rest
  else .malformed 1 .invalidStart

/-- The surrogate half whose three bytes stand at the front, if one does. -/
def half? : Bytes → Option Point
  | a :: b :: c :: _ =>
    if a = 0xED ∧ 0xA0 ≤ b ∧ isContinuation b ∧ isContinuation c then
      Point.ofCode? (0xD000 + payload b * 64 + payload c)
    else none
  | _ => none

/-- Decodes bytes into points; `halves` lets surrogate halves through, and `position` counts the
bytes before `bytes`. -/
def decodeFrom (halves : Bool) (position : Nat) (bytes : Bytes) : Except DecodeError Text :=
  match bytes with
  | [] => .ok []
  | lead :: rest =>
    match next lead rest with
    | .scalar c n =>
      (decodeFrom halves (position + n) (rest.drop (n - 1))).map (.char c :: ·)
    | .malformed n fault =>
      match if halves then half? bytes else none with
      | some p => (decodeFrom halves (position + 3) (rest.drop 2)).map (p :: ·)
      | none => .error ⟨"utf-8", bytes.take n, position, fault⟩
termination_by bytes.length
decreasing_by all_goals simp only [List.length_cons, List.length_drop]; omega

/-- Decodes bytes, a surrogate half being an error like any other malformed span. -/
def decode (bytes : Bytes) : Except DecodeError Text :=
  decodeFrom false 0 bytes

/-- The surrogate half that stands for a byte in a file name that is no UTF-8. -/
def escapingHalf (b : UInt8) : Point :=
  .half ⟨0x400 + b.toNat, by have := b.toNat_lt; omega⟩

/-- Decodes a name that the system gives; the bytes that are no UTF-8 become halves. -/
def decodeName (bytes : Bytes) : Text :=
  match bytes with
  | [] => []
  | lead :: rest =>
    match next lead rest with
    | .scalar c n => .char c :: decodeName (rest.drop (n - 1))
    | .malformed .. => escapingHalf lead :: decodeName rest
termination_by bytes.length
decreasing_by all_goals simp only [List.length_cons, List.length_drop]; omega

/-- Decodes bytes, each malformed span giving one U+FFFD. -/
def decodeLossyChars (bytes : Bytes) : List Char :=
  match bytes with
  | [] => []
  | lead :: rest =>
    match next lead rest with
    | .scalar c n => c :: decodeLossyChars (rest.drop (n - 1))
    | .malformed n _ => '\uFFFD' :: decodeLossyChars (rest.drop (n - 1))
termination_by bytes.length
decreasing_by all_goals simp only [List.length_cons, List.length_drop]; omega

/-- The string of `decodeLossyChars`. -/
def decodeLossy (bytes : Bytes) : String :=
  String.ofList (decodeLossyChars bytes)

end Utf8

end CommandRelay
