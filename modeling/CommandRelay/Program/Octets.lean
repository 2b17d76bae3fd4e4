import CommandRelay.Text.Utf8

/-! # Octets

What programs read and print is bytes. In a text of octets every character is a byte: the one of
the same number. Arguments and paths, which are texts, become octets by the encoding of names and
come back from them; bytes that are no UTF-8 are kept as lone halves. -/

namespace CommandRelay.Program.Octets

/-- The octets of bytes. -/
def ofBytes (data : Bytes) : String :=
  String.ofList (data.map fun b => Char.ofNat b.toNat)

/-- The bytes of octets. -/
def toBytes (s : String) : Bytes :=
  s.toList.map fun c => UInt8.ofNat c.toNat

/-- The octets of a text; a text that has no encoding has none. -/
def ofText (t : Text) : String :=
  match Utf8.encodeName t with
  | .ok bytes => ofBytes bytes
  | .error _ => ""

/-- The text of octets. -/
def toText (s : String) : Text :=
  Utf8.decodeName (toBytes s)

end CommandRelay.Program.Octets
