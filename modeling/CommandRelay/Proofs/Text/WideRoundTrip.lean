import CommandRelay.Proofs.Document.JsonScalars
import CommandRelay.Proofs.Text.Utf8RoundTrip
import CommandRelay.Text.Wide
import Mathlib.Algebra.Ring.Nat

/-!
# Text through UTF-16 and UTF-32

The bytes of a number write that number, in either order, as long as there are enough of them. So
the units of the text of a string are read back as that text, wherever they stand: a character
beyond the sixteen bits is written as a pair of halves, and the reader joins them.
-/

namespace CommandRelay

/-! ## Numbers -/

theorem Endian.number_cons (order : Endian) (width n : Nat) :
    order.number (order.bytes (width + 1) n) =
      order.number (order.bytes width (n / 256)) * 256 + n % 256 := by
  have hdigits : (List.range (width + 1)).map (fun i => UInt8.ofNat (n >>> (8 * i))) =
      UInt8.ofNat n :: (List.range width).map fun i => UInt8.ofNat ((n / 256) >>> (8 * i)) := by
    rw [List.range_succ_eq_map, List.map_cons, List.map_map]
    refine congrArg (UInt8.ofNat n :: ·) (List.map_congr_left fun i _ => ?_)
    simp only [Function.comp_apply, Nat.shiftRight_eq_div_pow, Nat.div_div_eq_div_mul]
    rw [Nat.mul_succ, Nat.add_comm, Nat.pow_add]
  cases order with
  | little | big => simp [number, bytes, hdigits, List.foldl_append]

/-- Bytes write the number that they were made of, if it is not too large for them. -/
theorem Endian.number_bytes (order : Endian) (width : Nat) {n : Nat} (h : n < 256 ^ width) :
    order.number (order.bytes width n) = n := by
  induction width generalizing n with
  | zero =>
      obtain rfl : n = 0 := by simpa using h
      cases order <;> rfl
  | succ width ih =>
      have hn : n / 256 < 256 ^ width := by
        rw [Nat.pow_succ] at h
        exact Nat.div_lt_of_lt_mul (by rwa [Nat.mul_comm])
      rw [number_cons, ih hn]
      omega

/-! ## Four bytes a point -/

theorem Point.code_lt (p : Point) : p.code < 0x110000 := by
  cases p with
  | char c =>
      have hc : c.toNat < 0xD800 ∨ 0xDFFF < c.toNat ∧ c.toNat < 0x110000 := c.valid
      rw [code]
      omega
  | half offset =>
      have ho := offset.isLt
      rw [code]
      omega

namespace Utf32

theorem decodeFrom_append (order : Endian) (position : Nat) (p : Point) (rest : Bytes) :
    decodeFrom order position (order.bytes 4 p.code ++ rest) =
      (decodeFrom order (position + 4) rest).map (p :: ·) := by
  have hnumber := order.number_bytes 4 (Nat.lt_trans p.code_lt (by decide))
  obtain ⟨a, b, c, d, hbytes⟩ : ∃ a b c d, order.bytes 4 p.code = [a, b, c, d] := by
    cases order <;> exact ⟨_, _, _, _, rfl⟩
  rw [hbytes] at hnumber ⊢
  simp only [List.cons_append, List.nil_append, decodeFrom, hnumber, Point.ofCode?_code]

/-- A reader takes a text back from its units. -/
theorem decodeFrom_encode (order : Endian) (position : Nat) (t : Text) :
    decodeFrom order position (encode order t) = .ok t := by
  unfold encode
  induction t generalizing position with
  | nil => rfl
  | cons p t ih =>
      rw [List.flatMap_cons, decodeFrom_append, ih]
      rfl

end Utf32

/-! ## Two bytes a unit -/

namespace Utf16

/-- The two bytes of a point below the sixteen bits. -/
theorem exists_bytes (order : Endian) (p : Point) (h : p.code < 0x10000) :
    ∃ a b, order.bytes 2 p.code = [a, b] ∧ Point.ofCode? (order.number [a, b]) = some p := by
  have hnumber := order.number_bytes 2 h
  obtain ⟨a, b, hbytes⟩ : ∃ a b, order.bytes 2 p.code = [a, b] := by
    cases order <;> exact ⟨_, _, rfl⟩
  rw [hbytes] at hnumber
  exact ⟨a, b, hbytes, by rw [hnumber, Point.ofCode?_code]⟩

/-- A character below the sixteen bits is one unit. -/
theorem decodeFrom_narrow (order : Endian) (position : Nat) {c : Char} (h : c.toNat < 0x10000)
    (rest : Bytes) :
    decodeFrom order position (order.bytes 2 c.toNat ++ rest) =
      (decodeFrom order (position + 2) rest).map (.char c :: ·) := by
  obtain ⟨a, b, hbytes, hpoint⟩ := exists_bytes order (.char c) h
  have hhigh : (Point.char c).isHigh = false := by
    have hc : c.toNat < 0xD800 ∨ 0xDFFF < c.toNat ∧ c.toNat < 0x110000 := c.valid
    have hcode : (Point.char c).code = c.toNat := rfl
    simp only [Point.isHigh, hcode, Bool.and_eq_false_iff, decide_eq_false_iff_not]
    omega
  rw [Point.code] at hbytes
  rw [hbytes]
  rcases rest with - | ⟨a', - | ⟨b', rest⟩⟩ <;> simp [decodeFrom, hpoint, hhigh]

/-- A character beyond the sixteen bits is a high half and a low half. -/
theorem decodeFrom_pair (order : Endian) (position : Nat) {c : Char} (h : ¬ c.toNat < 0x10000)
    (rest : Bytes) :
    decodeFrom order position (order.bytes 2 (0xD800 + (c.toNat - 0x10000) / 0x400) ++
        order.bytes 2 (0xDC00 + (c.toNat - 0x10000) % 0x400) ++ rest) =
      (decodeFrom order (position + 4) rest).map (.char c :: ·) := by
  have hc : c.toNat < 0x110000 := (Point.char c).code_lt
  let high : Point := .half ⟨(c.toNat - 0x10000) / 0x400, by omega⟩
  let low : Point := .half ⟨0x400 + (c.toNat - 0x10000) % 0x400, by omega⟩
  have hhigh : high.code = 0xD800 + (c.toNat - 0x10000) / 0x400 := rfl
  have hlow : low.code = 0xDC00 + (c.toNat - 0x10000) % 0x400 := by
    simp only [low, Point.code]
    omega
  have hjoin : high.join low = .char c := by
    have hcode : 0x10000 + (high.code - 0xD800) * 0x400 + (low.code - 0xDC00) =
        (Point.char c).code := by
      rw [hhigh, hlow, Point.code]
      omega
    rw [Point.join, hcode, Point.ofCode?_code]
    rfl
  have hmarks : high.isHigh && low.isLow := by
    simp only [Point.isHigh, Point.isLow, hhigh, hlow, Bool.and_eq_true, decide_eq_true_eq]
    omega
  obtain ⟨a, b, hfirst, hp⟩ := exists_bytes order high (by omega)
  obtain ⟨a', b', hsecond, hq⟩ := exists_bytes order low (by omega)
  rw [← hhigh, ← hlow, hfirst, hsecond]
  simp only [List.cons_append, List.nil_append]
  rw [decodeFrom, hp]
  simp only [hq, Option.getD_some, hmarks, ↓reduceIte, hjoin]

theorem decodeFrom_append (order : Endian) (position : Nat) (c : Char) (rest : Bytes) :
    ∃ position', decodeFrom order position (encode order [.char c] ++ rest) =
      (decodeFrom order position' rest).map (.char c :: ·) := by
  rw [encode, List.flatMap_singleton, Point.code]
  split
  · rename_i h
    exact ⟨_, decodeFrom_narrow order position h rest⟩
  · rename_i h
    exact ⟨_, decodeFrom_pair order position h rest⟩

/-- A reader takes the text of a string back from its units. -/
theorem decodeFrom_ofString (order : Endian) (position : Nat) (s : String) :
    decodeFrom order position (encode order (Text.ofString s)) = .ok (Text.ofString s) := by
  unfold Text.ofString
  induction s.toList generalizing position with
  | nil => simp [encode, decodeFrom]
  | cons c cs ih =>
      obtain ⟨position', h⟩ := decodeFrom_append order position c (encode order (cs.map .char))
      have hcons : encode order ((c :: cs).map .char) =
          encode order [.char c] ++ encode order (cs.map .char) := by
        rw [encode, encode, encode, ← List.flatMap_append]
        rfl
      rw [hcons, h, ih]
      rfl

end Utf16

end CommandRelay
