import CommandRelay.Proofs.Document.JsonRoundTrip
import CommandRelay.Proofs.Text.WideRoundTrip

/-!
# Documents in other encodings

A document that comes as bytes may be written in UTF-8, UTF-16 or UTF-32, in either order, with a
byte order mark or without one. The mark names the encoding (`decode_marked`). Without it, the zero
bytes among the first four do, if the text opens with two characters of seven bits other than zero
(`decode_unmarked`). The text of an object always does (`opens_of_document`): there is blank space
or a brace in front, and then blank space, another brace or a quote. So an object is read alike from
a text and from its bytes (`readBytes_encode`).
-/

namespace CommandRelay.Json

/-! ## Encodings -/

/-- The bytes of a text in an encoding; of the three, only UTF-8 refuses lone halves. -/
def Encoding.encode (e : Encoding) (t : Text) : Except EncodeError Bytes :=
  match e with
  | .utf8 => Utf8.encode t
  | .utf16 order => .ok (Utf16.encode order t)
  | .utf32 order => .ok (Utf32.encode order t)

/-- The text of bytes in an encoding, of which some were skipped. -/
def Encoding.read (e : Encoding) (skipped : Nat) (body : Bytes) : Except DecodeError Text :=
  match e with
  | .utf8 => Utf8.decodeFrom true 0 body
  | .utf16 order => Utf16.decodeFrom order skipped body
  | .utf32 order => Utf32.decodeFrom order skipped body

/-- The character that a text may be marked with. -/
def byteOrderMark : Point := .char '\uFEFF'

theorem decode_eq_read (bytes : Bytes) :
    decode bytes =
      let (encoding, skipped) := (mark? bytes).getD (guess bytes, 0)
      encoding.read skipped (bytes.drop skipped) := by
  unfold decode Encoding.read
  rfl

theorem decode_of_mark? {bytes : Bytes} {e : Encoding} {n : Nat} (h : mark? bytes = some (e, n)) :
    decode bytes = e.read n (bytes.drop n) := by
  rw [decode_eq_read, h]
  rfl

theorem decode_of_guess {bytes : Bytes} (h : mark? bytes = none) :
    decode bytes = (guess bytes).read 0 bytes := by
  rw [decode_eq_read, h]
  rfl

/-- The bytes of a character. -/
def Encoding.unit (e : Encoding) (c : Char) : Bytes :=
  match e with
  | .utf8 => String.utf8EncodeChar c
  | .utf16 order => Utf16.encode order [.char c]
  | .utf32 order => order.bytes 4 c.toNat

/-- The text of a string has the bytes of its characters, in every encoding. -/
theorem Encoding.encode_ofString (e : Encoding) (s : String) :
    e.encode (Text.ofString s) = .ok (s.toList.flatMap e.unit) := by
  cases e with
  | utf8 => exact Utf8.encode_ofString s
  | utf16 order =>
      have hunit : (utf16 order).unit = fun c => Utf16.encode order [.char c] := rfl
      simp [encode, hunit, Utf16.encode, Text.ofString, List.flatMap_map]
  | utf32 order =>
      have hunit : (utf32 order).unit = fun c => order.bytes 4 c.toNat := rfl
      simp [encode, hunit, Utf32.encode, Text.ofString, List.flatMap_map, Point.code]

/-- It is read back from them. -/
theorem Encoding.read_ofString (e : Encoding) (skipped : Nat) (s : String) :
    e.read skipped (s.toList.flatMap e.unit) = .ok (Text.ofString s) := by
  have hbytes := e.encode_ofString s
  cases e with
  | utf8 => exact Utf8.decodeFrom_ofString true 0 s
  | utf16 order =>
      rw [← Except.ok.inj hbytes]
      exact Utf16.decodeFrom_ofString order skipped s
  | utf32 order =>
      rw [← Except.ok.inj hbytes]
      exact Utf32.decodeFrom_encode order skipped _

/-! ## Detection -/

/-- A character of seven bits other than zero. -/
def IsSeven (c : Char) : Prop :=
  0 < c.toNat ∧ c.toNat < 0x80

instance (c : Char) : Decidable (IsSeven c) :=
  inferInstanceAs (Decidable (_ ∧ _))

/-- The bytes of such a character: one that is not zero, and zeros around it. -/
theorem IsSeven.unit_eq {c : Char} (h : IsSeven c) :
    ∃ b : UInt8, b ≠ 0 ∧ b < 0x80 ∧ ∀ e : Encoding, e.unit c = match e with
      | .utf8 => [b]
      | .utf16 .little => [b, 0]
      | .utf16 .big => [0, b]
      | .utf32 .little => [b, 0, 0, 0]
      | .utf32 .big => [0, 0, 0, b] := by
  obtain ⟨hpos, hlt⟩ := h
  have hnat : (UInt8.ofNat c.toNat).toNat = c.toNat := by
    rw [UInt8.toNat_ofNat', Nat.mod_eq_of_lt (by omega)]
  have hzero (n : Nat) : UInt8.ofNat (c.toNat >>> (8 + n)) = 0 := by
    have hsmall : c.toNat < 2 ^ (8 + n) :=
      calc
        c.toNat < 2 ^ 8 := by omega
        _ ≤ 2 ^ (8 + n) := Nat.pow_le_pow_right (by decide) (Nat.le_add_right 8 n)
    rw [Nat.shiftRight_eq_zero _ _ hsmall]
    rfl
  have hnarrow : c.toNat < 0x10000 := by omega
  refine ⟨UInt8.ofNat c.toNat, ?_, ?_, ?_⟩
  · rw [ne_eq, ← UInt8.toNat_inj, hnat]
    exact Nat.ne_of_gt hpos
  · rwa [UInt8.lt_iff_toNat_lt, hnat]
  · rintro (- | ⟨- | -⟩ | ⟨- | -⟩)
    · have hbyte : c.val.toNat ≤ 0x7F := Nat.le_of_lt_succ hlt
      rw [Encoding.unit, String.utf8EncodeChar, if_pos hbyte]
      rfl
    all_goals
      simp [Encoding.unit, Utf16.encode, Point.code, hnarrow, Endian.bytes, List.range_succ,
        hzero 0, hzero 8, hzero 16]

/-- Two such characters in front show the encoding of a text that is not marked. -/
theorem detects_unmarked (e : Encoding) {c d : Char} (hc : IsSeven c) (hd : IsSeven d)
    (rest : Bytes) :
    mark? (e.unit c ++ (e.unit d ++ rest)) = none ∧
      guess (e.unit c ++ (e.unit d ++ rest)) = e := by
  obtain ⟨a, ha, halt, hfirst⟩ := hc.unit_eq
  obtain ⟨b, hb, hblt, hsecond⟩ := hd.unit_eq
  rw [hfirst, hsecond]
  constructor
  · unfold mark?
    rcases e with - | ⟨- | -⟩ | ⟨- | -⟩ <;> split <;> simp_all
  · rcases e with - | ⟨- | -⟩ | ⟨- | -⟩
    · rcases rest with - | ⟨x, - | ⟨y, rest⟩⟩ <;> simp [guess, ha, hb]
    all_goals simp [guess, ha, hb]

/-- A byte order mark in front names the encoding. -/
theorem detects_marked (e : Encoding) {c : Char} (hc : IsSeven c) (rest : Bytes) :
    mark? (e.unit '\uFEFF' ++ (e.unit c ++ rest)) = some (e, (e.unit '\uFEFF').length) := by
  obtain ⟨a, ha, halt, hfirst⟩ := hc.unit_eq
  rw [hfirst]
  rcases e with - | ⟨- | -⟩ | ⟨- | -⟩
  · have hmark : Encoding.utf8.unit '\uFEFF' = [0xEF, 0xBB, 0xBF] := by decide
    rw [hmark]
    rfl
  · have hmark : (Encoding.utf16 .little).unit '\uFEFF' = [0xFF, 0xFE] := by decide
    rw [hmark]
    unfold mark?
    split <;> simp_all
  · have hmark : (Encoding.utf16 .big).unit '\uFEFF' = [0xFE, 0xFF] := by decide
    rw [hmark]
    rfl
  · have hmark : (Encoding.utf32 .little).unit '\uFEFF' = [0xFF, 0xFE, 0, 0] := by decide
    rw [hmark]
    rfl
  · have hmark : (Encoding.utf32 .big).unit '\uFEFF' = [0, 0, 0xFE, 0xFF] := by decide
    rw [hmark]
    rfl

/-! ## How objects open -/

/-- A text that opens with two characters of seven bits other than zero. -/
def Opens (t : Text) : Prop :=
  ∃ c d rest, t = .char c :: .char d :: rest ∧ IsSeven c ∧ IsSeven d

/-- Without a byte order mark, a text that opens like this is read back from its bytes. -/
theorem decode_unmarked (e : Encoding) {t : Text} (hwhole : t.isWhole = true) (h : Opens t) :
    ∃ bytes, e.encode t = .ok bytes ∧ decode bytes = .ok t := by
  obtain ⟨s, rfl⟩ := Text.isWhole_iff.mp hwhole
  obtain ⟨c, d, rest, ht, hc, hd⟩ := h
  obtain ⟨c', cs, hs, hc', hcs⟩ := List.map_eq_cons_iff.mp ht
  obtain ⟨d', ds, rfl, hd', -⟩ := List.map_eq_cons_iff.mp hcs
  obtain rfl := Point.char.inj hc'
  obtain rfl := Point.char.inj hd'
  refine ⟨_, e.encode_ofString s, ?_⟩
  have hread := e.read_ofString 0 s
  rw [hs, List.flatMap_cons, List.flatMap_cons] at hread ⊢
  obtain ⟨hmark, hguess⟩ := detects_unmarked e hc hd (ds.flatMap e.unit)
  rw [decode_of_guess hmark, hguess, hread]

/-- With a byte order mark, it is read back without the mark. -/
theorem decode_marked (e : Encoding) {t : Text} (hwhole : t.isWhole = true) (h : Opens t) :
    ∃ bytes, e.encode (byteOrderMark :: t) = .ok bytes ∧ decode bytes = .ok t := by
  obtain ⟨s, rfl⟩ := Text.isWhole_iff.mp hwhole
  obtain ⟨c, d, rest, ht, hc, -⟩ := h
  obtain ⟨c', cs, hs, hc', -⟩ := List.map_eq_cons_iff.mp ht
  obtain rfl := Point.char.inj hc'
  have hbytes := e.encode_ofString (String.ofList ('\uFEFF' :: s.toList))
  have htext : Text.ofString (String.ofList ('\uFEFF' :: s.toList)) =
      byteOrderMark :: Text.ofString s := by
    simp [Text.ofString, byteOrderMark]
  rw [htext, String.toList_ofList, List.flatMap_cons] at hbytes
  refine ⟨_, hbytes, ?_⟩
  have hread := e.read_ofString (e.unit '\uFEFF').length s
  have hmark := detects_marked e hc (cs.flatMap e.unit)
  rw [← List.flatMap_cons, ← hs] at hmark
  rw [decode_of_mark? hmark, List.drop_left, hread]

/-! ## Objects -/

/-- What stands behind blank space stands in front, unless there is blank space. -/
theorem exists_front_of_skipBlank {t rest : Text} {p : Point} (h : skipBlank t = p :: rest) :
    ∃ q t', t = q :: t' ∧ (isBlank q = true ∧ skipBlank t' = p :: rest ∨ q = p ∧ t' = rest) := by
  cases t with
  | nil => cases h
  | cons q t' =>
      refine ⟨q, t', rfl, ?_⟩
      rw [skipBlank, List.dropWhile_cons] at h
      split at h
      · rename_i hq
        exact .inl ⟨hq, h⟩
      · exact .inr (List.cons.inj h)

theorem exists_isSeven_of_isBlank {p : Point} (h : isBlank p = true) :
    ∃ c, p = .char c ∧ IsSeven c := by
  simp only [isBlank, Bool.or_eq_true, beq_iff_eq] at h
  rcases h with ((rfl | rfl) | rfl) | rfl <;> exact ⟨_, rfl, by decide⟩

theorem numberFrom_ne_object {negative : Bool} {whole : List Char} {t rest : Text}
    {fs : List (Text × Value)} : numberFrom negative whole t ≠ .ok (.object fs, rest) := by
  unfold numberFrom
  split
  split <;> (try split) <;> simp

/-- A word or a number is no object. -/
theorem scalar_ne_object {t rest : Text} {fs : List (Text × Value)} :
    scalar t ≠ .ok (.object fs, rest) := by
  intro h
  unfold scalar at h
  split at h
  · -- none of the words stands for an object
    rename_i found hfound
    obtain ⟨⟨w, v⟩, hw, hrest⟩ := List.exists_of_findSome?_eq_some hfound
    obtain ⟨r, -, rfl⟩ := Option.map_eq_some_iff.mp hrest
    obtain ⟨rfl, rfl⟩ := Prod.mk.inj (Except.ok.inj h)
    simp [words] at hw
  · unfold number? at h
    -- the sign is read first, and does not matter
    split at h
    split at h
    · cases h
    · exact numberFrom_ne_object h
    · exact numberFrom_ne_object h

section Except

variable {ε α β : Type} {x : Except ε α} {b : β}

theorem exists_of_map_eq_ok {f : α → β} (h : x.map f = .ok b) : ∃ a, x = .ok a ∧ f a = b := by
  cases x with
  | error e => cases h
  | ok a => exact ⟨a, rfl, Except.ok.inj h⟩

theorem exists_of_bind_eq_ok {f : α → Except ε β} (h : (x >>= f) = .ok b) :
    ∃ a, x = .ok a ∧ f a = .ok b := by
  cases x with
  | error e => cases h
  | ok a => exact ⟨a, rfl, h⟩

end Except

/-- The name of a field begins with a quote. -/
theorem front_of_fieldName {t : Text} {found : Text × Text} (h : fieldName t = .ok found) :
    ∃ rest, t = .char '"' :: rest := by
  unfold fieldName at h
  split at h
  · exact ⟨_, rfl⟩
  · cases h

theorem front_of_fields {fuel room : Nat} {before : List (Text × Value)} {t : Text}
    {found : List (Text × Value) × Text} (h : fields fuel room before t = .ok found) :
    ∃ rest, t = .char '"' :: rest := by
  cases fuel with
  | zero => cases h
  | succ fuel =>
      rw [fields] at h
      obtain ⟨⟨name, rest⟩, hname, -⟩ := exists_of_bind_eq_ok h
      exact front_of_fieldName hname

/-- An object begins with a brace; after it and blank space comes another brace or a quote. -/
theorem front_of_value {fuel room : Nat} {t rest : Text} {fs : List (Text × Value)}
    (h : value fuel room t = .ok (.object fs, rest)) :
    ∃ t', t = .char '{' :: t' ∧
      ∃ p more, skipBlank t' = p :: more ∧ (p = .char '}' ∨ p = .char '"') := by
  cases fuel with
  | zero => cases h
  | succ fuel =>
      rw [value.eq_def] at h
      dsimp only at h
      split at h
      · obtain ⟨_, _, hv⟩ := exists_of_map_eq_ok h
        cases hv
      · split at h
        · cases h
        · split at h
          · cases h
          · obtain ⟨_, _, hv⟩ := exists_of_map_eq_ok h
            cases hv
      · refine ⟨_, rfl, ?_⟩
        split at h
        · cases h
        · split at h
          · rename_i hblank
            exact ⟨_, _, hblank, .inl rfl⟩
          · obtain ⟨_, hfields, -⟩ := exists_of_map_eq_ok h
            obtain ⟨more, hmore⟩ := front_of_fields hfields
            exact ⟨_, more, hmore, .inr rfl⟩
      · exact absurd h scalar_ne_object

/-- The text of an object opens with two characters of seven bits other than zero. -/
theorem opens_of_document {t : Text} {fs : List (Text × Value)}
    (h : document t = .ok (.object fs)) : Opens t := by
  obtain ⟨⟨v, rest⟩, hvalue, hend⟩ := exists_of_bind_eq_ok h
  have hv : v = .object fs := by
    dsimp only at hend
    split at hend
    · exact Except.ok.inj hend
    · cases hend
  rw [hv] at hvalue
  obtain ⟨t', hbrace, p, more, hnext, hp⟩ := front_of_value hvalue
  have hseven : ∃ d, p = .char d ∧ IsSeven d := by
    rcases hp with rfl | rfl <;> exact ⟨_, rfl, by decide⟩
  -- the first character is blank space or the brace
  obtain ⟨q, behind, rfl, ⟨hq, hbehind⟩ | ⟨rfl, rfl⟩⟩ := exists_front_of_skipBlank hbrace
  · obtain ⟨c, rfl, hc⟩ := exists_isSeven_of_isBlank hq
    obtain ⟨q', more', rfl, ⟨hq', -⟩ | ⟨rfl, -⟩⟩ := exists_front_of_skipBlank hbehind
    · obtain ⟨d, rfl, hd⟩ := exists_isSeven_of_isBlank hq'
      exact ⟨c, d, more', rfl, hc, hd⟩
    · exact ⟨c, '{', more', rfl, hc, by decide⟩
  · obtain ⟨q, behind, rfl, ⟨hq, -⟩ | ⟨rfl, -⟩⟩ := exists_front_of_skipBlank hnext
    · obtain ⟨d, rfl, hd⟩ := exists_isSeven_of_isBlank hq
      exact ⟨'{', d, behind, rfl, by decide, hd⟩
    · obtain ⟨d, rfl, hd⟩ := hseven
      exact ⟨'{', d, behind, rfl, by decide, hd⟩

/-! ## Reading -/

theorem document_of_readDecoded {t : Text} {v : Value} (h : readDecoded t = .ok v) :
    document t = .ok v := by
  unfold readDecoded at h
  cases hdoc : document t with
  | error e =>
      rw [hdoc] at h
      cases h
  | ok w =>
      rw [hdoc] at h
      exact congrArg Except.ok (Except.ok.inj h)

theorem readDecoded_of_readText {t : Text} {v : Value} (h : readText t = .ok v) :
    readDecoded t = .ok v := by
  unfold readText at h
  split at h
  · cases h
  · exact h

/-- An object that is read from a text is read from its bytes as well, in every encoding, with and
without a byte order mark. -/
theorem readBytes_encode (e : Encoding) {t : Text} {fs : List (Text × Value)}
    (hwhole : t.isWhole = true) (h : readText t = .ok (.object fs)) :
    (∃ bytes, e.encode t = .ok bytes ∧ readBytes bytes = .ok (.object fs)) ∧
      ∃ bytes, e.encode (byteOrderMark :: t) = .ok bytes ∧
        readBytes bytes = .ok (.object fs) := by
  have hread := readDecoded_of_readText h
  have hopens := opens_of_document (document_of_readDecoded hread)
  obtain ⟨plain, hplain, hplain'⟩ := decode_unmarked e hwhole hopens
  obtain ⟨marked, hmarked, hmarked'⟩ := decode_marked e hwhole hopens
  refine ⟨⟨plain, hplain, ?_⟩, marked, hmarked, ?_⟩
  · rw [readBytes, hplain']
    exact hread
  · rw [readBytes, hmarked']
    exact hread

end CommandRelay.Json
