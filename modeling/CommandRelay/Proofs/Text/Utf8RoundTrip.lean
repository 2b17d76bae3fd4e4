import CommandRelay.Text.Utf8

/-!
# Text through UTF-8

A text in which no half of a pair stands alone is the text of a string, its encoding is that of the
string, and every reader of UTF-8 gives it back, whatever it makes of malformed bytes.
-/

namespace CommandRelay

/-- No half stands alone in a text exactly if it is the text of a string. -/
theorem Text.isWhole_iff {t : Text} : t.isWhole = true ↔ ∃ s : String, t = ofString s := by
  constructor
  · intro h
    induction t with
    | nil => exact ⟨"", rfl⟩
    | cons p t ih =>
        obtain ⟨hp, ht⟩ : p.isHalf = false ∧ isWhole t = true := by
          simpa [isWhole] using h
        obtain ⟨s, rfl⟩ := ih ht
        cases p with
        | char c => exact ⟨String.ofList (c :: s.toList), by simp [ofString]⟩
        | half offset => cases hp
  · rintro ⟨s, rfl⟩
    simp [isWhole, ofString, Point.isHalf]

namespace Utf8

/-! ## One character -/

theorem next2_continuation (lead b : UInt8) (rest : Bytes) (h : isContinuation b = true) :
    next2 lead (b :: rest) = .scalar (Char.ofNat (lead.toNat % 32 * 64 + payload b)) 2 := by
  simp [next2, h]

theorem next3_continuation (lead b c : UInt8) (rest : Bytes) (hb : admits3 lead b = true)
    (hc : isContinuation c = true) :
    next3 lead (b :: c :: rest) =
      .scalar (Char.ofNat (lead.toNat % 16 * 4096 + payload b * 64 + payload c)) 3 := by
  simp [next3, hb, hc]

theorem next4_continuation (lead b c d : UInt8) (rest : Bytes) (hb : admits4 lead b = true)
    (hc : isContinuation c = true) (hd : isContinuation d = true) :
    next4 lead (b :: c :: d :: rest) = .scalar (Char.ofNat
      (lead.toNat % 8 * 262144 + payload b * 4096 + payload c * 64 + payload d)) 4 := by
  simp [next4, hb, hc, hd]

/-- A byte of six payload bits under the mark of a continuation. -/
theorem isContinuation_ofNat (n : Nat) : isContinuation (UInt8.ofNat (n % 64 + 128)) = true := by
  have hn : n % 64 < 64 := Nat.mod_lt n (by decide)
  simp only [isContinuation, UInt8.le_iff_toNat_le, UInt8.lt_iff_toNat_lt, UInt8.toNat_ofNat',
    UInt8.toNat_ofNat, Bool.and_eq_true, decide_eq_true_eq]
  omega

theorem payload_ofNat (n : Nat) : payload (UInt8.ofNat (n % 64 + 128)) = n % 64 := by
  simp only [payload, UInt8.toNat_ofNat']
  omega

/-- The second of three bytes is admitted: the form is not overlong, and the number no half's. -/
theorem admits3_ofNat (n : Nat) (hlong : 0x7FF < n) (htop : n < 0x10000)
    (hhalf : n < 0xD800 ∨ 0xDFFF < n) :
    admits3 (UInt8.ofNat (n / 4096 % 16 + 224)) (UInt8.ofNat (n / 64 % 64 + 128)) = true := by
  simp only [admits3, isContinuation_ofNat, Bool.true_and, Bool.and_eq_true, Bool.not_eq_true',
    Bool.and_eq_false_iff, beq_eq_false_iff_ne, ne_eq, ← UInt8.toNat_inj, decide_eq_false_iff_not,
    UInt8.lt_iff_toNat_lt, UInt8.le_iff_toNat_le, UInt8.toNat_ofNat', UInt8.toNat_ofNat]
  omega

/-- The second of four bytes is admitted: the form is not overlong, and the number in range. -/
theorem admits4_ofNat (n : Nat) (hlong : 0xFFFF < n) (htop : n < 0x110000) :
    admits4 (UInt8.ofNat (n / 262144 % 8 + 240)) (UInt8.ofNat (n / 4096 % 64 + 128)) = true := by
  simp only [admits4, isContinuation_ofNat, Bool.true_and, Bool.and_eq_true, Bool.not_eq_true',
    Bool.and_eq_false_iff, beq_eq_false_iff_ne, ne_eq, ← UInt8.toNat_inj, decide_eq_false_iff_not,
    UInt8.lt_iff_toNat_lt, UInt8.le_iff_toNat_le, UInt8.toNat_ofNat', UInt8.toNat_ofNat]
  omega

/-- A lead says by its size how many bytes follow it. -/
theorem next_of_lead (n : Nat) (rest : Bytes) (hn : n < 256) :
    next (UInt8.ofNat n) rest =
      if n < 0x80 then .scalar (Char.ofNat n) 1
      else if n < 0xC2 then .malformed 1 .invalidStart
      else if n < 0xE0 then next2 (UInt8.ofNat n) rest
      else if n < 0xF0 then next3 (UInt8.ofNat n) rest
      else if n < 0xF5 then next4 (UInt8.ofNat n) rest
      else .malformed 1 .invalidStart := by
  have hlead : (UInt8.ofNat n).toNat = n := by
    rw [UInt8.toNat_ofNat', Nat.mod_eq_of_lt hn]
  simp only [next, UInt8.lt_iff_toNat_lt, hlead, UInt8.toNat_ofNat, Nat.reducePow, Nat.reduceMod]

/-- The bytes of a character begin with a lead, from which the reader takes the character. -/
theorem next_utf8EncodeChar (c : Char) (rest : Bytes) :
    ∃ lead more, String.utf8EncodeChar c = lead :: more ∧
      next lead (more ++ rest) = .scalar c (more.length + 1) := by
  have hvalid : c.toNat < 0xD800 ∨ 0xDFFF < c.toNat ∧ c.toNat < 0x110000 := c.valid
  have hscalar {m : Nat} (k : Nat) (h : m = c.toNat) :
      Next.scalar (Char.ofNat m) k = .scalar c k := by
    rw [h, Char.ofNat_toNat]
  have hv : c.val.toNat = c.toNat := rfl
  simp only [String.utf8EncodeChar, hv]
  generalize c.toNat = n at hvalid hscalar
  by_cases h1 : n ≤ 127
  · refine ⟨_, _, if_pos h1, ?_⟩
    rw [next_of_lead n _ (by omega), if_pos (by omega)]
    exact hscalar 1 rfl
  by_cases h2 : n ≤ 2047
  · refine ⟨_, _, (if_neg h1).trans (if_pos h2), ?_⟩
    rw [next_of_lead _ _ (by omega), if_neg (by omega), if_neg (by omega), if_pos (by omega)]
    refine (next2_continuation _ _ _ (isContinuation_ofNat n)).trans (hscalar 2 ?_)
    rw [payload_ofNat, UInt8.toNat_ofNat']
    omega
  by_cases h3 : n ≤ 65535
  · refine ⟨_, _, (if_neg h1).trans ((if_neg h2).trans (if_pos h3)), ?_⟩
    rw [next_of_lead _ _ (by omega), if_neg (by omega), if_neg (by omega), if_neg (by omega),
      if_pos (by omega)]
    refine (next3_continuation _ _ _ _ (admits3_ofNat n (by omega) (by omega) (by omega))
      (isContinuation_ofNat n)).trans (hscalar 3 ?_)
    rw [payload_ofNat, payload_ofNat, UInt8.toNat_ofNat']
    omega
  · refine ⟨_, _, (if_neg h1).trans ((if_neg h2).trans (if_neg h3)), ?_⟩
    rw [next_of_lead _ _ (by omega), if_neg (by omega), if_neg (by omega), if_neg (by omega),
      if_neg (by omega), if_pos (by omega)]
    refine (next4_continuation _ _ _ _ _ (admits4_ofNat n (by omega) (by omega))
      (isContinuation_ofNat _) (isContinuation_ofNat n)).trans (hscalar 4 ?_)
    rw [payload_ofNat, payload_ofNat, payload_ofNat, UInt8.toNat_ofNat']
    omega

/-! ## Whole texts -/

theorem decodeFrom_append (halves : Bool) (position : Nat) (c : Char) (rest : Bytes) :
    ∃ position', decodeFrom halves position (String.utf8EncodeChar c ++ rest) =
      (decodeFrom halves position' rest).map (.char c :: ·) := by
  obtain ⟨lead, more, hc, hnext⟩ := next_utf8EncodeChar c rest
  refine ⟨position + (more.length + 1), ?_⟩
  rw [hc, List.cons_append, decodeFrom, hnext]
  simp

/-- A reader takes a text back from its bytes. -/
theorem decodeFrom_ofString (halves : Bool) (position : Nat) (s : String) :
    decodeFrom halves position (Bytes.ofString s) = .ok (Text.ofString s) := by
  unfold Bytes.ofString Text.ofString
  induction s.toList generalizing position with
  | nil => simp [decodeFrom]
  | cons c cs ih =>
      obtain ⟨position', h⟩ := decodeFrom_append halves position c
        (cs.flatMap String.utf8EncodeChar)
      rw [List.flatMap_cons, h, ih]
      rfl

/-- The text of a string has the bytes of the string. -/
theorem encodeFrom_ofString (escapes : Bool) (position : Nat) (s : String) :
    encodeFrom escapes position (Text.ofString s) = .ok (Bytes.ofString s) := by
  unfold Bytes.ofString Text.ofString
  induction s.toList generalizing position with
  | nil => rfl
  | cons c cs ih =>
      rw [List.map_cons, encodeFrom, ih]
      rfl

theorem encode_ofString (s : String) : encode (Text.ofString s) = .ok (Bytes.ofString s) :=
  encodeFrom_ofString false 0 s

end Utf8

end CommandRelay
