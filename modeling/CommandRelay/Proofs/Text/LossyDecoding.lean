import CommandRelay.Proofs.Text.Utf8RoundTrip

/-!
# Decoding in parts

No sequence of UTF-8, not even a malformed one, goes on behind a byte below 0x80. So bytes that are
cut behind such a byte can be decoded part by part, whatever is malformed in them
(`decodeLossyChars_append`). Of the encoding of a string nothing is replaced
(`decodeLossy_ofString`).
-/

namespace CommandRelay.Utf8

/-- How many bytes the sequence at the front takes. -/
def Next.length : Next → Nat
  | .scalar _ n | .malformed n _ => n

/-- What a lenient reader makes of the sequence at the front. -/
def Next.shown : Next → Char
  | .scalar c _ => c
  | .malformed .. => '\uFFFD'

theorem decodeLossyChars_nil : decodeLossyChars [] = [] := by
  rw [decodeLossyChars]

theorem decodeLossyChars_cons (lead : UInt8) (rest : Bytes) :
    decodeLossyChars (lead :: rest) = (next lead rest).shown ::
      decodeLossyChars (rest.drop ((next lead rest).length - 1)) := by
  rw [decodeLossyChars]
  cases next lead rest <;> rfl

/-- A sequence has no bytes that are not there. -/
theorem length_next_le (lead : UInt8) (rest : Bytes) :
    (next lead rest).length ≤ rest.length + 1 := by
  have h2 : (next2 lead rest).length ≤ rest.length + 1 := by
    cases rest with
    | nil => exact Nat.le_refl 1
    | cons b rest =>
        rw [next2]
        split <;> simp [Next.length]
  have h3 : (next3 lead rest).length ≤ rest.length + 1 := by
    rcases rest with - | ⟨b, - | ⟨c, rest⟩⟩
    · exact Nat.le_refl 1
    · rw [next3]
      split <;> simp [Next.length]
    · simp only [next3]
      split
      · split <;> simp [Next.length]
      · simp [Next.length]
  have h4 : (next4 lead rest).length ≤ rest.length + 1 := by
    rcases rest with - | ⟨b, - | ⟨c, - | ⟨d, rest⟩⟩⟩
    · exact Nat.le_refl 1
    · rw [next4]
      split <;> simp [Next.length]
    · simp only [next4]
      split
      · split <;> simp [Next.length]
      · simp [Next.length]
    · simp only [next4]
      split
      · split
        · split <;> simp [Next.length]
        · simp [Next.length]
      · simp [Next.length]
  have h1 {fault : DecodeFault} : (Next.malformed 1 fault).length ≤ rest.length + 1 :=
    Nat.le_add_left 1 _
  unfold next
  split
  · exact Nat.le_add_left 1 _
  · split
    · exact h1
    · split
      · exact h2
      · split
        · exact h3
        · split
          · exact h4
          · exact h1

/-- Bytes after which a new sequence begins: the last of them is below 0x80. -/
def IsSettled (bytes : Bytes) : Prop :=
  ∀ b ∈ bytes.getLast?, b < 0x80

theorem IsSettled.drop {bytes : Bytes} (h : IsSettled bytes) (n : Nat) :
    IsSettled (bytes.drop n) := by
  intro b hb
  rw [List.getLast?_drop] at hb
  split at hb
  · cases hb
  · exact h b hb

theorem IsSettled.tail {lead : UInt8} {rest : Bytes} (h : IsSettled (lead :: rest)) :
    IsSettled rest :=
  h.drop 1

/-- A byte that continues a sequence is not the last one of settled bytes. -/
theorem IsSettled.not_continuation {b : UInt8} (h : IsSettled [b]) : isContinuation b = false := by
  have hb : b < 0x80 := h b rfl
  simp only [isContinuation, Bool.and_eq_false_iff, decide_eq_false_iff_not]
  exact .inl (UInt8.not_le.mpr hb)

/-- What stands at the front of settled bytes is not changed by what follows them. -/
theorem next_append {lead : UInt8} {rest : Bytes} (h : IsSettled (lead :: rest)) (back : Bytes) :
    next lead (rest ++ back) = next lead rest := by
  unfold next
  by_cases hlead : lead < 0x80
  · rw [if_pos hlead, if_pos hlead]
  rw [if_neg hlead, if_neg hlead]
  rcases rest with - | ⟨b, rest⟩
  · exact absurd (h lead rfl) hlead
  have h2 : next2 lead (b :: rest ++ back) = next2 lead (b :: rest) := rfl
  have h3 : next3 lead (b :: rest ++ back) = next3 lead (b :: rest) := by
    rcases rest with - | ⟨c, rest⟩
    · simp [next3, admits3, h.tail.not_continuation]
    · rfl
  have h4 : next4 lead (b :: rest ++ back) = next4 lead (b :: rest) := by
    rcases rest with - | ⟨c, - | ⟨d, rest⟩⟩
    · simp [next4, admits4, h.tail.not_continuation]
    · simp [next4, h.tail.tail.not_continuation]
    · rfl
  rw [h2, h3, h4]

/-- Behind a byte below 0x80, decoding begins anew. -/
theorem decodeLossyChars_append {front : Bytes} (h : IsSettled front) (back : Bytes) :
    decodeLossyChars (front ++ back) = decodeLossyChars front ++ decodeLossyChars back := by
  have hstep {lead : UInt8} {rest : Bytes} (h : IsSettled (lead :: rest)) {n : Nat}
      (hn : (next lead rest).length = n)
      (ih : decodeLossyChars (rest.drop (n - 1) ++ back) =
        decodeLossyChars (rest.drop (n - 1)) ++ decodeLossyChars back) :
      decodeLossyChars (lead :: rest ++ back) =
        decodeLossyChars (lead :: rest) ++ decodeLossyChars back := by
    have hle := length_next_le lead rest
    have hdrop : (rest ++ back).drop (n - 1) = rest.drop (n - 1) ++ back :=
      List.drop_append_of_le_length (by omega)
    rw [List.cons_append, decodeLossyChars_cons, next_append h, hn, hdrop, ih,
      decodeLossyChars_cons lead rest, hn, List.cons_append]
  induction front using decodeLossyChars.induct with
  | case1 => rw [decodeLossyChars_nil, List.nil_append, List.nil_append]
  | case2 lead rest c n hnext ih => exact hstep h (by rw [hnext]; rfl) (ih (h.tail.drop _))
  | case3 lead rest n fault hnext ih => exact hstep h (by rw [hnext]; rfl) (ih (h.tail.drop _))

/-- In the encoding of a string nothing is malformed. -/
theorem decodeLossy_ofString (s : String) : decodeLossy (Bytes.ofString s) = s := by
  have hchars (cs : List Char) :
      decodeLossyChars (cs.flatMap String.utf8EncodeChar) = cs := by
    induction cs with
    | nil => exact decodeLossyChars_nil
    | cons c cs ih =>
        obtain ⟨lead, more, hc, hnext⟩ := next_utf8EncodeChar c (cs.flatMap String.utf8EncodeChar)
        rw [List.flatMap_cons, hc, List.cons_append, decodeLossyChars_cons, hnext]
        simp [Next.shown, Next.length, ih]
  rw [decodeLossy, Bytes.ofString, hchars, String.ofList_toList]

end CommandRelay.Utf8
