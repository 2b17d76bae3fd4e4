import CommandRelay.Document.Json.Reader
import CommandRelay.Document.Json.Writer

/-!
# Texts and whole numbers in JSON

The reader takes a text back from the literal that was written for it, whatever stands in it, and a
whole number back from its digits, if there are not too many and the number stops behind them.
-/

namespace CommandRelay

theorem Point.ofCode?_code (p : Point) : ofCode? p.code = some p := by
  cases p with
  | char c =>
      have hv : c.toNat.isValidChar := c.valid
      rw [ofCode?, code, dif_pos hv]
      rfl
  | half offset =>
      have ho := offset.isLt
      have hv : ¬ (0xD800 + offset.val).isValidChar := by
        unfold Nat.isValidChar
        omega
      rw [ofCode?, code, dif_neg hv, dif_pos (by omega)]
      simp

namespace Json

/-! ## String literals -/

/-- A piece of a literal stands for itself, unless it is an escaped high half. -/
theorem joinHalves_cons (piece : Piece) (ps : List Piece)
    (h : piece.escaped = true → piece.point.isHigh = false) :
    joinHalves (piece :: ps) = piece.point :: joinHalves ps := by
  obtain ⟨p, _ | _⟩ := piece
  · rfl
  · obtain _ | ⟨⟨q, _ | _⟩, ps⟩ := ps
    · rfl
    · rfl
    · have hp : p.isHigh = false := h rfl
      simp [joinHalves, hp]

theorem hexDigit?_digitChar (n : Nat) (h : n < 16) :
    hexDigit? (.char (Nat.digitChar n)) = some n := by
  revert n
  decide

/-- Four hexadecimal digits are read as the point whose number they are. -/
theorem hexPoint?_hexDigits (p : Point) (h : p.code < 0x10000) :
    ∃ a b c d, hexDigits 4 p.code = [a, b, c, d] ∧ hexPoint? a b c d = some p := by
  refine ⟨_, _, _, _, rfl, ?_⟩
  have hdigit (n : Nat) : hexDigit? (.char (Nat.digitChar (n % 16))) = some (n % 16) :=
    hexDigit?_digitChar _ (Nat.mod_lt n (by decide))
  simp only [hexPoint?, hdigit, Option.bind_eq_bind, Option.bind_some, Nat.shiftRight_eq_div_pow]
  rw [← Point.ofCode?_code p]
  congr 1
  omega

theorem pieces_short (start t : Text) {e : Point} {c : Char} (h : shortEscape? e = some c) :
    pieces start (.char '\\' :: e :: t) =
      (pieces start t).map fun (ps, rest) => (⟨.char c, false⟩ :: ps, rest) := by
  have hu : e ≠ .char 'u' := by
    rintro rfl
    cases h
  rw [pieces.eq_def]
  simp [hu, h]

theorem pieces_long (start t : Text) {a b c d p : Point} (ht : t ≠ [])
    (h : hexPoint? a b c d = some p) :
    pieces start (.char '\\' :: .char 'u' :: a :: b :: c :: d :: t) =
      (pieces start t).map fun (ps, rest) => (⟨p, true⟩ :: ps, rest) := by
  rw [pieces.eq_def]
  simp [h, ht]

theorem pieces_plain (start t : Text) {p : Point} (hquote : p ≠ .char '"')
    (hslash : p ≠ .char '\\') (hcode : ¬ p.code < 0x20) :
    pieces start (p :: t) =
      (pieces start t).map fun (ps, rest) => (⟨p, false⟩ :: ps, rest) := by
  rw [pieces.eq_def]
  simp [hquote, hslash, hcode]

/-- A point that was written is read as a piece that stands for it. -/
theorem pieces_escape (start : Text) (p : Point) {t : Text} (ht : t ≠ []) :
    ∃ escaped, (escaped = true → p.isHigh = false) ∧
      pieces start (escape p ++ t) =
        (pieces start t).map fun (ps, rest) => (⟨p, escaped⟩ :: ps, rest) := by
  unfold escape
  split
  · exact ⟨false, nofun, pieces_short start t rfl⟩
  · exact ⟨false, nofun, pieces_short start t rfl⟩
  · exact ⟨false, nofun, pieces_short start t rfl⟩
  · exact ⟨false, nofun, pieces_short start t rfl⟩
  · exact ⟨false, nofun, pieces_short start t rfl⟩
  · exact ⟨false, nofun, pieces_short start t rfl⟩
  · exact ⟨false, nofun, pieces_short start t rfl⟩
  · rename_i hquote hslash _ _ _ _ _
    split
    · rename_i hcode
      refine ⟨true, fun _ => ?_, ?_⟩
      · simp only [Point.isHigh, Bool.and_eq_false_iff, decide_eq_false_iff_not]
        omega
      · obtain ⟨a, b, c, d, hdigits, hpoint⟩ := hexPoint?_hexDigits p (by omega)
        have hu : Text.ofString "\\u" = [.char '\\', .char 'u'] := rfl
        rw [hdigits, hu]
        simp only [Text.ofString, String.toList_ofList, List.map_cons, List.map_nil,
          List.cons_append, List.nil_append]
        exact pieces_long start t ht hpoint
    · rename_i hcode
      exact ⟨false, nofun, pieces_plain start t hquote hslash hcode⟩

/-- A literal that was written is read as its text. -/
theorem string_write (s rest : Text) :
    string (s.flatMap escape ++ .char '"' :: rest) = .ok (s, rest) := by
  have hpieces (start : Text) :
      ∃ ps, pieces start (s.flatMap escape ++ .char '"' :: rest) = .ok (ps, rest) ∧
        joinHalves ps = s := by
    induction s with
    | nil =>
        refine ⟨[], ?_, rfl⟩
        rw [List.flatMap_nil, List.nil_append, pieces.eq_def]
        rfl
    | cons p s ih =>
        obtain ⟨ps, hps, hjoin⟩ := ih
        obtain ⟨escaped, hescaped, hstep⟩ := pieces_escape start p
          (t := s.flatMap escape ++ .char '"' :: rest) (by simp)
        refine ⟨⟨p, escaped⟩ :: ps, ?_, ?_⟩
        · rw [List.flatMap_cons, List.append_assoc, hstep, hps]
          rfl
        · rw [joinHalves_cons _ _ hescaped, hjoin]
  obtain ⟨ps, hps, hjoin⟩ := hpieces (.char '"' :: (s.flatMap escape ++ .char '"' :: rest))
  rw [string, hps]
  exact congrArg (fun t => Except.ok (t, rest)) hjoin

/-! ## Whole numbers -/

/-- What can come after a value: nothing, or the mark that goes on in a nest or ends it. -/
def Stops (rest : Text) : Prop :=
  ∀ p ∈ rest.head?, p = .char ',' ∨ p = .char ']' ∨ p = .char '}'

theorem digits_value (n : Nat) : Digits.value (Nat.toDigits 10 n) = n := by
  have hfold (cs : List Char) (hcs : ∀ c ∈ cs, c.isDigit = true) (m : Nat) :
      cs.foldl (fun m c => m * 10 + Digits.digitValue c) m = Nat.ofDigitChars 10 cs m := by
    induction cs generalizing m with
    | nil => simp
    | cons c cs ih =>
        have hc : Digits.digitValue c = c.toNat - '0'.toNat := by
          rw [Digits.digitValue, if_pos (hcs c List.mem_cons_self)]
        rw [List.foldl_cons, ih fun d hd => hcs d (List.mem_cons_of_mem c hd), hc,
          Nat.ofDigitChars_cons, Nat.mul_comm]
  have hdigits (c : Char) (hc : c ∈ Nat.toDigits 10 n) : c.isDigit = true :=
    Nat.isDigit_of_mem_toDigits (by decide) (by decide) hc
  exact (hfold _ hdigits 0).trans (Nat.ofDigitChars_toDigits (by decide) (by decide))

/-- Only the digits of zero begin with zero. -/
theorem eq_zero_of_toDigits {n : Nat} {ds : List Char} (h : Nat.toDigits 10 n = '0' :: ds) :
    n = 0 := by
  induction n using Nat.strongRecOn generalizing ds with
  | ind n ih =>
      have hdigit : ∀ m < 10, Nat.digitChar m = '0' → m = 0 := by decide
      by_cases hn : n < 10
      · rw [Nat.toDigits_of_lt_base hn] at h
        exact hdigit n hn (List.cons.inj h).1
      · have hn : 10 ≤ n := Nat.le_of_not_lt hn
        rw [Nat.toDigits_of_base_le (by decide) hn] at h
        cases hfront : Nat.toDigits 10 (n / 10) with
        | nil => exact absurd hfront (List.ne_nil_of_length_pos Nat.length_toDigits_pos)
        | cons d front =>
            rw [hfront, List.cons_append] at h
            obtain rfl : d = '0' := (List.cons.inj h).1
            have hzero := ih (n / 10) (by omega) hfront
            omega

/-- The digits of a number are read up to where the number stops. -/
theorem digitRun_toDigits (n : Nat) {rest : Text} (hrest : Stops rest) :
    digitRun ((Nat.toDigits 10 n).map .char ++ rest) = (Nat.toDigits 10 n, rest) := by
  have hdigits (p : Point) (hp : p ∈ (Nat.toDigits 10 n).map Point.char) : isDigit p = true := by
    obtain ⟨c, hc, rfl⟩ := List.mem_map.mp hp
    exact Nat.isDigit_of_mem_toDigits (by decide) (by decide) hc
  have hstop : rest.takeWhile isDigit = [] ∧ rest.dropWhile isDigit = rest := by
    cases rest with
    | nil => exact ⟨rfl, rfl⟩
    | cons p rest =>
        have hp : isDigit p = false := by
          rcases hrest p rfl with rfl | rfl | rfl <;> rfl
        simp [hp]
  rw [digitRun, List.takeWhile_append_of_pos hdigits, List.dropWhile_append_of_pos hdigits,
    hstop.1, hstop.2, List.append_nil]
  have hchars : ((Nat.toDigits 10 n).map Point.char).filterMap Point.char? = Nat.toDigits 10 n := by
    rw [List.filterMap_map]
    exact List.filterMap_some
  rw [hchars]

/-- A number of which only the digits stand is whole. -/
theorem numberFrom_stops (negative : Bool) (n : Nat) {rest : Text} (hrest : Stops rest)
    (hlimit : (Nat.toDigits 10 n).length ≤ Digits.limit) :
    numberFrom negative (Nat.toDigits 10 n) rest =
      .ok (.int (if negative then -(n : Int) else n), rest) := by
  have hnone : fraction rest = ([], rest) ∧ exponent rest = none := by
    cases rest with
    | nil => exact ⟨rfl, rfl⟩
    | cons p rest => rcases hrest p rfl with rfl | rfl | rfl <;> exact ⟨rfl, rfl⟩
  simp [numberFrom, hnone, digits_value, Nat.not_lt.mpr hlimit]

/-- The digits of a number are read as that number, with a sign or without. -/
theorem number?_toDigits (negative : Bool) (n : Nat) {rest : Text} (hrest : Stops rest)
    (hlimit : (Nat.toDigits 10 n).length ≤ Digits.limit) :
    number? ((if negative then [.char '-'] else []) ++ ((Nat.toDigits 10 n).map .char ++ rest)) =
      some (.ok (.int (if negative then -(n : Int) else n), rest)) := by
  have hfrom := numberFrom_stops negative n hrest hlimit
  have hrun := digitRun_toDigits n hrest
  obtain ⟨d, ds, hds⟩ : ∃ d ds, Nat.toDigits 10 n = d :: ds :=
    List.exists_cons_of_ne_nil (List.ne_nil_of_length_pos Nat.length_toDigits_pos)
  have hd : d ≠ '-' := by
    rintro rfl
    have hdigit : '-'.isDigit = true :=
      Nat.isDigit_of_mem_toDigits (by decide) (by decide) (hds ▸ List.mem_cons_self)
    cases hdigit
  have hnumber : number? ((if negative then [.char '-'] else []) ++ ((d :: ds).map .char ++ rest)) =
      if d = '0' then some (numberFrom negative ['0'] (ds.map .char ++ rest))
      else some (numberFrom negative (d :: ds) rest) := by
    rw [hds] at hrun
    by_cases hzero : d = '0'
    · subst hzero
      cases negative <;> simp_all [number?]
    · cases negative <;> simp_all [number?]
  rw [hds, hnumber]
  split
  · rename_i hzero
    subst hzero
    obtain rfl := eq_zero_of_toDigits hds
    obtain rfl : [] = ds := (List.cons.inj hds).2
    exact congrArg some hfrom
  · rw [← hds, hfrom]

/-- No word that stands for a value begins like a number. -/
theorem words_toDigits (negative : Bool) (n : Nat) (rest : Text) :
    words.findSome? (fun (w, v) => (afterWord? w ((if negative then [.char '-'] else []) ++
      ((Nat.toDigits 10 n).map .char ++ rest))).map (v, ·)) = none := by
  obtain ⟨d, ds, hds⟩ : ∃ d ds, Nat.toDigits 10 n = d :: ds :=
    List.exists_cons_of_ne_nil (List.ne_nil_of_length_pos Nat.length_toDigits_pos)
  have hdigit : d.isDigit = true :=
    Nat.isDigit_of_mem_toDigits (by decide) (by decide) (hds ▸ List.mem_cons_self)
  have hne (c : Char) (hc : c.isDigit = false) : c ≠ d := by
    rintro rfl
    rw [hdigit] at hc
    cases hc
  rw [hds]
  cases negative <;>
    simp [words, afterWord?, Text.ofString, hne 'n' rfl, hne 't' rfl, hne 'f' rfl, hne 'N' rfl,
      hne 'I' rfl, hne '-' rfl]

/-- The text of a whole number is a sign, if it is negative, and digits. -/
theorem ofInt_eq (n : Int) :
    ∃ negative m, n.natAbs = m ∧ (if negative = true then -(m : Int) else m) = n ∧
      Text.ofInt n = (if negative then [.char '-'] else []) ++ (Nat.toDigits 10 m).map .char := by
  cases n with
  | ofNat m =>
      refine ⟨false, m, rfl, rfl, ?_⟩
      simp [Text.ofInt, Text.ofString, Int.toString_eq_repr, Int.repr]
  | negSucc m =>
      refine ⟨true, m + 1, rfl, rfl, ?_⟩
      simp [Text.ofInt, Text.ofString, Int.toString_eq_repr, Int.repr]

/-- The text of a whole number is read as the number. -/
theorem scalar_ofInt (n : Int) {rest : Text} (hrest : Stops rest)
    (hlimit : (Nat.toDigits 10 n.natAbs).length ≤ Digits.limit) :
    scalar (Text.ofInt n ++ rest) = .ok (.int n, rest) := by
  obtain ⟨negative, m, rfl, hn, htext⟩ := ofInt_eq n
  rw [htext, List.append_assoc, scalar, words_toDigits, number?_toDigits _ _ hrest hlimit, hn]
  rfl

end Json

end CommandRelay
