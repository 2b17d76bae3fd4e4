import CommandRelay.Proofs.Redirection.Gluing

/-!
# Normalization

Normalization cuts every argument in pieces and joins the pieces in order, so nothing is lost and
nothing added (`exists_pieces_of_normalizeArgs`). No piece can be cut further: tokens that are given
as arguments are their own tokens. Parsing sees the tokens only, so it makes no difference whether
it is given the arguments or their tokens (`normalize_resegments`).
-/

namespace CommandRelay.Redirection

variable {name : Text} {args tokens : List Text}

theorem normalize_eq_ok_iff :
    normalize name args = .ok tokens ↔ normalizeArgs args = .ok tokens := by
  unfold normalize
  cases normalizeArgs args <;> simp [Except.mapError]

/-- The tokens are the arguments cut in pieces: each argument is what its own pieces give when they
are put together again. -/
theorem exists_pieces_of_normalizeArgs (h : normalizeArgs args = .ok tokens) :
    ∃ pieces : List (List Text), pieces.map List.flatten = args ∧ pieces.flatten = tokens := by
  induction args generalizing tokens with
  | nil =>
      obtain rfl : [] = tokens := Except.ok.inj h
      exact ⟨[], rfl, rfl⟩
  | cons arg args ih =>
      obtain ⟨front, back, hfront, hback, rfl⟩ := normalizeArgs_cons_eq_ok_iff.mp h
      obtain ⟨pieces, hargs, htokens⟩ := ih hback
      refine ⟨front :: pieces, ?_, ?_⟩
      · rw [List.map_cons, (tokensOf_eq_ok hfront).1, hargs]
      · rw [List.flatten_cons, htokens]

theorem flatten_of_normalizeArgs (h : normalizeArgs args = .ok tokens) :
    tokens.flatten = args.flatten := by
  obtain ⟨pieces, hargs, htokens⟩ := exists_pieces_of_normalizeArgs h
  calc
    tokens.flatten = pieces.flatten.flatten := by rw [htokens]
    _ = (pieces.map List.flatten).flatten := List.flatten_flatten
    _ = args.flatten := by rw [hargs]

/-- What is normalized already stays what it is. -/
theorem normalizeArgs_of_normalizeArgs (h : normalizeArgs args = .ok tokens) :
    normalizeArgs tokens = .ok tokens :=
  normalizeArgs_self (isToken_of_normalizeArgs h)

theorem IsToken.arrow_notMem {t : Text} (h : IsToken t) (hlong : 3 ≤ t.length) : arrow ∉ t :=
  h.short_or_plain.resolve_left (Nat.not_le.mpr hlong)

/-- Normalization cuts arguments anew and loses nothing: put together, the tokens are what the
arguments are. None of them is empty or holds a bar, and one of three points or more holds no arrow.
To normalize them again changes nothing, and they are parsed as the arguments are: to the same
command, or to a refusal for the same reason. -/
theorem normalize_resegments (h : normalize name args = .ok tokens) :
    tokens.flatten = args.flatten ∧
      (∀ t ∈ tokens, t ≠ [] ∧ bar ∉ t ∧ (3 ≤ t.length → arrow ∉ t)) ∧
      normalize name tokens = .ok tokens ∧
      (Command.parse name tokens).mapError ParseError.reason =
        (Command.parse name args).mapError ParseError.reason := by
  have hargs := normalize_eq_ok_iff.mp h
  have hagain := normalizeArgs_of_normalizeArgs hargs
  refine ⟨flatten_of_normalizeArgs hargs, fun t ht => ?_, normalize_eq_ok_iff.mpr hagain, ?_⟩
  · have htoken := isToken_of_normalizeArgs hargs t ht
    exact ⟨htoken.ne_nil, htoken.bar_notMem, htoken.arrow_notMem⟩
  · exact reason_parse_congr (hagain.trans hargs.symm)

/-- Empty, short and glued arguments, with one that asks for appending: the tokens are refused for
it as the arguments are. -/
theorem normalize_resegments_appending :
    let args : List Text := ["", ">a", "1>out", ">>log", "2>"]
    let tokens : List Text := [">a", "1>", "out", ">>", "log", "2>"]
    normalize "ls" args = .ok tokens ∧ tokens.flatten = args.flatten ∧
      normalize "ls" tokens = .ok tokens ∧
      (Command.parse "ls" tokens).mapError ParseError.reason = .error .append := by
  intro args tokens
  have h : normalize "ls" args = .ok tokens := by decide
  obtain ⟨hflatten, -, hagain, hparse⟩ := normalize_resegments h
  exact ⟨h, hflatten, hagain, hparse.trans (by decide)⟩

end CommandRelay.Redirection
