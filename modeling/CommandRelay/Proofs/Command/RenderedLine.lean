import CommandRelay.Command.Notice
import CommandRelay.Command.Redirection

/-!
# Rendered lines

The shell line of a command has its tokens written one after the other, each one bare if it is an
operator and quoted otherwise. `Words.Writes` says that a text is read as a word wherever a word may
begin. Bare words write themselves, quoted ones write what they quote, and words that are written so
and joined by blanks are found again by splitting (`split_join`). So a command is read off its line
as it is read off its tokens (`Command.parseLine_render`).
-/

namespace CommandRelay

namespace Words

/-! ## Points in a mode -/

theorem splitFrom_cons (mode : Mode) (word : Text) (p : Point) (rest : Text) :
    splitFrom mode word (p :: rest) =
      if (advance mode p).2.2 then (splitFrom (advance mode p).1 [] rest).map (word :: ·)
      else splitFrom (advance mode p).1 (word ++ (advance mode p).2.1) rest := by
  cases mode <;> rfl

/-- A point that does not end the word goes on in the next mode. -/
theorem splitFrom_of_advance {mode next : Mode} {p : Point} {added : Text}
    (h : advance mode p = (next, added, false)) (word rest : Text) :
    splitFrom mode word (p :: rest) = splitFrom next (word ++ added) rest := by
  rw [splitFrom_cons, h]
  rfl

/-- A quote adds nothing to the word. -/
theorem splitFrom_of_silent {mode next : Mode} {p : Point} (h : advance mode p = (next, [], false))
    (word rest : Text) : splitFrom mode word (p :: rest) = splitFrom next word rest := by
  rw [splitFrom_of_advance h, List.append_nil]

/-- A blank ends a word. -/
theorem splitFrom_word_blank {p : Point} (h : isBlank p = true) (word rest : Text) :
    splitFrom .word word (p :: rest) = (splitFrom .blank [] rest).map (word :: ·) := by
  have hends : advance .word p = (.blank, [], true) := if_pos h
  rw [splitFrom_cons, hends]
  rfl

/-! ## Bare words -/

/-- A point that stands for itself outside quotes. -/
structure IsPlain (p : Point) : Prop where
  not_blank : isBlank p = false
  ne_single : p ≠ '\''
  ne_double : p ≠ '"'
  ne_backslash : p ≠ '\\'

theorem IsPlain.advance_blank {p : Point} (h : IsPlain p) :
    advance .blank p = (.word, [p], false) := by
  simp [advance, h.not_blank, h.ne_single, h.ne_double, h.ne_backslash]

theorem IsPlain.advance_word {p : Point} (h : IsPlain p) :
    advance .word p = (.word, [p], false) := by
  simp [advance, h.not_blank, h.ne_single, h.ne_double, h.ne_backslash]

/-- A point that needs no quotes stands for itself. -/
theorem isPlain_of_isSafe {p : Point} (h : isSafe p = true) : IsPlain p := by
  have hne {q : Point} (hq : isSafe q = false) : p ≠ q := by
    rintro rfl
    rw [h] at hq
    cases hq
  refine ⟨?_, hne (by decide), hne (by decide), hne (by decide)⟩
  have hspace : p ≠ ' ' := hne (by decide)
  have htab : p ≠ '\t' := hne (by decide)
  have hreturn : p ≠ '\r' := hne (by decide)
  have hfeed : p ≠ '\n' := hne (by decide)
  simp [isBlank, hspace, htab, hreturn, hfeed]

theorem splitFrom_word_plain {t : Text} (h : ∀ p ∈ t, IsPlain p) (word rest : Text) :
    splitFrom .word word (t ++ rest) = splitFrom .word (word ++ t) rest := by
  induction t generalizing word with
  | nil => rw [List.nil_append, List.append_nil]
  | cons p t ih =>
      have hp : IsPlain p := h p List.mem_cons_self
      rw [List.cons_append, splitFrom_of_advance hp.advance_word,
        ih (fun q hq => h q (List.mem_cons_of_mem p hq)), List.append_assoc, List.singleton_append]

/-- A text that is read as a word wherever a word may begin. -/
def Writes (written word : Text) : Prop :=
  ∀ rest, splitFrom .blank [] (written ++ rest) = splitFrom .word word rest

/-- A bare word writes itself. -/
theorem writes_plain {t : Text} (hne : t ≠ []) (h : ∀ p ∈ t, IsPlain p) : Writes t t := by
  intro rest
  cases t with
  | nil => exact absurd rfl hne
  | cons p t =>
      have hp : IsPlain p := h p List.mem_cons_self
      rw [List.cons_append, splitFrom_of_advance hp.advance_blank,
        splitFrom_word_plain (fun q hq => h q (List.mem_cons_of_mem p hq))]
      rfl

/-! ## Quoted words -/

/-- A single quote within single quotes ends them, stands between double ones, and begins them
again. -/
theorem splitFrom_protectedQuote (word rest : Text) :
    splitFrom .single word (protectedQuote ++ rest) =
      splitFrom .single (word ++ [.char '\'']) rest := by
  let single : Point := '\''
  let double : Point := '"'
  calc
    splitFrom .single word (single :: double :: single :: double :: single :: rest)
      = splitFrom .word word (double :: single :: double :: single :: rest) :=
        splitFrom_of_silent rfl _ _
    _ = splitFrom .double word (single :: double :: single :: rest) := splitFrom_of_silent rfl _ _
    _ = splitFrom .double (word ++ [single]) (double :: single :: rest) :=
        splitFrom_of_advance rfl _ _
    _ = splitFrom .word (word ++ [single]) (single :: rest) := splitFrom_of_silent rfl _ _
    _ = splitFrom .single (word ++ [single]) rest := splitFrom_of_silent rfl _ _

/-- What single quotes hold is read point by point. -/
theorem splitFrom_single_inside (t word rest : Text) :
    splitFrom .single word
        ((t.flatMap fun p : Point => if p = '\'' then protectedQuote else [p]) ++ rest) =
      splitFrom .single (word ++ t) rest := by
  induction t generalizing word with
  | nil => rw [List.flatMap_nil, List.nil_append, List.append_nil]
  | cons p t ih =>
      rw [List.flatMap_cons, List.append_assoc, List.append_cons]
      by_cases hp : p = '\''
      · subst hp
        rw [if_pos rfl, splitFrom_protectedQuote, ih]
      · have hkept : advance .single p = (.single, [p], false) := if_neg hp
        rw [if_neg hp, List.singleton_append, splitFrom_of_advance hkept, ih]

/-- A quoted word writes the word, whatever it holds. -/
theorem writes_quoted (word : Text) : Writes (quoted word) word := by
  intro rest
  rw [quoted, List.cons_append, List.cons_append, List.append_assoc]
  calc
    splitFrom .blank [] _
      = splitFrom .single [] _ := splitFrom_of_silent rfl _ _
    _ = splitFrom .single word (.char '\'' :: rest) := splitFrom_single_inside word [] _
    _ = splitFrom .word word rest := splitFrom_of_silent rfl _ _

theorem writes_quote (word : Text) : Writes (quote word) word := by
  unfold quote
  split
  · rename_i h
    obtain ⟨hne, hsafe⟩ : word ≠ [] ∧ word.all isSafe = true := by simpa using h
    exact writes_plain hne fun p hp => isPlain_of_isSafe (List.all_eq_true.mp hsafe p hp)
  · exact writes_quoted word

/-! ## Lines -/

/-- Words that are written and joined by blanks are found again by splitting. -/
theorem split_join {write : Text → Text} (h : ∀ word, Writes (write word) word)
    (words : List Text) : split (Text.join " " (words.map write)) = .ok words := by
  match words with
  | [] => rfl
  | [word] =>
      have hword := h word []
      rw [List.append_nil] at hword
      exact hword
  | word :: next :: more =>
      have hrest := split_join h (next :: more)
      unfold split at hrest ⊢
      have hjoin : Text.join " " ((word :: next :: more).map write) =
          write word ++ (" " ++ Text.join " " ((next :: more).map write)) :=
        List.append_assoc _ _ _
      rw [hjoin]
      calc
        splitFrom .blank [] (write word ++ (" " ++ Text.join " " ((next :: more).map write)))
          = splitFrom .word word (" " ++ Text.join " " ((next :: more).map write)) := h word _
        _ = (splitFrom .blank [] (Text.join " " ((next :: more).map write))).map (word :: ·) :=
            splitFrom_word_blank rfl _ _
        _ = .ok (word :: next :: more) := by rw [hrest]; rfl

/-- Every token is written by what is rendered of it, operators being left bare. -/
theorem writes_renderToken (token : Text) : Writes (renderToken token) token := by
  unfold renderToken
  split
  · rename_i hbare
    have harrow : IsPlain '>' := ⟨by decide, by decide, by decide, by decide⟩
    rcases hbare with rfl | rfl
    · exact writes_plain (by decide) (List.forall_mem_singleton.mpr harrow)
    · have htwo : IsPlain '2' := isPlain_of_isSafe (by decide)
      exact writes_plain (by decide)
        (List.forall_mem_cons.mpr ⟨htwo, List.forall_mem_singleton.mpr harrow⟩)
  · exact writes_quote token

end Words

/-- Whatever a command holds, its line is split into its tokens. So to parse the line is to parse
the tokens, and the answers are the same command or the same error. -/
theorem Command.parseLine_render (c : Command) :
    Words.split c.render = .ok c.tokens ∧
      Command.parseLine c.render = Command.parse c.name c.tokens.tail := by
  have hsplit : Words.split c.render = .ok c.tokens :=
    Words.split_join Words.writes_renderToken c.tokens
  refine ⟨hsplit, ?_⟩
  rw [parseLine, hsplit]
  rfl

end CommandRelay
