import CommandRelay.Proofs.Redirection.Grammar

/-!
# Glued redirections

A redirection may be written as one argument or as two. Parsing depends on the arguments only
through their tokens (`reason_parse_congr`), and a glued redirection of three points or more has the
tokens of the spaced one, so the two forms agree wherever they stand. One that is shorter, an arrow
with a single point after it, is taken for a word: the two forms never give the same command then
(`glued_redirection_agrees`).

## Implementation notes

That a short form is no redirection is shown by counting it: a command holds every token that is no
operator as often as its tokens do.
-/

namespace CommandRelay

namespace Redirection

variable {name : Text} {args args' more : List Text} {op : Operator} {t : Text}

/-! ## Tokens of lists of arguments -/

theorem normalizeArgs_append (args more : List Text) :
    normalizeArgs (args ++ more) =
      (normalizeArgs args).bind fun front => (normalizeArgs more).map (front ++ ·) := by
  induction args with
  | nil =>
      rw [List.nil_append]
      cases normalizeArgs more <;> rfl
  | cons arg args ih =>
      rw [List.cons_append, normalizeArgs, normalizeArgs, ih]
      cases tokensOf arg with
      | error reason => rfl
      | ok front =>
          cases normalizeArgs args with
          | error reason => rfl
          | ok middle =>
              cases normalizeArgs more with
              | error reason => rfl
              | ok back => exact congrArg Except.ok (List.append_assoc front middle back).symm

theorem normalizeArgs_append_eq_ok_iff {tokens : List Text} :
    normalizeArgs (args ++ more) = .ok tokens ↔
      ∃ front back, normalizeArgs args = .ok front ∧ normalizeArgs more = .ok back ∧
        tokens = front ++ back := by
  rw [normalizeArgs_append]
  cases normalizeArgs args with
  | error reason => simp [Except.bind]
  | ok front =>
      cases normalizeArgs more with
      | error reason => simp [Except.bind, Except.map]
      | ok back => simp [Except.bind, Except.map, eq_comm]

/-- Forms with the same tokens may stand for each other among arguments. -/
theorem normalizeArgs_between_congr {form form' : List Text}
    (h : normalizeArgs form = normalizeArgs form') (args more : List Text) :
    normalizeArgs (args ++ form ++ more) = normalizeArgs (args ++ form' ++ more) := by
  rw [normalizeArgs_append, normalizeArgs_append args, h, ← normalizeArgs_append,
    ← normalizeArgs_append]

/-- Tokens that are given as arguments stay what they are. -/
theorem normalizeArgs_self {tokens : List Text} (h : ∀ t ∈ tokens, IsToken t) :
    normalizeArgs tokens = .ok tokens :=
  normalizeArgs_of_splits (splits_self h) fun t ht => (h t ht).bar_notMem

/-- The operator and the target of a redirection are tokens. -/
theorem isToken_of_spaced (hne : t ≠ []) (harrow : arrow ∉ t) (hbar : bar ∉ t) :
    ∀ u ∈ [op.token, t], IsToken u :=
  List.forall_mem_cons.mpr
    ⟨op.isToken_token, List.forall_mem_singleton.mpr ⟨hne, hbar, Or.inr harrow⟩⟩

/-- A glued redirection of three points or more has the tokens of the spaced one. -/
theorem normalizeArgs_glued (hlong : 3 ≤ (op.token ++ t).length) (harrow : arrow ∉ t)
    (hbar : bar ∉ t) : normalizeArgs [op.token ++ t] = .ok [op.token, t] := by
  refine normalizeArgs_of_splits (.glued op hlong harrow .nil) ?_
  refine List.forall_mem_singleton.mpr fun hmem => ?_
  exact (List.mem_append.mp hmem).elim op.bar_notMem_token hbar

/-- A shorter one is a token by itself. -/
theorem normalizeArgs_short (hshort : (op.token ++ t).length ≤ 2) (hbar : bar ∉ t) :
    normalizeArgs [op.token ++ t] = .ok [op.token ++ t] := by
  refine normalizeArgs_self (List.forall_mem_singleton.mpr ⟨?_, fun hmem => ?_, Or.inl hshort⟩)
  · exact List.append_ne_nil_of_left_ne_nil op.token_ne_nil t
  · exact (List.mem_append.mp hmem).elim op.bar_notMem_token hbar

/-! ## Parsing by tokens -/

/-- Arguments with the same tokens are parsed alike: they give the same command or are refused for
the same reason. -/
theorem reason_parse_congr (h : normalizeArgs args = normalizeArgs args') :
    (Command.parse name args).mapError ParseError.reason =
      (Command.parse name args').mapError ParseError.reason := by
  unfold Command.parse
  split
  · rfl
  · split
    · rfl
    · split
      · rfl
      · rw [normalize, normalize, h]
        cases normalizeArgs args' with
        | error reason => rfl
        | ok tokens =>
            simp only [Except.mapError]
            cases assemble .item {} tokens <;> rfl

/-! ## Counting tokens -/

/-- Every token of items that is no operator is a word or a target. -/
theorem count_tokens {u : Text} (hu : u ∉ operators) (items : List Item) :
    (items.flatMap Item.tokens).count u =
      (words items).count u + (stdoutTargets items).count u + (stderrTargets items).count u := by
  induction items with
  | nil => rfl
  | cons i rest ih =>
      rw [List.flatMap_cons, words_cons, stdoutTargets_cons, stderrTargets_cons, List.count_append,
        List.count_append, List.count_append, List.count_append, ih]
      cases i with
      | word t =>
          simp only [Item.tokens, Item.word?, Item.stdoutTarget?, Item.stderrTarget?,
            Option.toList_some, Option.toList_none, List.count_nil]
          omega
      | redirect op t =>
          have hop : op.token ≠ u := by
            rintro rfl
            exact hu ((mem_operators_iff _).mpr (Or.inl ⟨op, rfl⟩))
          have htokens : (Item.redirect op t).tokens.count u = [t].count u :=
            List.count_cons_of_ne hop
          rw [htokens]
          cases op <;>
            simp only [Item.word?, Item.stdoutTarget?, Item.stderrTarget?, Option.toList_some,
              Option.toList_none, List.count_nil] <;>
            omega

/-- Of at most one target, a text that is not empty is found in the list as in its head. -/
theorem count_eq_count_headD {targets : List Text} {u : Text} (h : targets.length ≤ 1)
    (hne : u ≠ []) : targets.count u = [targets.headD []].count u := by
  match targets, h with
  | [], _ => exact (List.count_eq_zero.mpr fun hmem => hne (List.mem_singleton.mp hmem)).symm
  | [_], _ => rfl

/-- A command holds a token that is no operator as often as the tokens that it is parsed from. -/
theorem count_of_parse {tokens : List Text} {c : Command} {u : Text}
    (hparse : Command.parse name args = .ok c) (htokens : normalizeArgs args = .ok tokens)
    (hu : u ∉ operators) (hne : u ≠ []) :
    tokens.count u = c.args.count u + [c.stdoutTarget].count u + [c.stderrTarget].count u := by
  obtain ⟨-, hbars, items, hsplits, hgrammatical, hitems⟩ := parse_eq_ok_iff_ofItems.mp hparse
  obtain rfl : items.flatMap Item.tokens = tokens :=
    Except.ok.inj ((normalizeArgs_of_splits hsplits hbars).symm.trans htokens)
  rw [count_tokens hu, hitems.args_eq, hitems.stdoutTarget_eq, hitems.stderrTarget_eq,
    count_eq_count_headD hgrammatical.stdout_once hne,
    count_eq_count_headD hgrammatical.stderr_once hne]

/-- What is parsed around a form has the tokens of the form in the middle. -/
theorem exists_tokens_of_parse {form tokens : List Text} {c : Command}
    (hparse : Command.parse name (args ++ form ++ more) = .ok c)
    (hform : normalizeArgs form = .ok tokens) :
    ∃ front back, normalizeArgs args = .ok front ∧ normalizeArgs more = .ok back ∧
      normalizeArgs (args ++ form ++ more) = .ok (front ++ tokens ++ back) := by
  obtain ⟨all, -, hall, -⟩ := (parse_of_isName (isName_of_parse hparse) _ c).mp hparse
  obtain ⟨before, back, hbefore, hback, rfl⟩ := normalizeArgs_append_eq_ok_iff.mp hall
  obtain ⟨front, middle, hfront, hmiddle, rfl⟩ := normalizeArgs_append_eq_ok_iff.mp hbefore
  obtain rfl : tokens = middle := Except.ok.inj (hform.symm.trans hmiddle)
  exact ⟨front, back, hfront, hback, hall⟩

/-- Operators end in an arrow, so nothing that ends in something else is one. -/
theorem glued_notMem_operators (hne : t ≠ []) (harrow : arrow ∉ t) :
    op.token ++ t ∉ operators := by
  have hends : ∀ u ∈ operators, u.getLast? = some arrow := by decide
  intro hmem
  have hlast : (op.token ++ t).getLast? = t.getLast? := by
    rw [List.getLast?_append, List.getLast?_eq_some_getLast hne]
    rfl
  rw [hends _ hmem] at hlast
  exact harrow (List.mem_of_getLast? hlast.symm)

/-- Among other tokens, a glued redirection that is a token by itself is found once more than if it
is spaced. -/
theorem count_glued (hne : t ≠ []) (front back : List Text) :
    (front ++ [op.token ++ t] ++ back).count (op.token ++ t) =
      (front ++ [op.token, t] ++ back).count (op.token ++ t) + 1 := by
  have hoperator : op.token ≠ op.token ++ t := fun h => hne (List.self_eq_append_right.mp h)
  have htarget : t ≠ op.token ++ t := fun h => op.token_ne_nil (List.self_eq_append_left.mp h)
  simp only [List.count_append, List.count_singleton_self, List.count_cons_of_ne hoperator,
    List.count_cons_of_ne htarget, List.count_nil]
  omega

/-! ## The two forms -/

/-- A redirection may be glued or spaced, wherever it stands and whatever is expected there: both
forms give the same command, or both are refused and for the same reason. This takes a glued form of
three points or more. A shorter one is a word, and no command is given by both forms then. -/
theorem glued_redirection_agrees (name : Text) (args more : List Text) (op : Operator) {t : Text}
    (hne : t ≠ []) (harrow : arrow ∉ t) (hbar : bar ∉ t) :
    (3 ≤ (op.token ++ t).length →
      (Command.parse name (args ++ [op.token ++ t] ++ more)).mapError ParseError.reason =
        (Command.parse name (args ++ [op.token, t] ++ more)).mapError ParseError.reason) ∧
    ((op.token ++ t).length ≤ 2 → ∀ c,
      Command.parse name (args ++ [op.token ++ t] ++ more) = .ok c →
        Command.parse name (args ++ [op.token, t] ++ more) ≠ .ok c) := by
  have hspaced : normalizeArgs [op.token, t] = .ok [op.token, t] :=
    normalizeArgs_self (isToken_of_spaced hne harrow hbar)
  constructor
  · intro hlong
    apply reason_parse_congr
    apply normalizeArgs_between_congr
    rw [normalizeArgs_glued hlong harrow hbar, hspaced]
  · intro hshort c hglued hsame
    have hword := normalizeArgs_short hshort hbar
    obtain ⟨front, back, hfront, hback, hw⟩ := exists_tokens_of_parse hglued hword
    obtain ⟨front', back', hfront', hback', hs⟩ := exists_tokens_of_parse hsame hspaced
    obtain rfl : front = front' := Except.ok.inj (hfront.symm.trans hfront')
    obtain rfl : back = back' := Except.ok.inj (hback.symm.trans hback')
    have hnot : op.token ++ t ∉ operators := glued_notMem_operators hne harrow
    have hcount := count_of_parse hglued hw hnot (List.append_ne_nil_of_right_ne_nil _ hne)
    have hcount' := count_of_parse hsame hs hnot (List.append_ne_nil_of_right_ne_nil _ hne)
    rw [count_glued hne, hcount'] at hcount
    omega

/-- Where a target is awaited already, neither form is one. -/
theorem glued_redirection_agrees_awaited :
    3 ≤ (Operator.stderr.token ++ Text.ofString "x").length ∧
      (Command.parse "ls" ([Text.ofString "1>"] ++ [Operator.stderr.token ++ "x"] ++ [])).mapError
          ParseError.reason =
        (Command.parse "ls" ([Text.ofString "1>"] ++ [Operator.stderr.token, "x"] ++ [])).mapError
          ParseError.reason ∧
      (Command.parse "ls" ([Text.ofString "1>"] ++ [Operator.stderr.token, "x"] ++ [])).mapError
        ParseError.reason = .error .missingTarget := by
  have hlong : 3 ≤ (Operator.stderr.token ++ Text.ofString "x").length := by decide
  have hagree := (glued_redirection_agrees "ls" [Text.ofString "1>"] [] .stderr
    (t := Text.ofString "x") (by decide) (by decide) (by decide)).1 hlong
  exact ⟨hlong, hagree, by decide⟩

/-- An arrow with a single point after it is taken for an argument, and a target if it is spaced. -/
theorem short_glued_redirection_differs :
    ∃ c c', Command.parse "ls" ([] ++ [Operator.stdout.token ++ "a"] ++ []) = .ok c ∧
      Command.parse "ls" ([] ++ [Operator.stdout.token, "a"] ++ []) = .ok c' ∧
      c.args = [Text.ofString ">a"] ∧ c.stdoutTarget = [] ∧
      c'.args = [] ∧ c'.stdoutTarget = "a" ∧ c ≠ c' :=
  ⟨_, _, rfl, rfl, rfl, rfl, rfl, rfl, by decide⟩

end Redirection

end CommandRelay
