import CommandRelay.Proofs.Redirection.Tokens

/-!
# What a refusal shows

A refused command line is shown with its name, and with its arguments or with the tokens that these
were read as. Nothing is read as tokens before the first pass is through, so a name or an argument
at fault leaves the arguments as they were given. The walk over the tokens shows the tokens, unless
it is asked to append. So the arguments come back as they were given exactly if the walk found no
target missing and none too many, or if all of them were tokens already
(`refusal_shows_arguments`).
-/

namespace CommandRelay

namespace Redirection

variable {name : Text} {args : List Text}

/-- The reasons for which the tokens are shown: a target is missing, or there is one too many. -/
def targetReasons : List ParseReason :=
  [.missingTarget, .duplicateStdout, .duplicateStderr]

/-! ## The reasons of the two passes -/

theorem splitGlued_eq_error {arg : Text} {reason : ParseReason}
    (h : splitGlued arg = .error reason) : reason ∉ targetReasons := by
  unfold splitGlued at h
  split at h
  · cases h
  · split at h
    · split at h
      · split at h
        · obtain rfl := Except.error.inj h
          decide
        · cases h
      · obtain rfl := Except.error.inj h
        decide
    · split at h
      · cases h
      · split at h
        · cases h
        · split at h
          · cases h
          · obtain rfl := Except.error.inj h
            decide

theorem tokensOf_eq_error {arg : Text} {reason : ParseReason}
    (h : tokensOf arg = .error reason) : reason ∉ targetReasons := by
  by_cases hbar : bar ∈ arg
  · rw [tokensOf_of_bar hbar] at h
    obtain rfl := Except.error.inj h
    decide
  · rw [tokensOf_of_bar_notMem hbar] at h
    split at h
    · cases h
    · split at h
      · cases h
      · exact splitGlued_eq_error h

/-- The first pass has nothing to say about targets. -/
theorem normalizeArgs_eq_error {reason : ParseReason} (h : normalizeArgs args = .error reason) :
    reason ∉ targetReasons := by
  induction args with
  | nil => cases h
  | cons arg args ih =>
      rw [normalizeArgs] at h
      cases hfront : tokensOf arg with
      | error found =>
          rw [hfront] at h
          obtain rfl : found = reason := Except.error.inj h
          exact tokensOf_eq_error hfront
      | ok front =>
          cases hback : normalizeArgs args with
          | error found =>
              rw [hfront, hback] at h
              obtain rfl : found = reason := Except.error.inj h
              exact ih hback
          | ok back =>
              rw [hfront, hback] at h
              cases h

theorem step_eq_error {expecting : Expecting} {parts : Parts} {token : Text}
    {reason : ParseReason} (h : step expecting parts token = .error reason) :
    reason = .append ∨ reason ∈ targetReasons := by
  cases expecting with
  | item =>
      simp only [step] at h
      split at h
      · split at h
        · cases h
        · obtain rfl := Except.error.inj h
          decide
      · split at h
        · split at h
          · cases h
          · obtain rfl := Except.error.inj h
            decide
        · split at h
          · obtain rfl := Except.error.inj h
            decide
          · split at h <;> cases h
  | stdoutTarget | stderrTarget =>
      simp only [step] at h
      split at h
      · obtain rfl := Except.error.inj h
        decide
      · cases h

/-- The walk refuses to append, or it objects to a target. -/
theorem assemble_eq_error {expecting : Expecting} {parts : Parts} {tokens : List Text}
    {reason : ParseReason} (h : assemble expecting parts tokens = .error reason) :
    reason = .append ∨ reason ∈ targetReasons := by
  induction tokens generalizing expecting parts with
  | nil =>
      rw [assemble] at h
      split at h
      · cases h
      · obtain rfl := Except.error.inj h
        decide
  | cons token tokens ih =>
      rw [assemble] at h
      cases hstep : step expecting parts token with
      | error found =>
          rw [hstep] at h
          obtain rfl : found = reason := Except.error.inj h
          exact step_eq_error hstep
      | ok next =>
          rw [hstep] at h
          exact ih h

/-! ## Refused command lines -/

/-- A refusal has the name, and either the arguments or, for a fault of a target, their tokens. -/
theorem parse_eq_error {e : ParseError} (h : Command.parse name args = .error e) :
    e.name = name ∧
      (e.reason ∉ targetReasons ∧ e.args = args ∨
        e.reason ∈ targetReasons ∧ normalizeArgs args = .ok e.args) := by
  rw [Command.parse] at h
  split at h
  · obtain rfl := Except.error.inj h
    exact ⟨rfl, Or.inl ⟨by simp [targetReasons], rfl⟩⟩
  · split at h
    · obtain rfl := Except.error.inj h
      exact ⟨rfl, Or.inl ⟨by simp [targetReasons], rfl⟩⟩
    · split at h
      · obtain rfl := Except.error.inj h
        exact ⟨rfl, Or.inl ⟨by simp [targetReasons], rfl⟩⟩
      · unfold normalize at h
        cases hn : normalizeArgs args with
        | error reason =>
            rw [hn] at h
            obtain rfl := Except.error.inj h
            exact ⟨rfl, Or.inl ⟨normalizeArgs_eq_error hn, rfl⟩⟩
        | ok tokens =>
            rw [hn] at h
            simp only [Except.mapError] at h
            cases hs : assemble .item {} tokens with
            | ok parts =>
                rw [hs] at h
                cases h
            | error reason =>
                rw [hs] at h
                obtain rfl := Except.error.inj h
                refine ⟨rfl, ?_⟩
                rcases assemble_eq_error hs with rfl | hreason
                · exact Or.inl ⟨by simp [targetReasons], rfl⟩
                · have happend : reason ≠ .append := by
                    rintro rfl
                    revert hreason
                    decide
                  exact Or.inr ⟨hreason, by rw [shownFor, if_neg happend]⟩

/-- A refused command line is always shown with its name. Its arguments are shown as they were given
exactly if the refusal is not about a target, or if none of them is empty and none is a redirection
glued together; otherwise the tokens that they are read as are shown. -/
theorem refusal_shows_arguments {e : ParseError} (h : Command.parse name args = .error e) :
    e.name = name ∧
      (e.args = args ↔
        e.reason ∉ targetReasons ∨ ∀ a ∈ args, a ≠ [] ∧ (a.length ≤ 2 ∨ arrow ∉ a)) ∧
      (e.args ≠ args → normalize name args = .ok e.args) := by
  obtain ⟨hname, ⟨hreason, hargs⟩ | ⟨hreason, htokens⟩⟩ := parse_eq_error h
  · exact ⟨hname, iff_of_true hargs (Or.inl hreason), fun hne => absurd hargs hne⟩
  · refine ⟨hname, ?_, fun _ => by rw [normalize, htokens]; rfl⟩
    calc
      e.args = args ↔ ∀ a ∈ args, a ≠ [] ∧ (a.length ≤ 2 ∨ arrow ∉ a) :=
        eq_self_of_normalizeArgs_iff htokens
      _ ↔ e.reason ∉ targetReasons ∨ ∀ a ∈ args, a ≠ [] ∧ (a.length ≤ 2 ∨ arrow ∉ a) :=
        (or_iff_right (not_not_intro hreason)).symm

/-- A target is missing at the end of a line with a glued redirection and an empty argument. -/
theorem refusal_shows_arguments_missing :
    ∃ e, Command.parse "foo" ["", ">out", "2>"] = .error e ∧ e.name = "foo" ∧
      e.args ≠ (["", ">out", "2>"] : List Text) ∧
      normalize "foo" ["", ">out", "2>"] = .ok e.args := by
  let e : ParseError := ⟨.missingTarget, "foo", [">", "out", "2>"]⟩
  have h : Command.parse "foo" ["", ">out", "2>"] = .error e := by rfl
  obtain ⟨hname, -, htokens⟩ := refusal_shows_arguments h
  have hne : e.args ≠ (["", ">out", "2>"] : List Text) := by decide
  exact ⟨e, h, hname, hne, htokens hne⟩

/-- Of two glued redirections of one channel the tokens are shown, not the arguments. -/
theorem refusal_hides_arguments :
    ∃ e, Command.parse "foo" [">/a", ">/b"] = .error e ∧ e.reason = .duplicateStdout ∧
      e.args = ([">", "/a", ">", "/b"] : List Text) ∧ e.args ≠ ([">/a", ">/b"] : List Text) :=
  ⟨⟨.duplicateStdout, "foo", [">", "/a", ">", "/b"]⟩, rfl, rfl, rfl, by decide⟩

end Redirection

end CommandRelay
