import CommandRelay.Proofs.Command.RenderedLine

/-!
# What a line tells of its command

The line of a command is split into the tokens of the command, so two commands have one line exactly
if they have the same tokens (`render_eq_iff`). The tokens do not say where the arguments end: an
operator and a target behind it are what a redirection is written as, and arguments may be the same
two texts. If the arguments of two commands do not end so, the commands have different lines or are
the same, and a command whose tokens end so always shares its line with another one
(`line_identifies_command`).
-/

namespace CommandRelay

namespace Command

/-- Texts that end in an operator and a target, as a redirection is written. -/
def EndsIn (operator : Text) (texts : List Text) : Prop :=
  ∃ front target, texts = front ++ [operator, target] ∧ target ≠ []

/-- Texts whose last two read like a redirection. -/
def EndsInRedirection (texts : List Text) : Prop :=
  EndsIn ">" texts ∨ EndsIn "2>" texts

variable {operator other target target' : Text} {front front' : List Text}

theorem endsIn_iff {texts : List Text} :
    EndsIn operator texts ↔
      texts.dropLast.getLast? = some operator ∧ texts.getLast? ≠ some [] := by
  constructor
  · rintro ⟨front, target, rfl, hne⟩
    have hdrop : (front ++ [operator, target]).dropLast = front ++ [operator] := by
      rw [List.dropLast_append_of_ne_nil (List.cons_ne_nil _ _)]
      rfl
    refine ⟨by rw [hdrop, List.getLast?_concat], ?_⟩
    simpa using hne
  · rintro ⟨hoperator, htarget⟩
    obtain ⟨front, hfront⟩ := List.getLast?_eq_some_iff.mp hoperator
    have htexts : texts ≠ [] := by
      rintro rfl
      simp at hoperator
    refine ⟨front, texts.getLast htexts, ?_, ?_⟩
    · rw [List.append_cons, ← hfront, List.dropLast_concat_getLast]
    · intro hnil
      exact htarget (by rw [List.getLast?_eq_some_getLast htexts, hnil])

instance (operator : Text) (texts : List Text) : Decidable (EndsIn operator texts) :=
  decidable_of_iff _ endsIn_iff.symm

instance (texts : List Text) : Decidable (EndsInRedirection texts) :=
  inferInstanceAs (Decidable (_ ∨ _))

/-! ## Tokens at the end -/

@[simp] theorem redirection_nil (operator : Text) : redirection operator [] = [] :=
  if_pos rfl

theorem redirection_of_ne (h : target ≠ []) :
    redirection operator target = [operator, target] :=
  if_neg h

theorem endsIn_append_redirection (h : target ≠ []) :
    EndsIn operator (front ++ redirection operator target) :=
  ⟨front, target, by rw [redirection_of_ne h], h⟩

/-- A redirection with another operator is not the one that is looked for. -/
theorem not_endsIn_append (hne : operator ≠ other) (h : ¬ EndsIn operator front) :
    ¬ EndsIn operator (front ++ redirection other target) := by
  by_cases ht : target = []
  · rwa [ht, redirection_nil, List.append_nil]
  · rintro ⟨rest, target', heq, -⟩
    rw [redirection_of_ne ht] at heq
    obtain ⟨-, hlast⟩ := List.append_inj' heq rfl
    exact hne (List.cons.inj hlast).1.symm

/-- Where no redirection stands in front, the one at the end is found. -/
theorem append_redirection_inj (hfront : ¬ EndsIn operator front)
    (hfront' : ¬ EndsIn operator front')
    (h : front ++ redirection operator target = front' ++ redirection operator target') :
    front = front' ∧ target = target' := by
  by_cases ht : target = []
  · subst ht
    rw [redirection_nil, List.append_nil] at h
    by_cases ht' : target' = []
    · subst ht'
      rw [redirection_nil, List.append_nil] at h
      exact ⟨h, rfl⟩
    · exact absurd (h ▸ endsIn_append_redirection ht') hfront
  · by_cases ht' : target' = []
    · subst ht'
      rw [redirection_nil, List.append_nil] at h
      exact absurd (h ▸ endsIn_append_redirection ht) hfront'
    · rw [redirection_of_ne ht, redirection_of_ne ht'] at h
      obtain ⟨hfronts, hlast⟩ := List.append_inj' h rfl
      exact ⟨hfronts, (List.cons.inj (List.cons.inj hlast).2).1⟩

/-- The targets of a command can be told from its tokens if its arguments do not end like a
redirection. -/
theorem eq_of_argumentTokens_eq {c c' : Command} (hname : c.name = c'.name)
    (hargs : ¬ EndsInRedirection c.args) (hargs' : ¬ EndsInRedirection c'.args)
    (h : c.argumentTokens = c'.argumentTokens) : c = c' := by
  obtain ⟨hout, herr⟩ := not_or.mp hargs
  obtain ⟨hout', herr'⟩ := not_or.mp hargs'
  have hoperators : Text.ofString "2>" ≠ ">" := by decide
  obtain ⟨hfront, hstderr⟩ := append_redirection_inj (not_endsIn_append hoperators herr)
    (not_endsIn_append hoperators herr') h
  obtain ⟨hargs, hstdout⟩ := append_redirection_inj hout hout' hfront
  cases c
  cases c'
  simp_all

/-- The tokens of a command end like a redirection exactly if it has one or its arguments do. -/
theorem endsInRedirection_argumentTokens_iff (c : Command) :
    EndsInRedirection c.argumentTokens ↔
      c.stdoutTarget ≠ [] ∨ c.stderrTarget ≠ [] ∨ EndsInRedirection c.args := by
  by_cases herr : c.stderrTarget = []
  · by_cases hout : c.stdoutTarget = []
    · simp [argumentTokens, herr, hout]
    · have hends : EndsIn ">" c.argumentTokens := by
        simpa [argumentTokens, herr] using endsIn_append_redirection hout
      simp [EndsInRedirection, hends, hout]
  · have hends : EndsIn "2>" c.argumentTokens := endsIn_append_redirection herr
    simp [EndsInRedirection, hends, herr]

/-! ## Lines -/

/-- The line of a command says what its tokens are, and no more. -/
theorem render_eq_iff (c c' : Command) :
    c.render = c'.render ↔ c.name = c'.name ∧ c.argumentTokens = c'.argumentTokens := by
  have hsplit (d : Command) : Words.split d.render = .ok d.tokens :=
    Words.split_join Words.writes_renderToken d.tokens
  constructor
  · intro h
    have htokens : c.tokens = c'.tokens :=
      Except.ok.inj ((hsplit c).symm.trans (h ▸ hsplit c'))
    exact List.cons.inj htokens
  · rintro ⟨hname, htokens⟩
    rw [render, render, tokens, tokens, hname, htokens]

/-- The command that has all tokens of another one as arguments, and no targets. -/
def withTargetsAsArguments (c : Command) : Command :=
  { c with args := c.argumentTokens, stdoutTarget := [], stderrTarget := [] }

theorem argumentTokens_of_no_targets {c : Command} (hout : c.stdoutTarget = [])
    (herr : c.stderrTarget = []) : c.argumentTokens = c.args := by
  rw [argumentTokens, hout, herr, redirection_nil, redirection_nil, List.append_nil,
    List.append_nil]

/-- What ends like a redirection can be written in two ways. -/
theorem exists_other_of_endsInRedirection {c : Command}
    (h : EndsInRedirection c.argumentTokens) :
    ∃ c' : Command, c' ≠ c ∧ c'.name = c.name ∧ c'.argumentTokens = c.argumentTokens := by
  by_cases htargets : c.stdoutTarget = [] ∧ c.stderrTarget = []
  · obtain ⟨hout, herr⟩ := htargets
    rcases h with ⟨front, target, h, hne⟩ | ⟨front, target, h, hne⟩
    · refine ⟨{ c with args := front, stdoutTarget := target }, fun heq => ?_, rfl, ?_⟩
      · exact hne ((congrArg stdoutTarget heq).trans hout)
      · calc
          front ++ redirection ">" target ++ redirection "2>" c.stderrTarget
            = front ++ [(">" : Text), target] := by
              rw [redirection_of_ne hne, herr, redirection_nil, List.append_nil]
          _ = c.argumentTokens := h.symm
    · refine ⟨{ c with args := front, stderrTarget := target }, fun heq => ?_, rfl, ?_⟩
      · exact hne ((congrArg stderrTarget heq).trans herr)
      · calc
          front ++ redirection ">" c.stdoutTarget ++ redirection "2>" target
            = front ++ [("2>" : Text), target] := by
              rw [hout, redirection_nil, List.append_nil, redirection_of_ne hne]
          _ = c.argumentTokens := h.symm
  · refine ⟨c.withTargetsAsArguments, fun heq => htargets ?_, rfl, ?_⟩
    · exact ⟨(congrArg stdoutTarget heq).symm, (congrArg stderrTarget heq).symm⟩
    · exact argumentTokens_of_no_targets rfl rfl

/-- A command can be told from its line exactly if its tokens do not end like a redirection. -/
theorem exists_other_iff (c : Command) :
    (∃ c' : Command, c' ≠ c ∧ c'.render = c.render) ↔ EndsInRedirection c.argumentTokens := by
  constructor
  · rintro ⟨c', hne, hrender⟩
    obtain ⟨hname, htokens⟩ := (render_eq_iff c' c).mp hrender
    refine Decidable.byContradiction fun hends => ?_
    have hends' : ¬ EndsInRedirection c'.argumentTokens := by rwa [htokens]
    rw [endsInRedirection_argumentTokens_iff, not_or, not_or] at hends hends'
    exact hne (eq_of_argumentTokens_eq hname hends'.2.2 hends.2.2 htokens)
  · intro hends
    obtain ⟨c', hne, hname, htokens⟩ := exists_other_of_endsInRedirection hends
    exact ⟨c', hne, (render_eq_iff c' c).mpr ⟨hname, htokens⟩⟩

/-- A redirection as a line shows it: the operator bare and the target quoted. -/
def shownRedirection (operator target : Text) : List Text :=
  if target = [] then [] else [operator, Words.quote target]

/-- The line in which the name and the arguments are quoted, and only the operators of the
redirections stand bare. -/
def quotedLine (c : Command) : Text :=
  Text.join " " (c.argv.map Words.quote ++ shownRedirection ">" c.stdoutTarget ++
    shownRedirection "2>" c.stderrTarget)

theorem renderToken_of_ne {token : Text} (h : token ≠ ">" ∧ token ≠ "2>") :
    renderToken token = Words.quote token :=
  if_neg (not_or.mpr h)

theorem map_renderToken_redirection (hoperator : operator = ">" ∨ operator = "2>")
    (htarget : target ≠ ">" ∧ target ≠ "2>") :
    (redirection operator target).map renderToken = shownRedirection operator target := by
  have hbare : renderToken operator = operator := if_pos hoperator
  by_cases ht : target = []
  · subst ht
    rfl
  · rw [redirection_of_ne ht, shownRedirection, if_neg ht, List.map_cons, List.map_cons,
      List.map_nil, hbare, renderToken_of_ne htarget]

/-- If no part of a command is an operator, its line quotes them all. -/
theorem render_eq_quotedLine {c : Command}
    (h : ∀ part ∈ c.argv ++ [c.stdoutTarget, c.stderrTarget], part ≠ ">" ∧ part ≠ "2>") :
    c.render = c.quotedLine := by
  rw [List.forall_mem_append] at h
  obtain ⟨hargv, htargets⟩ := h
  have hwords : c.argv.map renderToken = c.argv.map Words.quote :=
    List.map_congr_left fun part hpart => renderToken_of_ne (hargv part hpart)
  have hout : (redirection ">" c.stdoutTarget).map renderToken =
      shownRedirection ">" c.stdoutTarget :=
    map_renderToken_redirection (Or.inl rfl) (htargets c.stdoutTarget (by simp))
  have herr : (redirection "2>" c.stderrTarget).map renderToken =
      shownRedirection "2>" c.stderrTarget :=
    map_renderToken_redirection (Or.inr rfl) (htargets c.stderrTarget (by simp))
  have htokens : c.tokens =
      c.argv ++ redirection ">" c.stdoutTarget ++ redirection "2>" c.stderrTarget := rfl
  rw [render, htokens, List.map_append, List.map_append, hwords, hout, herr, quotedLine]

/-- Of commands whose arguments do not end like a redirection, each has a line of its own. A command
shares its line with another one exactly if it has a target or if its arguments end so. And as long
as no name, argument or target is itself an operator, a line quotes all of them, so that what is
bare in it is a redirection that the command has. -/
theorem line_identifies_command (c : Command) :
    (∀ c' : Command, ¬ EndsInRedirection c.args → ¬ EndsInRedirection c'.args →
      c.render = c'.render → c = c') ∧
    ((∃ c' : Command, c' ≠ c ∧ c'.render = c.render) ↔
      c.stdoutTarget ≠ [] ∨ c.stderrTarget ≠ [] ∨ EndsInRedirection c.args) ∧
    ((∀ part ∈ c.argv ++ [c.stdoutTarget, c.stderrTarget], part ≠ ">" ∧ part ≠ "2>") →
      c.render = c.quotedLine) := by
  refine ⟨?_, ?_, render_eq_quotedLine⟩
  · intro c' hargs hargs' hrender
    obtain ⟨hname, htokens⟩ := (render_eq_iff c c').mp hrender
    exact eq_of_argumentTokens_eq hname hargs hargs' htokens
  · exact (exists_other_iff c).trans (endsInRedirection_argumentTokens_iff c)

/-- Two commands with an operator among the arguments, and the line of one without. -/
theorem line_identifies_command_lone :
    let file : Command := ⟨"ls", ["-la", "mon dossier"], "/tmp/out", [], by decide⟩
    let lone : Command := ⟨"ls", [">"], "a", [], by decide⟩
    let last : Command := ⟨"ls", [">", ">"], [], [], by decide⟩
    ¬ EndsInRedirection file.args ∧ ¬ EndsInRedirection lone.args ∧ file.render ≠ lone.render ∧
      (∃ c', c' ≠ last ∧ c'.render = last.render) ∧
      file.render = "ls -la 'mon dossier' > /tmp/out" := by
  intro file lone last
  have hfile : ¬ EndsInRedirection file.args := by decide
  have hlone : ¬ EndsInRedirection lone.args := by decide
  obtain ⟨hinj, -, hquoted⟩ := line_identifies_command file
  refine ⟨hfile, hlone, ?_, ?_, ?_⟩
  · intro h
    have heq : file = lone := hinj lone hfile hlone h
    revert heq
    decide
  · exact (line_identifies_command last).2.1.mpr (by decide)
  · rw [hquoted (by decide)]
    decide

/-- A command with a redirection, and one with an argument that is an operator: both have one
line. -/
theorem argument_shown_as_redirection :
    let argument : Command := ⟨"ls", [">", "a"], [], [], by decide⟩
    let redirected : Command := ⟨"ls", [], "a", [], by decide⟩
    argument.render = redirected.render ∧ argument ≠ redirected := by
  decide

end Command

end CommandRelay
