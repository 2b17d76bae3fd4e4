import CommandRelay.Command.Redirection
import Mathlib.Data.List.TakeDrop
import Mathlib.Data.List.TakeWhile

/-!
# Tokens of a command line

An argument is read as no token if it is empty, as an operator and a target if these are glued
together, and as itself otherwise. `Splits` says so of a list of arguments, without an order of
tests. `normalizeArgs_eq_ok_iff` says that normalization finds exactly these tokens, apart from
glued appending, whose token no command line may hold.
-/

namespace CommandRelay.Redirection

/-- An operator that a target follows. -/
inductive Operator where
  | stdout
  | stdoutExplicit
  | stderr
  deriving DecidableEq, Repr

/-- How an operator is written. -/
def Operator.token : Operator → Text
  | .stdout => ">"
  | .stdoutExplicit => "1>"
  | .stderr => "2>"

/-- The token that asks for appending. -/
def appendToken : Text := ">>"

theorem mem_operators_iff (t : Text) :
    t ∈ operators ↔ (∃ op : Operator, t = op.token) ∨ t = appendToken := by
  constructor
  · intro h
    simp only [operators, List.mem_cons, List.not_mem_nil, or_false] at h
    rcases h with h | h | h | h
    · exact Or.inl ⟨.stdout, h⟩
    · exact Or.inl ⟨.stdoutExplicit, h⟩
    · exact Or.inl ⟨.stderr, h⟩
    · exact Or.inr h
  · rintro (⟨op, rfl⟩ | rfl)
    · cases op <;> decide
    · decide

theorem Operator.token_ne_nil (op : Operator) : op.token ≠ [] := by
  cases op <;> decide

theorem Operator.length_token_le (op : Operator) : op.token.length ≤ 2 := by
  cases op <;> decide

theorem Operator.bar_notMem_token (op : Operator) : bar ∉ op.token := by
  cases op <;> decide

/-- An operator is something that holds no arrow, and an arrow after it. -/
theorem Operator.token_eq (op : Operator) :
    ∃ before : Text, op.token = before ++ [arrow] ∧ arrow ∉ before := by
  cases op
  · exact ⟨[], rfl, by decide⟩
  · exact ⟨"1", rfl, by decide⟩
  · exact ⟨"2", rfl, by decide⟩

/-! ## One argument -/

theorem span_of_notMem {t : Text} (h : arrow ∉ t) : t.span (· ≠ arrow) = (t, []) := by
  have hall : ∀ p ∈ t, decide (p ≠ arrow) = true := by
    intro p hp
    exact decide_eq_true fun he => h (he ▸ hp)
  rw [List.span_eq_takeWhile_dropWhile, List.takeWhile_eq_self_iff.mpr hall,
    List.dropWhile_eq_nil_iff.mpr hall]

theorem span_append_arrow {before : Text} (h : arrow ∉ before) (rest : Text) :
    (before ++ arrow :: rest).span (· ≠ arrow) = (before, arrow :: rest) := by
  have hall : ∀ p ∈ before, decide (p ≠ arrow) = true := by
    intro p hp
    exact decide_eq_true fun he => h (he ▸ hp)
  rw [List.span_eq_takeWhile_dropWhile, List.takeWhile_append_of_pos hall,
    List.dropWhile_append_of_pos hall]
  simp

/-- The first arrow of a text cuts it in two. -/
theorem exists_split_arrow {t : Text} (h : arrow ∈ t) :
    ∃ before rest : Text, t = before ++ arrow :: rest ∧ arrow ∉ before := by
  obtain ⟨before, rest, rfl, hb⟩ := List.eq_append_cons_of_mem h
  exact ⟨before, rest, rfl, hb⟩

theorem splitGlued_of_notMem {arg : Text} (h : arrow ∉ arg) : splitGlued arg = .ok [arg] := by
  rw [splitGlued, span_of_notMem h]

theorem splitGlued_token_append (op : Operator) {target : Text} (h : arrow ∉ target) :
    splitGlued (op.token ++ target) = .ok [op.token, target] := by
  have hc : target.contains arrow = false := by simpa using h
  obtain ⟨before, hop, hb⟩ := op.token_eq
  rw [splitGlued, hop, List.append_assoc, List.singleton_append, span_append_arrow hb, ← hop]
  simp only [hc, Bool.false_eq_true, ↓reduceIte]
  cases op with
  | stdout =>
      have h : before ++ [arrow] = [] ++ [arrow] := hop.symm
      obtain rfl : before = [] := List.append_cancel_right h
      rfl
  | stdoutExplicit =>
      have h : before ++ [arrow] = "1" ++ [arrow] := hop.symm
      obtain rfl : before = "1" := List.append_cancel_right h
      rfl
  | stderr =>
      have h : before ++ [arrow] = "2" ++ [arrow] := hop.symm
      obtain rfl : before = "2" := List.append_cancel_right h
      rfl

/-- An argument of three points or more is itself, or an operator with a target glued to it; to
append is an operator here. -/
theorem splitGlued_eq_ok {arg : Text} {tokens : List Text} (h : splitGlued arg = .ok tokens) :
    (arrow ∉ arg ∧ tokens = [arg]) ∨
      ∃ operator target, operator ∈ operators ∧ arrow ∉ target ∧ arg = operator ++ target ∧
        tokens = [operator, target] := by
  by_cases ha : arrow ∈ arg
  · right
    obtain ⟨before, target, rfl, hb⟩ := exists_split_arrow ha
    rw [splitGlued, span_append_arrow hb] at h
    simp only [List.contains_iff_mem] at h
    split at h
    · -- Two arrows: they are read only if nothing stands before or between them.
      split at h
      · rename_i p rest _
        split at h
        · cases h
        · rename_i hrest
          obtain ⟨rfl, hr⟩ : p = arrow ∧ arrow ∉ rest := by simpa using hrest
          exact ⟨">>", rest, by decide, hr, rfl, (Except.ok.inj h).symm⟩
      · cases h
    · rename_i ht
      split at h
      · rename_i hb'
        subst hb'
        exact ⟨">", target, by decide, ht, rfl, (Except.ok.inj h).symm⟩
      · split at h
        · rename_i hb'
          subst hb'
          exact ⟨"1>", target, by decide, ht, rfl, (Except.ok.inj h).symm⟩
        · split at h
          · rename_i hb'
            subst hb'
            exact ⟨"2>", target, by decide, ht, rfl, (Except.ok.inj h).symm⟩
          · cases h
  · left
    rw [splitGlued_of_notMem ha] at h
    exact ⟨ha, (Except.ok.inj h).symm⟩

/-- Without appending, an argument of three points or more is itself or glued. -/
theorem splitGlued_cases {arg : Text} {tokens : List Text} (h : splitGlued arg = .ok tokens)
    (hne : appendToken ∉ tokens) :
    (arrow ∉ arg ∧ tokens = [arg]) ∨
      ∃ op : Operator, ∃ target, arrow ∉ target ∧ arg = op.token ++ target ∧
        tokens = [op.token, target] := by
  rcases splitGlued_eq_ok h with hself | ⟨operator, target, hop, ht, rfl, rfl⟩
  · exact Or.inl hself
  · rcases (mem_operators_iff operator).mp hop with ⟨op, rfl⟩ | rfl
    · exact Or.inr ⟨op, target, ht, rfl, rfl⟩
    · exact absurd List.mem_cons_self hne

/-! ## All arguments -/

/-- Arguments that are read as tokens: empty ones are dropped, one of at most two points or without
an arrow is a token, and a longer one is an operator with a target that holds no arrow. -/
inductive Splits : List Text → List Text → Prop
  | nil : Splits [] []
  | empty {args tokens} (tail : Splits args tokens) : Splits ([] :: args) tokens
  | whole {arg args tokens} (hne : arg ≠ []) (hw : arg.length ≤ 2 ∨ arrow ∉ arg)
      (tail : Splits args tokens) : Splits (arg :: args) (arg :: tokens)
  | glued {target args tokens} (op : Operator) (hl : 3 ≤ (op.token ++ target).length)
      (ha : arrow ∉ target) (tail : Splits args tokens) :
      Splits ((op.token ++ target) :: args) (op.token :: target :: tokens)

/-- What every token is like: not empty, without a bar, and short or without an arrow. -/
structure IsToken (t : Text) : Prop where
  ne_nil : t ≠ []
  bar_notMem : bar ∉ t
  short_or_plain : t.length ≤ 2 ∨ arrow ∉ t

theorem Operator.isToken_token (op : Operator) : IsToken op.token :=
  ⟨op.token_ne_nil, op.bar_notMem_token, Or.inl op.length_token_le⟩

/-- Tokens that are given as arguments are read as themselves. -/
theorem splits_self {tokens : List Text} (h : ∀ t ∈ tokens, IsToken t) : Splits tokens tokens := by
  induction tokens with
  | nil => exact .nil
  | cons t rest ih =>
      have ht := h t List.mem_cons_self
      exact .whole ht.ne_nil ht.short_or_plain (ih fun u hu => h u (List.mem_cons_of_mem t hu))

/-- A target that was glued to an operator is not empty. -/
theorem ne_nil_of_glued {op : Operator} {target : Text}
    (hl : 3 ≤ (op.token ++ target).length) : target ≠ [] := by
  rintro rfl
  have := op.length_token_le
  simp only [List.append_nil] at hl
  omega

theorem Splits.isToken {args tokens : List Text} (h : Splits args tokens)
    (hb : ∀ a ∈ args, bar ∉ a) : ∀ t ∈ tokens, IsToken t := by
  induction h with
  | nil => exact fun t ht => absurd ht List.not_mem_nil
  | empty _ ih => exact ih fun a ha => hb a (List.mem_cons_of_mem _ ha)
  | @whole arg args tokens hne hw _ ih =>
      intro t ht
      rcases List.mem_cons.mp ht with rfl | ht
      · exact ⟨hne, hb _ List.mem_cons_self, hw⟩
      · exact ih (fun a ha => hb a (List.mem_cons_of_mem _ ha)) t ht
  | @glued target args tokens op hl ha _ ih =>
      intro t ht
      rcases List.mem_cons.mp ht with rfl | ht
      · exact op.isToken_token
      · rcases List.mem_cons.mp ht with rfl | ht
        · refine ⟨ne_nil_of_glued hl, fun hbt => ?_, Or.inr ha⟩
          exact hb _ List.mem_cons_self (List.mem_append_right _ hbt)
        · exact ih (fun a ha => hb a (List.mem_cons_of_mem _ ha)) t ht

/-- An argument of three points or more that holds an arrow is glued. -/
theorem Splits.glued_of_mem {args tokens : List Text} (h : Splits args tokens) :
    ∀ a ∈ args, 3 ≤ a.length → arrow ∈ a →
      ∃ op : Operator, ∃ target, a = op.token ++ target ∧ arrow ∉ target := by
  induction h with
  | nil => exact fun a ha => absurd ha List.not_mem_nil
  | empty _ ih =>
      intro a ha hl harrow
      rcases List.mem_cons.mp ha with rfl | ha
      · exact absurd harrow List.not_mem_nil
      · exact ih a ha hl harrow
  | whole _ hw _ ih =>
      intro a ha hl harrow
      rcases List.mem_cons.mp ha with rfl | ha
      · rcases hw with hw | hw
        · omega
        · exact absurd harrow hw
      · exact ih a ha hl harrow
  | @glued target _ _ op _ ht _ ih =>
      intro a ha hl harrow
      rcases List.mem_cons.mp ha with rfl | ha
      · exact ⟨op, target, rfl, ht⟩
      · exact ih a ha hl harrow

theorem tokensOf_of_bar {arg : Text} (h : bar ∈ arg) : tokensOf arg = .error .pipe := by
  rw [tokensOf, if_pos (List.contains_iff_mem.mpr h)]

theorem tokensOf_of_bar_notMem {arg : Text} (h : bar ∉ arg) :
    tokensOf arg =
      if arg = [] then .ok [] else if arg.length ≤ 2 then .ok [arg] else splitGlued arg := by
  rw [tokensOf, if_neg (fun hc => h (List.contains_iff_mem.mp hc))]

theorem isToken_of_mem_operators {t : Text} (h : t ∈ operators) : IsToken t := by
  rcases (mem_operators_iff t).mp h with ⟨op, rfl⟩ | rfl
  · exact op.isToken_token
  · exact ⟨by decide, by decide, Or.inl (by decide)⟩

/-- The tokens of an argument are tokens, and they are the argument cut in pieces. -/
theorem tokensOf_eq_ok {arg : Text} {tokens : List Text} (h : tokensOf arg = .ok tokens) :
    tokens.flatten = arg ∧ ∀ t ∈ tokens, IsToken t := by
  have hbar : bar ∉ arg := by
    intro hm
    rw [tokensOf_of_bar hm] at h
    cases h
  rw [tokensOf_of_bar_notMem hbar] at h
  split at h
  · rename_i he
    obtain rfl : [] = tokens := Except.ok.inj h
    exact ⟨he.symm, by simp⟩
  · rename_i hne
    split at h
    · rename_i hshort
      obtain rfl : [arg] = tokens := Except.ok.inj h
      exact ⟨by simp, List.forall_mem_singleton.mpr ⟨hne, hbar, Or.inl hshort⟩⟩
    · rename_i hlong
      rcases splitGlued_eq_ok h with ⟨ha, rfl⟩ | ⟨operator, target, hop, ha, rfl, rfl⟩
      · exact ⟨by simp, List.forall_mem_singleton.mpr ⟨hne, hbar, Or.inr ha⟩⟩
      · have hoperator : ∀ o ∈ operators, o.length ≤ 2 := by decide
        have htarget : target ≠ [] := by
          rintro rfl
          exact hlong (by simpa using hoperator operator hop)
        have hrest : bar ∉ target := fun hm => hbar (List.mem_append_right operator hm)
        refine ⟨by simp, List.forall_mem_cons.mpr ⟨isToken_of_mem_operators hop, ?_⟩⟩
        exact List.forall_mem_singleton.mpr ⟨htarget, hrest, Or.inr ha⟩

theorem normalizeArgs_cons_eq_ok_iff {arg : Text} {args tokens : List Text} :
    normalizeArgs (arg :: args) = .ok tokens ↔
      ∃ front back, tokensOf arg = .ok front ∧ normalizeArgs args = .ok back ∧
        tokens = front ++ back := by
  rw [normalizeArgs]
  cases tokensOf arg with
  | error r => simp [bind, Except.bind]
  | ok front =>
      cases normalizeArgs args with
      | error r => simp [bind, Except.bind]
      | ok back => simp [bind, Except.bind, eq_comm]

theorem normalizeArgs_of_splits {args tokens : List Text} (h : Splits args tokens)
    (hb : ∀ a ∈ args, bar ∉ a) : normalizeArgs args = .ok tokens := by
  induction h with
  | nil => rfl
  | empty _ ih =>
      have htail := ih fun a ha => hb a (List.mem_cons_of_mem _ ha)
      exact normalizeArgs_cons_eq_ok_iff.mpr ⟨[], _, rfl, htail, rfl⟩
  | @whole arg args tokens hne hw _ ih =>
      have htail := ih fun a ha => hb a (List.mem_cons_of_mem _ ha)
      refine normalizeArgs_cons_eq_ok_iff.mpr ⟨[arg], _, ?_, htail, rfl⟩
      rw [tokensOf_of_bar_notMem (hb arg List.mem_cons_self), if_neg hne]
      by_cases hl : arg.length ≤ 2
      · rw [if_pos hl]
      · rw [if_neg hl, splitGlued_of_notMem (hw.resolve_left hl)]
  | @glued target args tokens op hl ha _ ih =>
      have htail := ih fun a ha => hb a (List.mem_cons_of_mem _ ha)
      refine normalizeArgs_cons_eq_ok_iff.mpr ⟨[op.token, target], _, ?_, htail, rfl⟩
      rw [tokensOf_of_bar_notMem (hb _ List.mem_cons_self),
        if_neg (List.append_ne_nil_of_left_ne_nil op.token_ne_nil target), if_neg (by omega),
        splitGlued_token_append op ha]

theorem splits_of_normalizeArgs {args tokens : List Text} (h : normalizeArgs args = .ok tokens)
    (hne : appendToken ∉ tokens) : Splits args tokens ∧ ∀ a ∈ args, bar ∉ a := by
  induction args generalizing tokens with
  | nil =>
      obtain rfl : [] = tokens := Except.ok.inj h
      exact ⟨.nil, fun a ha => absurd ha List.not_mem_nil⟩
  | cons arg args ih =>
      obtain ⟨front, back, hf, hback, rfl⟩ := normalizeArgs_cons_eq_ok_iff.mp h
      obtain ⟨tail, htail⟩ := ih hback fun hm => hne (List.mem_append_right _ hm)
      have hbar : bar ∉ arg := by
        intro hm
        rw [tokensOf_of_bar hm] at hf
        cases hf
      refine ⟨?_, fun a ha => (List.mem_cons.mp ha).elim (fun he => he ▸ hbar) (htail a)⟩
      rw [tokensOf_of_bar_notMem hbar] at hf
      split at hf
      · rename_i he
        obtain rfl := he
        obtain rfl : [] = front := Except.ok.inj hf
        exact .empty tail
      · rename_i hn
        split at hf
        · rename_i hl
          obtain rfl : [arg] = front := Except.ok.inj hf
          exact .whole hn (Or.inl hl) tail
        · rename_i hl
          rcases splitGlued_cases hf (fun hm => hne (List.mem_append_left _ hm)) with
            ⟨ha, rfl⟩ | ⟨op, target, ha, rfl, rfl⟩
          · exact .whole hn (Or.inr ha) tail
          · exact .glued op (by omega) ha tail

/-- Whatever normalization gives is a token. -/
theorem isToken_of_normalizeArgs {args tokens : List Text} (h : normalizeArgs args = .ok tokens) :
    ∀ t ∈ tokens, IsToken t := by
  induction args generalizing tokens with
  | nil =>
      obtain rfl : [] = tokens := Except.ok.inj h
      simp
  | cons arg args ih =>
      obtain ⟨front, back, hfront, hback, rfl⟩ := normalizeArgs_cons_eq_ok_iff.mp h
      intro t ht
      rcases List.mem_append.mp ht with ht | ht
      · exact (tokensOf_eq_ok hfront).2 t ht
      · exact ih hback t ht

theorem bar_notMem_of_normalizeArgs {args tokens : List Text}
    (h : normalizeArgs args = .ok tokens) : ∀ a ∈ args, bar ∉ a := by
  induction args generalizing tokens with
  | nil => simp
  | cons arg args ih =>
      obtain ⟨front, back, hfront, hback, -⟩ := normalizeArgs_cons_eq_ok_iff.mp h
      refine List.forall_mem_cons.mpr ⟨fun hm => ?_, ih hback⟩
      rw [tokensOf_of_bar hm] at hfront
      cases hfront

/-- Normalization leaves arguments as they are exactly if none is empty and none is a glued
redirection. -/
theorem eq_self_of_normalizeArgs_iff {args tokens : List Text}
    (h : normalizeArgs args = .ok tokens) :
    tokens = args ↔ ∀ a ∈ args, a ≠ [] ∧ (a.length ≤ 2 ∨ arrow ∉ a) := by
  constructor
  · rintro rfl a ha
    have htoken := isToken_of_normalizeArgs h a ha
    exact ⟨htoken.ne_nil, htoken.short_or_plain⟩
  · intro hargs
    have hbar := bar_notMem_of_normalizeArgs h
    have hself : normalizeArgs args = .ok args :=
      normalizeArgs_of_splits
        (splits_self fun a ha => ⟨(hargs a ha).1, hbar a ha, (hargs a ha).2⟩) hbar
    exact Except.ok.inj (h.symm.trans hself)

/-- Normalization gives tokens among which there is no appending exactly when no argument holds a
bar and the arguments are read as these tokens. -/
theorem normalizeArgs_eq_ok_iff {args tokens : List Text} (hne : appendToken ∉ tokens) :
    normalizeArgs args = .ok tokens ↔ Splits args tokens ∧ ∀ a ∈ args, bar ∉ a :=
  ⟨fun h => splits_of_normalizeArgs h hne, fun h => normalizeArgs_of_splits h.1 h.2⟩

end CommandRelay.Redirection
