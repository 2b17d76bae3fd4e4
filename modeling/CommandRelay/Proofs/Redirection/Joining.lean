import CommandRelay.Proofs.Redirection.Gluing

/-!
# Argument lists that are put together

Redirections are taken away wherever they stand, so parsing goes along with putting lists of
arguments together: two commands of one name give the command with the arguments of both and the
targets of either, unless both set the same target. A list that is refused is refused whatever
follows it, unless it ends in an operator whose target is still to come (`parse_append`).

## Implementation notes

`walk` is `assemble` without the check at the end of the tokens, so that it can stop at the place
where two lists meet. The walk goes on from there as it does from the beginning, but a channel may
have a target already.
-/

namespace CommandRelay.Redirection

variable {name : Text} {args more : List Text} {tokens : List Text} {op : Operator} {p q : Parts}
  {e e' : Expecting} {reason : ParseReason} {items : List Item}

/-! ## The walk up to a place among the tokens -/

/-- What tokens do one after the other to the parts read so far. -/
def walk (s : Expecting × Parts) (tokens : List Text) : Except ParseReason (Expecting × Parts) :=
  tokens.foldlM (fun s t => step s.1 s.2 t) s

theorem walk_append (s : Expecting × Parts) (front back : List Text) :
    walk s (front ++ back) = (walk s front).bind (walk · back) :=
  List.foldlM_append

theorem walk_singleton (s : Expecting × Parts) (t : Text) : walk s [t] = step s.1 s.2 t := by
  cases h : step s.1 s.2 t <;> simp [walk, h]

/-- The walk over all tokens goes on from the place where the first of them end. -/
theorem assemble_append (s : Expecting × Parts) (front back : List Text) :
    assemble s.1 s.2 (front ++ back) =
      (walk s front).bind fun s' => assemble s'.1 s'.2 back := by
  induction front generalizing s with
  | nil => rfl
  | cons t front ih =>
      rw [List.cons_append, walk, List.foldlM_cons]
      cases h : step s.1 s.2 t with
      | error reason => exact assemble_cons_of_error h
      | ok next =>
          obtain ⟨e', p'⟩ := next
          rw [assemble_cons_of_ok h]
          exact ih (e', p')

theorem assemble_eq_walk (s : Expecting × Parts) (tokens : List Text) :
    assemble s.1 s.2 tokens =
      (walk s tokens).bind fun s' => if s'.1 = .item then .ok s'.2 else .error .missingTarget := by
  have h := assemble_append s tokens []
  rwa [List.append_nil] at h

theorem assemble_eq_ok_iff_walk :
    assemble e p tokens = .ok q ↔ walk (e, p) tokens = .ok (.item, q) := by
  rw [assemble_eq_walk (e, p)]
  cases h : walk (e, p) tokens with
  | error reason => simp [Except.bind]
  | ok s =>
      obtain ⟨e', p'⟩ := s
      cases e' <;> simp [Except.bind]

/-- A target is awaited only after the operator of a channel that has none. -/
theorem step_awaits {t : Text} (h : step e p t = .ok (e', q)) (he : e' ≠ .item) :
    ∃ op : Operator, e = .item ∧ t = op.token ∧ q.target op = [] ∧ e' = op.awaited ∧ q = p := by
  cases e with
  | item =>
      by_cases ht : t ∈ operators
      · cases (mem_operators_iff t).mp ht with
        | inl hop =>
            obtain ⟨op, rfl⟩ := hop
            by_cases hp : p.target op = []
            · rw [step_operator hp] at h
              cases h
              exact ⟨op, rfl, rfl, hp, rfl, rfl⟩
            · rw [step_operator_of_ne hp] at h
              cases h
        | inr happend =>
            subst happend
            cases h
      · by_cases hne : t = []
        · subst hne
          cases h
          exact absurd rfl he
        · rw [step_word ht hne] at h
          cases h
          exact absurd rfl he
  | stdoutTarget | stderrTarget =>
      simp only [step] at h
      split at h
      · cases h
      · cases h
        exact absurd rfl he

/-- A walk that ends where a target is awaited ends in its operator. -/
theorem walk_awaits (h : walk (.item, p) tokens = .ok (e', q)) (he : e' ≠ .item) :
    ∃ (front : List Text) (op : Operator), tokens = front ++ [op.token] ∧
      walk (.item, p) front = .ok (.item, q) ∧ q.target op = [] ∧ e' = op.awaited := by
  cases List.eq_nil_or_concat tokens with
  | inl hnil =>
      subst hnil
      cases h
      exact absurd rfl he
  | inr hlast =>
      obtain ⟨front, t, rfl⟩ := hlast
      rw [List.concat_eq_append, walk_append] at h
      cases hfront : walk (.item, p) front with
      | error reason =>
          rw [hfront] at h
          cases h
      | ok s =>
          obtain ⟨e₁, p₁⟩ := s
          rw [hfront] at h
          have hstep : step e₁ p₁ t = .ok (e', q) := (walk_singleton (e₁, p₁) t).symm.trans h
          obtain ⟨op, rfl, rfl, htarget, hawaited, rfl⟩ := step_awaits hstep he
          exact ⟨front, op, List.concat_eq_append, hfront, htarget, hawaited⟩

/-! ## Items after a command -/

/-- The targets that items give the channel of an operator. -/
def targets : Operator → List Item → List Text
  | .stderr => stderrTargets
  | _ => stdoutTargets

/-- Items that may not all come are refused for a channel that would get a second target. -/
theorem assemble_flatMap_of_not_admitsAll (hw : ∀ i ∈ items, i.text ∉ operators)
    (hne : ∀ i ∈ items, i.text ≠ []) (h : ¬ p.AdmitsAll items) :
    ∃ op : Operator, assemble .item p (items.flatMap Item.tokens) = .error op.duplicate ∧
      2 ≤ used (p.target op) + (targets op items).length := by
  induction items generalizing p with
  | nil => exact absurd trivial h
  | cons i rest ih =>
      obtain ⟨hwi, hwrest⟩ := List.forall_mem_cons.mp hw
      obtain ⟨hnei, hnerest⟩ := List.forall_mem_cons.mp hne
      rw [List.flatMap_cons]
      cases i with
      | word t =>
          have hrest : ¬ (p.extend (.word t)).AdmitsAll rest := fun hrest => h ⟨trivial, hrest⟩
          obtain ⟨op, herror, hcount⟩ := ih hwrest hnerest hrest
          refine ⟨op, ?_, ?_⟩
          · exact (assemble_cons_of_ok (step_word hwi hnei)).trans herror
          · cases op <;> exact hcount
      | redirect op t =>
          have ht : used t = 1 := used_of_ne hnei
          by_cases hp : p.target op = []
          · have hrest : ¬ (p.extend (.redirect op t)).AdmitsAll rest :=
              fun hrest => h ⟨hp, hrest⟩
            obtain ⟨op', herror, hcount⟩ := ih hwrest hnerest hrest
            refine ⟨op', ?_, ?_⟩
            · exact (assemble_cons_of_ok (step_operator hp)).trans
                ((assemble_cons_of_ok (step_target hwi)).trans herror)
            · have hfree : used (p.target op) = 0 := used_eq_zero_iff.mpr hp
              cases op <;> cases op' <;>
                simp only [Parts.target, Parts.extend, targets, stdoutTargets_cons,
                  stderrTargets_cons, Item.stdoutTarget?, Item.stderrTarget?, Option.toList_some,
                  Option.toList_none, List.nil_append, List.singleton_append, List.length_cons]
                  at hcount hfree ⊢ <;>
                omega
          · refine ⟨op, assemble_cons_of_error (step_operator_of_ne hp), ?_⟩
            have hset : used (p.target op) = 1 := used_of_ne hp
            cases op <;>
              simp [Parts.target, targets, Item.stdoutTarget?, Item.stderrTarget?] at hset ⊢ <;>
              omega

/-! ## Arguments that end in an operator -/

/-- The parts of a command without its name. -/
def partsOf (c : Command) : Parts :=
  ⟨c.args, c.stdoutTarget, c.stderrTarget⟩

/-- Arguments that give a command as far as their last operator, which sets a target that the
command has not yet and is followed by nothing, or by empty arguments. -/
def LeftOpen (name : Text) (args : List Text) : Prop :=
  ∃ (front gap : List Text) (op : Operator) (c : Command), args = front ++ op.token :: gap ∧
    (∀ a ∈ gap, a = []) ∧ Command.parse name front = .ok c ∧ (partsOf c).target op = []

theorem Splits.eq_nil (h : Splits args []) : ∀ a ∈ args, a = [] := by
  generalize htokens : ([] : List Text) = tokens at h
  induction h with
  | nil => simp
  | empty _ ih => simpa using ih htokens
  | whole => cases htokens
  | glued => cases htokens

/-- An operator that comes last is an argument of its own, for a glued one has its target. -/
theorem Splits.exists_last_operator {front : List Text} (h : Splits args (front ++ [op.token])) :
    ∃ before gap, args = before ++ op.token :: gap ∧ Splits before front ∧ ∀ a ∈ gap, a = [] := by
  generalize htokens : front ++ [op.token] = tokens at h
  induction h generalizing front with
  | nil => simp at htokens
  | empty _ ih =>
      obtain ⟨before, gap, rfl, hbefore, hgap⟩ := ih htokens
      exact ⟨[] :: before, gap, rfl, .empty hbefore, hgap⟩
  | @whole arg args tokens hne hw tail ih =>
      cases front with
      | nil =>
          obtain ⟨rfl, rfl⟩ := List.cons.inj htokens
          exact ⟨[], args, rfl, .nil, tail.eq_nil⟩
      | cons t front =>
          obtain ⟨rfl, hrest⟩ := List.cons.inj htokens
          obtain ⟨before, gap, rfl, hbefore, hgap⟩ := ih hrest
          exact ⟨t :: before, gap, rfl, .whole hne hw hbefore, hgap⟩
  | @glued target args tokens op' hl ha tail ih =>
      match front with
      | [] => simp at htokens
      | [t] =>
          obtain ⟨-, htarget⟩ := List.cons.inj htokens
          obtain ⟨htarget, -⟩ := List.cons.inj htarget
          have harrow : arrow ∈ op.token := by cases op <;> decide
          exact absurd (htarget ▸ harrow) ha
      | t :: u :: front =>
          simp only [List.cons_append, List.cons.injEq] at htokens
          obtain ⟨rfl, rfl, hrest⟩ := htokens
          obtain ⟨before, gap, rfl, hbefore, hgap⟩ := ih hrest
          exact ⟨_ :: before, gap, rfl, .glued op' hl ha hbefore, hgap⟩

/-! ## Parsing by the walk -/

theorem parse_of_assemble_error (hname : IsName name) (hn : normalizeArgs args = .ok tokens)
    (h : assemble .item {} tokens = .error reason) :
    Command.parse name args = .error ⟨reason, name, shownFor reason args tokens⟩ := by
  have harrow : name.contains arrow = false := by simpa using hname.arrow_notMem
  have hbar : name.contains bar = false := by simpa using hname.bar_notMem
  simp only [Command.parse, hname.ne_nil, ↓reduceDIte, harrow, hbar, Bool.false_eq_true, ↓reduceIte,
    normalize, hn, Except.mapError, h]

/-- What of some arguments is read before others follow: a command, or one whose redirection is
left without its target. -/
theorem parse_or_leftOpen {c : Command} (h : Command.parse name (args ++ more) = .ok c) :
    (∃ c', Command.parse name args = .ok c') ∨ LeftOpen name args := by
  have hname : IsName name := isName_of_parse h
  obtain ⟨tokens, parts, hn, ha, -⟩ := (parse_of_isName hname _ c).mp h
  obtain ⟨front, back, hfront, -, rfl⟩ := normalizeArgs_append_eq_ok_iff.mp hn
  have happend : appendToken ∉ front := fun hmem =>
    appendToken_notMem_of_assemble ha (List.mem_append_left back hmem)
  rw [assemble_append (.item, {})] at ha
  cases hwalk : walk (.item, {}) front with
  | error reason =>
      rw [hwalk] at ha
      cases ha
  | ok s =>
      obtain ⟨e, p⟩ := s
      by_cases he : e = .item
      · subst he
        exact .inl ⟨_, (parse_of_isName hname args _).mpr
          ⟨front, p, hfront, assemble_eq_ok_iff_walk.mpr hwalk, rfl⟩⟩
      · obtain ⟨start, op, rfl, hstart, htarget, -⟩ := walk_awaits hwalk he
        obtain ⟨hsplit, hbar⟩ := splits_of_normalizeArgs hfront happend
        obtain ⟨before, gap, rfl, hbefore, hgap⟩ := hsplit.exists_last_operator
        have hn' : normalizeArgs before = .ok start :=
          normalizeArgs_of_splits hbefore fun a ha => hbar a (List.mem_append_left _ ha)
        exact .inr ⟨before, gap, op, _, rfl, hgap, (parse_of_isName hname before _).mpr
          ⟨start, p, hn', assemble_eq_ok_iff_walk.mpr hstart, rfl⟩, htarget⟩

theorem normalizeArgs_gap {gap : List Text} (h : ∀ a ∈ gap, a = []) :
    normalizeArgs gap = .ok [] := by
  induction gap with
  | nil => rfl
  | cons a gap ih =>
      obtain ⟨rfl, hgap⟩ := List.forall_mem_cons.mp h
      exact normalizeArgs_cons_eq_ok_iff.mpr ⟨[], [], rfl, ih hgap, rfl⟩

/-- The tokens of arguments that end in an operator, and what the walk has read there. -/
theorem LeftOpen.walk_eq (h : LeftOpen name args) :
    IsName name ∧ ∃ (tokens : List Text) (op : Operator) (p : Parts),
      normalizeArgs args = .ok tokens ∧ walk (.item, {}) tokens = .ok (op.awaited, p) := by
  obtain ⟨front, gap, op, c, rfl, hgap, hparse, htarget⟩ := h
  have hname : IsName name := isName_of_parse hparse
  obtain ⟨tokens, p, hn, ha, rfl⟩ := (parse_of_isName hname front c).mp hparse
  have hop : normalizeArgs [op.token] = .ok [op.token] :=
    normalizeArgs_self (List.forall_mem_singleton.mpr op.isToken_token)
  refine ⟨hname, tokens ++ [op.token], op, p, ?_, ?_⟩
  · refine normalizeArgs_append_eq_ok_iff.mpr ⟨tokens, [op.token], hn, ?_, rfl⟩
    exact normalizeArgs_append_eq_ok_iff.mpr ⟨[op.token], [], hop, normalizeArgs_gap hgap, rfl⟩
  · rw [walk_append, assemble_eq_ok_iff_walk.mp ha]
    exact (walk_singleton _ _).trans (step_operator htarget)

theorem LeftOpen.parse_eq (h : LeftOpen name args) :
    ∃ e, Command.parse name args = .error e ∧ e.reason = .missingTarget := by
  obtain ⟨hname, tokens, op, p, hn, hwalk⟩ := h.walk_eq
  refine ⟨_, parse_of_assemble_error hname hn ?_, rfl⟩
  rw [assemble_eq_walk (.item, {}), hwalk]
  cases op <;> rfl

/-- The target that is still to come makes the arguments a command. -/
theorem LeftOpen.exists_parse (h : LeftOpen name args) :
    ∃ more c, Command.parse name (args ++ more) = .ok c := by
  obtain ⟨hname, tokens, op, p, hn, hwalk⟩ := h.walk_eq
  have hmore : normalizeArgs (args ++ [Text.ofString "x"]) = .ok (tokens ++ [Text.ofString "x"]) :=
    normalizeArgs_append_eq_ok_iff.mpr ⟨tokens, [Text.ofString "x"], hn, rfl, rfl⟩
  have hassemble : assemble .item {} (tokens ++ [Text.ofString "x"]) =
      .ok (p.extend (.redirect op "x")) := by
    rw [assemble_append (.item, {}), hwalk]
    exact assemble_cons_of_ok (step_target (by decide))
  exact ⟨_, _, (parse_of_isName hname _ _).mpr ⟨_, _, hmore, hassemble, rfl⟩⟩

/-! ## Two commands of one name -/

/-- The target that is set, if one of two is. -/
def eitherTarget (t u : Text) : Text :=
  if t = [] then u else t

theorem used_add_le_one_iff {t u : Text} : used t + used u ≤ 1 ↔ ¬ (t ≠ [] ∧ u ≠ []) := by
  by_cases ht : t = [] <;> by_cases hu : u = [] <;> simp [used, ht, hu]

theorem used_headD {ts : List Text} (h : ts.length ≤ 1) (hne : ∀ t ∈ ts, t ≠ []) :
    used (ts.headD []) = ts.length := by
  match ts, h with
  | [], _ => rfl
  | [t], _ => exact used_of_ne (hne t List.mem_cons_self)

theorem getLastD_eq_eitherTarget {ts : List Text} {t : Text} (h : used t + ts.length ≤ 1) :
    ts.getLastD t = eitherTarget t (ts.headD []) := by
  by_cases ht : t = []
  · rw [eitherTarget, if_pos ht, ht]
    exact getLastD_eq_headD (by omega) []
  · have hnil : ts = [] := List.length_eq_zero_iff.mp (by rw [used_of_ne ht] at h; omega)
    rw [eitherTarget, if_neg ht, hnil]
    rfl

/-- A target that items give is set, for none of them is empty. -/
theorem OfItems.used_eq {c : Command} (h : OfItems c name items) (hg : Grammatical items)
    (hne : ∀ i ∈ items, i.text ≠ []) :
    used c.stdoutTarget = (stdoutTargets items).length ∧
      used c.stderrTarget = (stderrTargets items).length := by
  constructor
  · rw [h.stdoutTarget_eq]
    apply used_headD hg.stdout_once
    intro t ht
    obtain ⟨i, hi, hit⟩ := List.mem_filterMap.mp ht
    exact i.text_of_stdoutTarget? t hit ▸ hne i hi
  · rw [h.stderrTarget_eq]
    apply used_headD hg.stderr_once
    intro t ht
    obtain ⟨i, hi, hit⟩ := List.mem_filterMap.mp ht
    exact i.text_of_stderrTarget? t hit ▸ hne i hi

variable {c₁ c₂ : Command}

/-- No target is set by both of two commands. -/
def Compatible (c₁ c₂ : Command) : Prop :=
  ¬ (c₁.stdoutTarget ≠ [] ∧ c₂.stdoutTarget ≠ []) ∧
    ¬ (c₁.stderrTarget ≠ [] ∧ c₂.stderrTarget ≠ [])

/-- Items of a command may come after the parts of another one exactly if the two commands are
compatible. -/
theorem admitsAll_partsOf_iff (hc : OfItems c₂ name items) (hg : Grammatical items)
    (hne : ∀ i ∈ items, i.text ≠ []) : (partsOf c₁).AdmitsAll items ↔ Compatible c₁ c₂ := by
  obtain ⟨hout, herr⟩ := hc.used_eq hg hne
  rw [admitsAll_iff hne, ← hout, ← herr, used_add_le_one_iff, used_add_le_one_iff]
  rfl

/-- The items of the second list come after the parts of the first command. -/
theorem exists_items_of_parse_append (h₁ : Command.parse name args = .ok c₁)
    (h₂ : Command.parse name more = .ok c₂) :
    ∃ (tokens : List Text) (items : List Item), normalizeArgs (args ++ more) = .ok tokens ∧
      assemble .item {} tokens = assemble .item (partsOf c₁) (items.flatMap Item.tokens) ∧
      Grammatical items ∧ (∀ i ∈ items, i.text ≠ []) ∧ OfItems c₂ name items := by
  obtain ⟨front, p, hfront, ha, hc₁⟩ := (parse_of_isName (isName_of_parse h₁) args c₁).mp h₁
  obtain ⟨-, hbar, items, hsplit, hg, hc⟩ := parse_eq_ok_iff_ofItems.mp h₂
  have hback : normalizeArgs more = .ok (items.flatMap Item.tokens) :=
    normalizeArgs_of_splits hsplit hbar
  have hne : ∀ i ∈ items, i.text ≠ [] := fun i hi =>
    (hsplit.isToken hbar _ (List.mem_flatMap_of_mem hi i.text_mem_tokens)).ne_nil
  refine ⟨_, items, normalizeArgs_append_eq_ok_iff.mpr ⟨front, _, hfront, hback, rfl⟩, ?_, hg, hne,
    hc⟩
  rw [assemble_append (.item, {}), assemble_eq_ok_iff_walk.mp ha, hc₁]
  rfl

theorem parse_append_of_compatible (h₁ : Command.parse name args = .ok c₁)
    (h₂ : Command.parse name more = .ok c₂) (h : Compatible c₁ c₂) :
    ∃ c, Command.parse name (args ++ more) = .ok c ∧ c.name = name ∧
      c.args = c₁.args ++ c₂.args ∧
      c.stdoutTarget = eitherTarget c₁.stdoutTarget c₂.stdoutTarget ∧
      c.stderrTarget = eitherTarget c₁.stderrTarget c₂.stderrTarget := by
  obtain ⟨tokens, items, hn, ha, hg, hne, hc⟩ := exists_items_of_parse_append h₁ h₂
  have hall : (partsOf c₁).AdmitsAll items := (admitsAll_partsOf_iff hc hg hne).mpr h
  have hassemble : assemble .item {} tokens = .ok (items.foldl Parts.extend (partsOf c₁)) :=
    ha.trans (assemble_flatMap hg.text_notMem hne hall)
  obtain ⟨hout, herr⟩ := (admitsAll_iff hne).mp hall
  refine ⟨_, (parse_of_isName (isName_of_parse h₁) _ _).mpr ⟨_, _, hn, hassemble, rfl⟩, rfl,
    ?_, ?_, ?_⟩
  · rw [hc.args_eq]
    exact args_foldl_extend items (partsOf c₁)
  · rw [hc.stdoutTarget_eq]
    exact (stdoutTarget_foldl_extend items (partsOf c₁)).trans (getLastD_eq_eitherTarget hout)
  · rw [hc.stderrTarget_eq]
    exact (stderrTarget_foldl_extend items (partsOf c₁)).trans (getLastD_eq_eitherTarget herr)

theorem parse_append_of_not_compatible (h₁ : Command.parse name args = .ok c₁)
    (h₂ : Command.parse name more = .ok c₂) (h : ¬ Compatible c₁ c₂) :
    ∃ e, Command.parse name (args ++ more) = .error e ∧
      (e.reason = .duplicateStdout ∧ c₁.stdoutTarget ≠ [] ∧ c₂.stdoutTarget ≠ [] ∨
        e.reason = .duplicateStderr ∧ c₁.stderrTarget ≠ [] ∧ c₂.stderrTarget ≠ []) := by
  obtain ⟨tokens, items, hn, ha, hg, hne, hc⟩ := exists_items_of_parse_append h₁ h₂
  have hnot : ¬ (partsOf c₁).AdmitsAll items := mt (admitsAll_partsOf_iff hc hg hne).mp h
  obtain ⟨op, herror, hcount⟩ := assemble_flatMap_of_not_admitsAll hg.text_notMem hne hnot
  obtain ⟨hout, herr⟩ := hc.used_eq hg hne
  have hboth {t u : Text} (hu : 2 ≤ used t + used u) : t ≠ [] ∧ u ≠ [] := by
    by_contra hnone
    have hle := used_add_le_one_iff.mpr hnone
    omega
  refine ⟨_, parse_of_assemble_error (isName_of_parse h₁) hn (ha.trans herror), ?_⟩
  cases op with
  | stdout | stdoutExplicit => exact .inl ⟨rfl, hboth (hout ▸ hcount)⟩
  | stderr => exact .inr ⟨rfl, hboth (herr ▸ hcount)⟩

/-- Parsing goes along with putting lists of arguments together. Of two commands of one name it
gives the command with the arguments of both and the targets of either, exactly if they do not both
set the same target; otherwise it is refused for that target. A list that is refused for anything
but an operator at its end whose target is still to come is refused whatever follows. -/
theorem parse_append (name : Text) (args : List Text) :
    (∀ more c₁ c₂, Command.parse name args = .ok c₁ → Command.parse name more = .ok c₂ →
      ((∃ c, Command.parse name (args ++ more) = .ok c) ↔
        ¬ (c₁.stdoutTarget ≠ [] ∧ c₂.stdoutTarget ≠ []) ∧
          ¬ (c₁.stderrTarget ≠ [] ∧ c₂.stderrTarget ≠ [])) ∧
      (∀ c, Command.parse name (args ++ more) = .ok c →
        c.name = name ∧ c.args = c₁.args ++ c₂.args ∧
          c.stdoutTarget = eitherTarget c₁.stdoutTarget c₂.stdoutTarget ∧
          c.stderrTarget = eitherTarget c₁.stderrTarget c₂.stderrTarget) ∧
      ∀ e, Command.parse name (args ++ more) = .error e →
        e.reason = .duplicateStdout ∧ c₁.stdoutTarget ≠ [] ∧ c₂.stdoutTarget ≠ [] ∨
          e.reason = .duplicateStderr ∧ c₁.stderrTarget ≠ [] ∧ c₂.stderrTarget ≠ []) ∧
    (∀ e, Command.parse name args = .error e → ¬ LeftOpen name args →
      ∀ more, ∃ e', Command.parse name (args ++ more) = .error e') ∧
    (LeftOpen name args → (∃ e, Command.parse name args = .error e ∧ e.reason = .missingTarget) ∧
      ∃ more c, Command.parse name (args ++ more) = .ok c) := by
  refine ⟨?_, ?_, fun h => ⟨h.parse_eq, h.exists_parse⟩⟩
  · intro more c₁ c₂ h₁ h₂
    refine ⟨⟨?_, ?_⟩, ?_, ?_⟩
    · rintro ⟨c, hc⟩
      by_contra hnot
      obtain ⟨e, he, -⟩ := parse_append_of_not_compatible h₁ h₂ hnot
      rw [hc] at he
      cases he
    · intro h
      obtain ⟨c, hc, -⟩ := parse_append_of_compatible h₁ h₂ h
      exact ⟨c, hc⟩
    · intro c hc
      by_cases h : Compatible c₁ c₂
      · obtain ⟨c', hc', hparts⟩ := parse_append_of_compatible h₁ h₂ h
        obtain rfl : c = c' := Except.ok.inj (hc.symm.trans hc')
        exact hparts
      · obtain ⟨e, he, -⟩ := parse_append_of_not_compatible h₁ h₂ h
        rw [hc] at he
        cases he
    · intro e he
      by_cases h : Compatible c₁ c₂
      · obtain ⟨c, hc, -⟩ := parse_append_of_compatible h₁ h₂ h
        rw [hc] at he
        cases he
      · obtain ⟨e', he', hreason⟩ := parse_append_of_not_compatible h₁ h₂ h
        obtain rfl : e = e' := Except.error.inj (he.symm.trans he')
        exact hreason
  · intro e he hopen more
    cases h : Command.parse name (args ++ more) with
    | error e' => exact ⟨e', rfl⟩
    | ok c =>
        cases parse_or_leftOpen h with
        | inl hparse =>
            obtain ⟨c', hc'⟩ := hparse
            rw [he] at hc'
            cases hc'
        | inr hleft => exact absurd hleft hopen

/-- Two lists that both set the standard error, and one that is refused for an operator in the place
of a target, whatever follows it. -/
theorem parse_append_refused :
    (∀ c, Command.parse "ls"
        ([Text.ofString "a", "2>xx", ">", "yy"] ++ [Text.ofString "2>", "z"]) ≠ .ok c) ∧
      ∀ more, ∃ e, Command.parse "ls" ([Text.ofString ">", "2>"] ++ more) = .error e := by
  constructor
  · intro c hc
    obtain ⟨c₁, h₁, hset₁⟩ :
        ∃ c, Command.parse "ls" ["a", "2>xx", ">", "yy"] = .ok c ∧ c.stderrTarget ≠ [] :=
      ⟨_, rfl, by decide⟩
    obtain ⟨c₂, h₂, hset₂⟩ : ∃ c, Command.parse "ls" ["2>", "z"] = .ok c ∧ c.stderrTarget ≠ [] :=
      ⟨_, rfl, by decide⟩
    obtain ⟨hiff, -⟩ := (parse_append "ls" _).1 _ c₁ c₂ h₁ h₂
    exact (hiff.mp ⟨c, hc⟩).2 ⟨hset₁, hset₂⟩
  · have hopen : ¬ LeftOpen "ls" [">", "2>"] := by
      rintro ⟨front, gap, op, c, hargs, hgap, hparse, -⟩
      match front with
      | [] =>
          obtain ⟨-, rfl⟩ := List.cons.inj hargs
          simp [Text.ofString] at hgap
      | [t] =>
          obtain ⟨rfl, -⟩ := List.cons.inj hargs
          cases hparse
      | t :: u :: front => simp at hargs
    exact (parse_append "ls" _).2.1 ⟨.missingTarget, "ls", [">", "2>"]⟩ rfl hopen

end CommandRelay.Redirection
