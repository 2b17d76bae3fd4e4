import CommandRelay.Proofs.Redirection.Tokens

/-!
# The grammar of command lines

The tokens of a command line are a concatenation of items: a word that stands free, or an operator
with a word as its target. Each of the two channels has at most one target. `Accepts` says which
items a name and its arguments hold, and `parse_eq_ok_iff_accepts` that parsing finds them and
nothing else.

## Implementation notes

The walk over the tokens looks for a second target by testing whether the first one is empty.
That is right only because no token is empty, so the lemmas on `assemble` assume it.
-/

namespace CommandRelay.Redirection

/-- An item of a command line: a free-standing word or a redirection. -/
inductive Item where
  | word (t : Text)
  | redirect (op : Operator) (target : Text)
  deriving DecidableEq, Repr

namespace Item

/-- The tokens of an item. -/
def tokens : Item → List Text
  | .word t => [t]
  | .redirect op target => [op.token, target]

/-- The token of an item that is no operator. -/
def text : Item → Text
  | .word t | .redirect _ t => t

/-- The word of an item that stands free. -/
def word? : Item → Option Text
  | .word t => some t
  | .redirect .. => none

/-- The target that an item gives the standard output. -/
def stdoutTarget? : Item → Option Text
  | .redirect .stdout t | .redirect .stdoutExplicit t => some t
  | _ => none

/-- The target that an item gives the standard error. -/
def stderrTarget? : Item → Option Text
  | .redirect .stderr t => some t
  | _ => none

theorem text_mem_tokens (i : Item) : i.text ∈ i.tokens := by
  cases i <;> simp [text, tokens]

theorem text_of_word? (i : Item) (t : Text) (h : i.word? = some t) : i.text = t := by
  cases i with
  | word u => exact Option.some.inj h
  | redirect op u => cases h

theorem text_of_stdoutTarget? (i : Item) (t : Text) (h : i.stdoutTarget? = some t) :
    i.text = t := by
  unfold stdoutTarget? at h
  split at h
  · exact Option.some.inj h
  · exact Option.some.inj h
  · cases h

theorem text_of_stderrTarget? (i : Item) (t : Text) (h : i.stderrTarget? = some t) :
    i.text = t := by
  unfold stderrTarget? at h
  split at h
  · exact Option.some.inj h
  · cases h

end Item

/-! ## The walk over the tokens -/

namespace Parts

/-- The target that an operator sets. -/
def target (p : Parts) : Operator → Text
  | .stderr => p.stderrTarget
  | _ => p.stdoutTarget

/-- The parts with an item more. -/
def extend (p : Parts) : Item → Parts
  | .word t => { p with args := p.args ++ [t] }
  | .redirect .stderr t => { p with stderrTarget := t }
  | .redirect _ t => { p with stdoutTarget := t }

/-- Whether an item may come next: its channel has no target yet. -/
def Admits (p : Parts) : Item → Prop
  | .word _ => True
  | .redirect op _ => p.target op = []

/-- Whether items may come next, one after the other. -/
def AdmitsAll (p : Parts) : List Item → Prop
  | [] => True
  | i :: rest => p.Admits i ∧ (p.extend i).AdmitsAll rest

end Parts

/-- The state in which the target of an operator is awaited. -/
def Operator.awaited : Operator → Expecting
  | .stderr => .stderrTarget
  | _ => .stdoutTarget

/-- Why an operator is refused whose channel has a target already. -/
def Operator.duplicate : Operator → ParseReason
  | .stderr => .duplicateStderr
  | _ => .duplicateStdout

theorem step_word {p : Parts} {t : Text} (h : t ∉ operators) (hne : t ≠ []) :
    step .item p t = .ok (.item, p.extend (.word t)) := by
  obtain ⟨h₁, h₂, h₃, h₄⟩ : t ≠ ">" ∧ t ≠ "1>" ∧ t ≠ "2>" ∧ t ≠ ">>" := by
    simpa [operators] using h
  simp only [step, h₁, h₂, h₃, h₄, hne, or_self, ↓reduceIte, Parts.extend]

theorem step_operator {p : Parts} {op : Operator} (h : p.target op = []) :
    step .item p op.token = .ok (op.awaited, p) := by
  cases op <;> exact if_pos h

theorem step_operator_of_ne {p : Parts} {op : Operator} (h : p.target op ≠ []) :
    step .item p op.token = .error op.duplicate := by
  cases op <;> exact if_neg h

/-- The token of appending is refused wherever it stands. -/
theorem exists_error_step_append (e : Expecting) (p : Parts) :
    ∃ reason, step e p appendToken = .error reason := by
  cases e with
  | item => exact ⟨.append, rfl⟩
  | stdoutTarget | stderrTarget => exact ⟨.missingTarget, rfl⟩

theorem step_target {p : Parts} {op : Operator} {t : Text} (h : t ∉ operators) :
    step op.awaited p t = .ok (.item, p.extend (.redirect op t)) := by
  cases op <;> exact if_neg h

theorem step_target_of_mem {p : Parts} {op : Operator} {t : Text} (h : t ∈ operators) :
    step op.awaited p t = .error .missingTarget := by
  cases op <;> exact if_pos h

theorem assemble_cons_of_ok {e e' : Expecting} {p p' : Parts} {t : Text} {rest : List Text}
    (h : step e p t = .ok (e', p')) : assemble e p (t :: rest) = assemble e' p' rest := by
  rw [assemble, h]
  rfl

theorem assemble_cons_of_error {e : Expecting} {p : Parts} {t : Text} {rest : List Text}
    {reason : ParseReason} (h : step e p t = .error reason) :
    assemble e p (t :: rest) = .error reason := by
  rw [assemble, h]
  rfl

theorem appendToken_notMem_of_assemble {e : Expecting} {p q : Parts} {tokens : List Text}
    (h : assemble e p tokens = .ok q) : appendToken ∉ tokens := by
  induction tokens generalizing e p with
  | nil => exact List.not_mem_nil
  | cons t rest ih =>
      intro hm
      rcases List.mem_cons.mp hm with rfl | hm
      · obtain ⟨reason, he⟩ := exists_error_step_append e p
        rw [assemble_cons_of_error he] at h
        cases h
      · cases hs : step e p t with
        | error reason =>
            rw [assemble_cons_of_error hs] at h
            cases h
        | ok next =>
            rw [assemble_cons_of_ok hs] at h
            exact ih h hm

/-- A target that is awaited comes, and it is no operator. -/
theorem exists_target_of_assemble {p q : Parts} {op : Operator} {tokens : List Text}
    (h : assemble op.awaited p tokens = .ok q) :
    ∃ t rest, tokens = t :: rest ∧ t ∉ operators ∧
      assemble .item (p.extend (.redirect op t)) rest = .ok q := by
  cases tokens with
  | nil => cases op <;> cases h
  | cons t rest =>
      by_cases ht : t ∈ operators
      · rw [assemble_cons_of_error (step_target_of_mem ht)] at h
        cases h
      · rw [assemble_cons_of_ok (step_target ht)] at h
        exact ⟨t, rest, rfl, ht, h⟩

/-- Items that may come are taken one after the other. -/
theorem assemble_flatMap {items : List Item} {p : Parts}
    (hw : ∀ i ∈ items, i.text ∉ operators) (hne : ∀ i ∈ items, i.text ≠ [])
    (ha : p.AdmitsAll items) :
    assemble .item p (items.flatMap Item.tokens) = .ok (items.foldl Parts.extend p) := by
  induction items generalizing p with
  | nil => rfl
  | cons i rest ih =>
      have hwi : i.text ∉ operators := hw i List.mem_cons_self
      have hnei : i.text ≠ [] := hne i List.mem_cons_self
      have htail := ih (fun j hj => hw j (List.mem_cons_of_mem i hj))
        (fun j hj => hne j (List.mem_cons_of_mem i hj)) ha.2
      rw [List.flatMap_cons, List.foldl_cons, ← htail]
      cases i with
      | word t => exact assemble_cons_of_ok (step_word hwi hnei)
      | redirect op t =>
          calc
            assemble .item p (op.token :: t :: rest.flatMap Item.tokens)
              = assemble op.awaited p (t :: rest.flatMap Item.tokens) :=
                assemble_cons_of_ok (step_operator ha.1)
            _ = assemble .item (p.extend (.redirect op t)) (rest.flatMap Item.tokens) :=
                assemble_cons_of_ok (step_target hwi)

/-- The walk succeeds only on tokens of items that may come. -/
theorem exists_items_of_assemble {p q : Parts} {tokens : List Text}
    (h : assemble .item p tokens = .ok q) (hne : ∀ t ∈ tokens, t ≠ []) :
    ∃ items : List Item, tokens = items.flatMap Item.tokens ∧
      (∀ i ∈ items, i.text ∉ operators) ∧ p.AdmitsAll items ∧ q = items.foldl Parts.extend p := by
  match tokens with
  | [] =>
      obtain rfl : p = q := Except.ok.inj h
      exact ⟨[], rfl, fun i hi => absurd hi List.not_mem_nil, trivial, rfl⟩
  | t :: rest =>
      by_cases ht : t ∈ operators
      · rcases (mem_operators_iff t).mp ht with ⟨op, rfl⟩ | rfl
        · by_cases hf : p.target op = []
          · rw [assemble_cons_of_ok (step_operator hf)] at h
            obtain ⟨u, rest, rfl, hu, h⟩ := exists_target_of_assemble h
            obtain ⟨items, rfl, hw, ha, rfl⟩ := exists_items_of_assemble h fun v hv =>
              hne v (List.mem_cons_of_mem _ (List.mem_cons_of_mem _ hv))
            exact ⟨.redirect op u :: items, rfl, List.forall_mem_cons.mpr ⟨hu, hw⟩, ⟨hf, ha⟩, rfl⟩
          · rw [assemble_cons_of_error (step_operator_of_ne hf)] at h
            cases h
        · obtain ⟨reason, he⟩ := exists_error_step_append .item p
          rw [assemble_cons_of_error he] at h
          cases h
      · rw [assemble_cons_of_ok (step_word ht (hne t List.mem_cons_self))] at h
        obtain ⟨items, rfl, hw, ha, rfl⟩ := exists_items_of_assemble h fun v hv =>
          hne v (List.mem_cons_of_mem _ hv)
        exact ⟨.word t :: items, rfl, List.forall_mem_cons.mpr ⟨ht, hw⟩, ⟨trivial, ha⟩, rfl⟩
termination_by tokens.length

/-! ## The parts that items give -/

/-- The words of items that stand free. -/
def words (items : List Item) : List Text :=
  items.filterMap Item.word?

/-- The targets that items give the standard output. -/
def stdoutTargets (items : List Item) : List Text :=
  items.filterMap Item.stdoutTarget?

/-- The targets that items give the standard error. -/
def stderrTargets (items : List Item) : List Text :=
  items.filterMap Item.stderrTarget?

@[simp]
theorem words_cons (i : Item) (items : List Item) :
    words (i :: items) = i.word?.toList ++ words items := by
  cases h : i.word? <;> simp [words, h]

@[simp]
theorem stdoutTargets_cons (i : Item) (items : List Item) :
    stdoutTargets (i :: items) = i.stdoutTarget?.toList ++ stdoutTargets items := by
  cases h : i.stdoutTarget? <;> simp [stdoutTargets, h]

@[simp]
theorem stderrTargets_cons (i : Item) (items : List Item) :
    stderrTargets (i :: items) = i.stderrTarget?.toList ++ stderrTargets items := by
  cases h : i.stderrTarget? <;> simp [stderrTargets, h]

/-- How many targets a channel has already. -/
def used (target : Text) : Nat :=
  if target = [] then 0 else 1

theorem used_of_ne {target : Text} (h : target ≠ []) : used target = 1 :=
  if_neg h

theorem used_le_one (target : Text) : used target ≤ 1 := by
  unfold used
  split <;> omega

theorem used_eq_zero_iff {target : Text} : used target = 0 ↔ target = [] := by
  by_cases h : target = [] <;> simp [used, h]

/-- Items may come one after the other exactly when no channel gets more than one target. -/
theorem admitsAll_iff {items : List Item} {p : Parts} (hne : ∀ i ∈ items, i.text ≠ []) :
    p.AdmitsAll items ↔
      used p.stdoutTarget + (stdoutTargets items).length ≤ 1 ∧
        used p.stderrTarget + (stderrTargets items).length ≤ 1 := by
  induction items generalizing p with
  | nil => exact iff_of_true trivial ⟨used_le_one _, used_le_one _⟩
  | cons i rest ih =>
      have hi : i.text ≠ [] := hne i List.mem_cons_self
      rw [Parts.AdmitsAll, ih fun j hj => hne j (List.mem_cons_of_mem i hj), stdoutTargets_cons,
        stderrTargets_cons]
      cases i with
      | word t => exact iff_of_eq (true_and _)
      | redirect op t =>
          have hu : used t = 1 := used_of_ne hi
          cases op <;>
            simp only [Parts.Admits, Parts.extend, Parts.target, Item.stdoutTarget?,
              Item.stderrTarget?, Option.toList_some, Option.toList_none, List.length_append,
              List.length_cons, List.length_nil, hu, ← used_eq_zero_iff] <;>
            omega

theorem args_foldl_extend (items : List Item) (p : Parts) :
    (items.foldl Parts.extend p).args = p.args ++ words items := by
  induction items generalizing p with
  | nil => exact (List.append_nil _).symm
  | cons i rest ih =>
      rw [List.foldl_cons, ih, words_cons]
      cases i with
      | word t => exact List.append_assoc p.args [t] (words rest)
      | redirect op t => cases op <;> rfl

theorem stdoutTarget_foldl_extend (items : List Item) (p : Parts) :
    (items.foldl Parts.extend p).stdoutTarget = (stdoutTargets items).getLastD p.stdoutTarget := by
  induction items generalizing p with
  | nil => rfl
  | cons i rest ih =>
      rw [List.foldl_cons, ih, stdoutTargets_cons]
      cases i with
      | word t => rfl
      | redirect op t =>
          cases op with
          | stdout | stdoutExplicit => exact List.getLastD_cons.symm
          | stderr => rfl

theorem stderrTarget_foldl_extend (items : List Item) (p : Parts) :
    (items.foldl Parts.extend p).stderrTarget = (stderrTargets items).getLastD p.stderrTarget := by
  induction items generalizing p with
  | nil => rfl
  | cons i rest ih =>
      rw [List.foldl_cons, ih, stderrTargets_cons]
      cases i with
      | word t => rfl
      | redirect op t =>
          cases op with
          | stdout | stdoutExplicit => rfl
          | stderr => exact List.getLastD_cons.symm

/-- Of at most one target, the last is the first. -/
theorem getLastD_eq_headD {targets : List Text} (h : targets.length ≤ 1) (t : Text) :
    targets.getLastD t = targets.headD t := by
  match targets, h with
  | [], _ => rfl
  | [_], _ => rfl

/-! ## Command lines -/

/-- Items that a command line may hold: no word and no target is an operator, and each channel has
at most one target. -/
structure Grammatical (items : List Item) : Prop where
  text_notMem : ∀ i ∈ items, i.text ∉ operators
  stdout_once : (stdoutTargets items).length ≤ 1
  stderr_once : (stderrTargets items).length ≤ 1

/-- A name that a command line may begin with. -/
structure IsName (name : Text) : Prop where
  ne_nil : name ≠ []
  arrow_notMem : arrow ∉ name
  bar_notMem : bar ∉ name

/-- What a command has of items: its arguments are the free-standing words in order, and each of
its targets is the one that the items give the channel, or empty. -/
structure OfItems (c : Command) (name : Text) (items : List Item) : Prop where
  name_eq : c.name = name
  args_eq : c.args = words items
  stdoutTarget_eq : c.stdoutTarget = (stdoutTargets items).headD []
  stderrTarget_eq : c.stderrTarget = (stderrTargets items).headD []

/-- A name that may begin a command line is refused for nothing that it holds itself. -/
theorem parse_of_isName {name : Text} (h : IsName name) (args : List Text) (c : Command) :
    Command.parse name args = .ok c ↔
      ∃ tokens parts, normalizeArgs args = .ok tokens ∧ assemble .item {} tokens = .ok parts ∧
        c = ⟨name, parts.args, parts.stdoutTarget, parts.stderrTarget, h.ne_nil⟩ := by
  have ha : name.contains arrow = false := by simpa using h.arrow_notMem
  have hb : name.contains bar = false := by simpa using h.bar_notMem
  simp only [Command.parse, h.ne_nil, ↓reduceDIte, ha, hb, Bool.false_eq_true, ↓reduceIte,
    normalize]
  cases hn : normalizeArgs args with
  | error r => simp [Except.mapError]
  | ok tokens =>
      simp only [Except.mapError]
      cases hs : assemble .item {} tokens with
      | error r => simp [hs]
      | ok parts => simp [hs, eq_comm]

theorem isName_of_parse {name : Text} {args : List Text} {c : Command}
    (h : Command.parse name args = .ok c) : IsName name := by
  rw [Command.parse] at h
  split at h
  · cases h
  · rename_i hne
    split at h
    · cases h
    · rename_i ha
      split at h
      · cases h
      · rename_i hb
        exact ⟨hne, by simpa using ha, by simpa using hb⟩

/-- Parsing gives the commands of the items that the arguments are read as. -/
theorem parse_eq_ok_iff_ofItems {name : Text} {args : List Text} {c : Command} :
    Command.parse name args = .ok c ↔
      IsName name ∧ (∀ a ∈ args, bar ∉ a) ∧
        ∃ items, Splits args (items.flatMap Item.tokens) ∧ Grammatical items ∧
          OfItems c name items := by
  constructor
  · intro h
    have hname := isName_of_parse h
    obtain ⟨tokens, parts, hn, hs, rfl⟩ := (parse_of_isName hname args c).mp h
    obtain ⟨hsplit, hb⟩ := splits_of_normalizeArgs hn (appendToken_notMem_of_assemble hs)
    have htok := hsplit.isToken hb
    obtain ⟨items, rfl, hw, ha, rfl⟩ := exists_items_of_assemble hs fun t ht => (htok t ht).ne_nil
    have hne : ∀ i ∈ items, i.text ≠ [] := fun i hi =>
      (htok _ (List.mem_flatMap_of_mem hi i.text_mem_tokens)).ne_nil
    obtain ⟨ho, he⟩ := (admitsAll_iff hne).mp ha
    have hg : Grammatical items := ⟨hw, by omega, by omega⟩
    refine ⟨hname, hb, items, hsplit, hg, rfl, ?_, ?_, ?_⟩
    · exact args_foldl_extend items {}
    · exact (stdoutTarget_foldl_extend items {}).trans (getLastD_eq_headD hg.stdout_once [])
    · exact (stderrTarget_foldl_extend items {}).trans (getLastD_eq_headD hg.stderr_once [])
  · rintro ⟨hname, hb, items, hsplit, hg, hc⟩
    have htok := hsplit.isToken hb
    have hne : ∀ i ∈ items, i.text ≠ [] := fun i hi =>
      (htok _ (List.mem_flatMap_of_mem hi i.text_mem_tokens)).ne_nil
    have ha : Parts.AdmitsAll {} items :=
      (admitsAll_iff hne).mpr ⟨by simpa [used] using hg.stdout_once,
        by simpa [used] using hg.stderr_once⟩
    refine (parse_of_isName hname args c).mpr ⟨_, _, normalizeArgs_of_splits hsplit hb,
      assemble_flatMap hg.text_notMem hne ha, ?_⟩
    obtain ⟨h₁, h₂, h₃, h₄⟩ := hc
    cases c
    simp only [Command.mk.injEq, args_foldl_extend, stdoutTarget_foldl_extend,
      stderrTarget_foldl_extend, getLastD_eq_headD hg.stdout_once,
      getLastD_eq_headD hg.stderr_once, List.nil_append]
    exact ⟨h₁, h₂, h₃, h₄⟩

/-- Parsing succeeds exactly on what the grammar allows: a name without arrow and bar, arguments
without bars, each long one with an arrow being an operator and a target, and tokens that are a
concatenation of words and redirections with at most one target for each channel. The command that
it gives has that name, the free-standing words and the targets of the two channels. -/
theorem parse_ok_iff_grammatical (name : Text) (args : List Text) :
    ((∃ c, Command.parse name args = .ok c) ↔
      (name ≠ [] ∧ arrow ∉ name ∧ bar ∉ name) ∧
        (∀ a ∈ args, bar ∉ a) ∧
        (∀ a ∈ args, 3 ≤ a.length → arrow ∈ a →
          ∃ op : Operator, ∃ target, a = op.token ++ target ∧ arrow ∉ target) ∧
        ∃ items, Splits args (items.flatMap Item.tokens) ∧ Grammatical items) ∧
      ∀ c items, Command.parse name args = .ok c →
        Splits args (items.flatMap Item.tokens) → Grammatical items →
          c.name = name ∧ c.args = words items ∧
            c.stdoutTarget = (stdoutTargets items).headD [] ∧
            c.stderrTarget = (stderrTargets items).headD [] := by
  refine ⟨⟨?_, ?_⟩, ?_⟩
  · rintro ⟨c, hc⟩
    obtain ⟨hname, hb, items, hsplit, hg, -⟩ := parse_eq_ok_iff_ofItems.mp hc
    exact ⟨⟨hname.ne_nil, hname.arrow_notMem, hname.bar_notMem⟩, hb, hsplit.glued_of_mem, items,
      hsplit, hg⟩
  · rintro ⟨⟨hne, harrow, hbar⟩, hb, -, items, hsplit, hg⟩
    let c : Command := ⟨name, words items, (stdoutTargets items).headD [],
      (stderrTargets items).headD [], hne⟩
    exact ⟨c, parse_eq_ok_iff_ofItems.mpr
      ⟨⟨hne, harrow, hbar⟩, hb, items, hsplit, hg, rfl, rfl, rfl, rfl⟩⟩
  · intro c items hc hsplit hg
    obtain ⟨hname, hb, -⟩ := parse_eq_ok_iff_ofItems.mp hc
    let c' : Command := ⟨name, words items, (stdoutTargets items).headD [],
      (stderrTargets items).headD [], hname.ne_nil⟩
    have hc' : Command.parse name args = .ok c' :=
      parse_eq_ok_iff_ofItems.mpr ⟨hname, hb, items, hsplit, hg, rfl, rfl, rfl, rfl⟩
    obtain rfl : c = c' := Except.ok.inj (hc.symm.trans hc')
    exact ⟨rfl, rfl, rfl, rfl⟩

/-- A line with an argument that starts in an operator, a glued target and one that follows. -/
theorem parse_ok_iff_grammatical_glued :
    ∃ c, Command.parse "ls" ["2x", "", ">out", "2>", "a>"] = .ok c ∧ c.name = "ls" ∧
      c.args = [Text.ofString "2x"] ∧ c.stdoutTarget = "out" ∧ c.stderrTarget = "a>" := by
  let items : List Item := [.word "2x", .redirect .stdout "out", .redirect .stderr "a>"]
  have hsplit : Splits ["2x", "", ">out", "2>", "a>"] (items.flatMap Item.tokens) :=
    .whole (by decide) (by decide) <| .empty <| .glued .stdout (by decide) (by decide) <|
      .whole (by decide) (by decide) <| .whole (by decide) (by decide) .nil
  have hg : Grammatical items := ⟨by decide, by decide, by decide⟩
  obtain ⟨hiff, hvalue⟩ := parse_ok_iff_grammatical "ls" ["2x", "", ">out", "2>", "a>"]
  obtain ⟨c, hc⟩ := hiff.mpr ⟨by decide, by decide, hsplit.glued_of_mem, items, hsplit, hg⟩
  exact ⟨c, hc, hvalue c items hc hsplit hg⟩

end CommandRelay.Redirection
