import CommandRelay.Proofs.Redirection.Grammar
import Mathlib.Tactic.TFAE

/-!
# Commands and their tokens

A command that parsing gives has parts that are tokens of their own, and the tokens of such a
command are read as that command again. So the commands that parsing can give, the commands that
come back from their tokens and the commands with such parts are the same.
-/

namespace CommandRelay

open Redirection

namespace Redirection

/-- A token that is no operator, so that it can be an argument or a target. -/
structure IsPart (t : Text) : Prop extends IsToken t where
  notMem_operators : t ∉ operators

/-- The items of a command. -/
def itemsOf (c : Command) : List Item :=
  c.args.map .word ++
    ((if c.stdoutTarget = [] then [] else [.redirect .stdout c.stdoutTarget]) ++
      if c.stderrTarget = [] then [] else [.redirect .stderr c.stderrTarget])

theorem words_map_word (ts : List Text) : words (ts.map .word) = ts := by
  induction ts with
  | nil => rfl
  | cons t rest ih => rw [List.map_cons, words_cons, ih]; rfl

/-- What free-standing words do not have is found nowhere among them. -/
theorem filterMap_map_word {f : Item → Option Text} (hf : ∀ t, f (.word t) = none)
    (ts : List Text) : (ts.map Item.word).filterMap f = [] := by
  induction ts with
  | nil => rfl
  | cons t rest ih => rw [List.map_cons, List.filterMap_cons_none (hf t), ih]

theorem flatMap_tokens_map_word (ts : List Text) :
    (ts.map Item.word).flatMap Item.tokens = ts := by
  induction ts with
  | nil => rfl
  | cons t rest ih => rw [List.map_cons, List.flatMap_cons, ih]; rfl

/-- The items of a command have the tokens of the command. -/
theorem flatMap_tokens_itemsOf (c : Command) :
    (itemsOf c).flatMap Item.tokens = c.argumentTokens := by
  rw [itemsOf, List.flatMap_append, List.flatMap_append, flatMap_tokens_map_word,
    Command.argumentTokens, List.append_assoc]
  congr 2
  · by_cases h : c.stdoutTarget = [] <;> simp [Command.redirection, h, Item.tokens, Operator.token]
  · by_cases h : c.stderrTarget = [] <;> simp [Command.redirection, h, Item.tokens, Operator.token]

theorem words_itemsOf (c : Command) : words (itemsOf c) = c.args := by
  have hwords := words_map_word c.args
  unfold words at hwords ⊢
  rw [itemsOf, List.filterMap_append, List.filterMap_append, hwords]
  by_cases ho : c.stdoutTarget = [] <;> by_cases he : c.stderrTarget = [] <;>
    simp only [ho, he, ↓reduceIte] <;> exact List.append_nil c.args

theorem stdoutTargets_itemsOf (c : Command) :
    stdoutTargets (itemsOf c) = if c.stdoutTarget = [] then [] else [c.stdoutTarget] := by
  rw [stdoutTargets, itemsOf, List.filterMap_append, List.filterMap_append,
    filterMap_map_word fun _ => rfl]
  by_cases ho : c.stdoutTarget = [] <;> by_cases he : c.stderrTarget = [] <;>
    simp only [ho, he, ↓reduceIte] <;> rfl

theorem stderrTargets_itemsOf (c : Command) :
    stderrTargets (itemsOf c) = if c.stderrTarget = [] then [] else [c.stderrTarget] := by
  rw [stderrTargets, itemsOf, List.filterMap_append, List.filterMap_append,
    filterMap_map_word fun _ => rfl]
  by_cases ho : c.stdoutTarget = [] <;> by_cases he : c.stderrTarget = [] <;>
    simp only [ho, he, ↓reduceIte] <;> rfl

theorem ofItems_itemsOf (c : Command) : OfItems c c.name (itemsOf c) where
  name_eq := rfl
  args_eq := (words_itemsOf c).symm
  stdoutTarget_eq := by
    rw [stdoutTargets_itemsOf]
    split
    · assumption
    · rfl
  stderrTarget_eq := by
    rw [stderrTargets_itemsOf]
    split
    · assumption
    · rfl

theorem mem_itemsOf {c : Command} {i : Item} (h : i ∈ itemsOf c) :
    i.text ∈ c.args ∨ i.text = c.stdoutTarget ∧ c.stdoutTarget ≠ [] ∨
      i.text = c.stderrTarget ∧ c.stderrTarget ≠ [] := by
  rcases List.mem_append.mp h with h | h
  · obtain ⟨t, ht, rfl⟩ := List.mem_map.mp h
    exact Or.inl ht
  · rcases List.mem_append.mp h with h | h
    · by_cases ho : c.stdoutTarget = []
      · simp [ho] at h
      · obtain rfl : i = .redirect .stdout c.stdoutTarget := by simpa [ho] using h
        exact Or.inr (Or.inl ⟨rfl, ho⟩)
    · by_cases he : c.stderrTarget = []
      · simp [he] at h
      · obtain rfl : i = .redirect .stderr c.stderrTarget := by simpa [he] using h
        exact Or.inr (Or.inr ⟨rfl, he⟩)

theorem grammatical_itemsOf {c : Command} (h : ∀ i ∈ itemsOf c, i.text ∉ operators) :
    Grammatical (itemsOf c) where
  text_notMem := h
  stdout_once := by
    rw [stdoutTargets_itemsOf]
    split <;> simp
  stderr_once := by
    rw [stderrTargets_itemsOf]
    split <;> simp

/-! ## Parts of a command -/

/-- A command whose name may begin a command line and whose arguments and targets are tokens, none
of them an operator. -/
structure HasParts (c : Command) : Prop where
  name : IsName c.name
  args : ∀ t ∈ c.args, IsPart t
  stdoutTarget : c.stdoutTarget ≠ [] → IsPart c.stdoutTarget
  stderrTarget : c.stderrTarget ≠ [] → IsPart c.stderrTarget

theorem headD_mem {ts : List Text} (h : ts.headD [] ≠ []) : ts.headD [] ∈ ts := by
  cases ts with
  | nil => exact absurd rfl h
  | cons t rest => exact List.mem_cons_self

/-- What is read off items that are parts is a part, if it is the text of the item each time. -/
theorem isPart_of_mem_filterMap {items : List Item} {f : Item → Option Text} {t : Text}
    (hpart : ∀ i ∈ items, IsPart i.text) (hf : ∀ i t, f i = some t → i.text = t)
    (ht : t ∈ items.filterMap f) : IsPart t := by
  obtain ⟨i, hi, hit⟩ := List.mem_filterMap.mp ht
  exact hf i t hit ▸ hpart i hi

/-- What parsing gives has parts: they are texts of items, and these are tokens. -/
theorem hasParts_of_parse {name : Text} {args : List Text} {c : Command}
    (h : Command.parse name args = .ok c) : HasParts c := by
  obtain ⟨hname, hb, items, hsplit, hg, hc⟩ := parse_eq_ok_iff_ofItems.mp h
  have hpart : ∀ i ∈ items, IsPart i.text := fun i hi =>
    ⟨hsplit.isToken hb _ (List.mem_flatMap_of_mem hi i.text_mem_tokens), hg.text_notMem i hi⟩
  refine ⟨hc.name_eq ▸ hname, fun t ht => ?_, fun hne => ?_, fun hne => ?_⟩
  · rw [hc.args_eq] at ht
    exact isPart_of_mem_filterMap hpart Item.text_of_word? ht
  · rw [hc.stdoutTarget_eq] at hne ⊢
    exact isPart_of_mem_filterMap hpart Item.text_of_stdoutTarget? (headD_mem hne)
  · rw [hc.stderrTarget_eq] at hne ⊢
    exact isPart_of_mem_filterMap hpart Item.text_of_stderrTarget? (headD_mem hne)

theorem isPart_of_mem_itemsOf {c : Command} (h : HasParts c) {i : Item} (hi : i ∈ itemsOf c) :
    IsPart i.text := by
  rcases mem_itemsOf hi with ht | ⟨ht, hne⟩ | ⟨ht, hne⟩
  · exact h.args _ ht
  · exact ht ▸ h.stdoutTarget hne
  · exact ht ▸ h.stderrTarget hne

/-- The tokens of a command with parts are read as the command again. -/
theorem parse_argumentTokens {c : Command} (h : HasParts c) :
    Command.parse c.name c.argumentTokens = .ok c := by
  have htok : ∀ t ∈ c.argumentTokens, IsToken t := by
    intro t ht
    rw [← flatMap_tokens_itemsOf] at ht
    obtain ⟨i, hi, hit⟩ := List.mem_flatMap.mp ht
    have hp := isPart_of_mem_itemsOf h hi
    cases i with
    | word u => exact List.mem_singleton.mp hit ▸ hp.toIsToken
    | redirect op u =>
        rcases List.mem_cons.mp hit with rfl | hit
        · exact op.isToken_token
        · exact List.mem_singleton.mp hit ▸ hp.toIsToken
  refine parse_eq_ok_iff_ofItems.mpr ⟨h.name, fun t ht => (htok t ht).bar_notMem, itemsOf c, ?_, ?_,
    ofItems_itemsOf c⟩
  · rw [flatMap_tokens_itemsOf]
    exact splits_self htok
  · exact grammatical_itemsOf fun i hi => (isPart_of_mem_itemsOf h hi).notMem_operators

end Redirection

/-- The commands that parsing can give, those that come back from their own tokens, and those whose
name holds neither arrow nor bar and whose arguments and targets are not empty, hold no bar, are no
operator and are short or without an arrow: these are the same commands. -/
theorem Command.parse_tokens_tfae (c : Command) :
    List.TFAE [
      ∃ name args, Command.parse name args = .ok c,
      Command.parse (c.tokens.head (List.cons_ne_nil _ _)) c.tokens.tail = .ok c,
      (c.name ≠ [] ∧ arrow ∉ c.name ∧ bar ∉ c.name) ∧
        ∀ t, t ∈ c.args ∨ (t ≠ [] ∧ (t = c.stdoutTarget ∨ t = c.stderrTarget)) →
          t ≠ [] ∧ bar ∉ t ∧ t ∉ operators ∧ (t.length ≤ 2 ∨ arrow ∉ t)] := by
  tfae_have 1 → 3 := by
    rintro ⟨name, args, h⟩
    have hp := hasParts_of_parse h
    refine ⟨⟨hp.name.ne_nil, hp.name.arrow_notMem, hp.name.bar_notMem⟩, fun t ht => ?_⟩
    have hpt : IsPart t := by
      rcases ht with ht | ⟨hne, rfl | rfl⟩
      · exact hp.args t ht
      · exact hp.stdoutTarget hne
      · exact hp.stderrTarget hne
    exact ⟨hpt.ne_nil, hpt.bar_notMem, hpt.notMem_operators, hpt.short_or_plain⟩
  tfae_have 3 → 2 := by
    rintro ⟨⟨hne, harrow, hbar⟩, h⟩
    have hpart : ∀ t, t ∈ c.args ∨ (t ≠ [] ∧ (t = c.stdoutTarget ∨ t = c.stderrTarget)) →
        IsPart t := by
      intro t ht
      obtain ⟨h₁, h₂, h₃, h₄⟩ := h t ht
      exact ⟨⟨h₁, h₂, h₄⟩, h₃⟩
    exact parse_argumentTokens
      ⟨⟨hne, harrow, hbar⟩, fun t ht => hpart t (Or.inl ht),
        fun ht => hpart _ (Or.inr ⟨ht, Or.inl rfl⟩), fun ht => hpart _ (Or.inr ⟨ht, Or.inr rfl⟩)⟩
  tfae_have 2 → 1 := fun h => ⟨_, _, h⟩
  tfae_finish

end CommandRelay
