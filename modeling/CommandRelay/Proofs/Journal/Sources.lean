import CommandRelay.Proofs.Journal.Openings

/-!
# Two ways to give settings

The level and the layout of a journal stand in a section of a document, or under dotted keys in a
table. Whichever way they are given, the level is the same: one that is not there, null or empty
stands for the default. So is the layout, if it is not given or a text with points in it. A layout
that is null or empty is another one in the section, where it leaves the text of a line alone, than
under the dotted key, where it stands for the default (`nested_dotted_agree`).
-/

namespace CommandRelay.Journal

/-- What is given for a setting: nothing, null, or a text. -/
inductive Setting where
  | absent
  | null
  | text (t : Text)

namespace Setting

/-- The value under the key of a setting. -/
def value? : Setting → Option Value
  | .absent => none
  | .null => some .null
  | .text t => some (.string t)

/-- What is given counts as nothing, but it is there. -/
inductive IsVoid : Setting → Prop
  | null : IsVoid .null
  | empty : IsVoid (.text [])

/-- What is given is not told from nothing by a look-up. -/
inductive IsUnset : Setting → Prop
  | absent : IsUnset .absent
  | null : IsUnset .null

end Setting

/-- The level and the layout are given under two keys. -/
structure Holds (fields : List (Text × Value)) (levelKey layoutKey : Text)
    (level layout : Setting) : Prop where
  level_eq : Value.lookup? fields levelKey = level.value?
  layout_eq : Value.lookup? fields layoutKey = layout.value?

/-- A document with a section of journals and nothing else. -/
def nested (inner : List (Text × Value)) : Source :=
  .document (.object [("logging", .object inner)])

/-- A table in which no section of journals is found. -/
def HasNoSection (fields : List (Text × Value)) : Prop :=
  isTruthy ((Value.lookup? fields "logging").getD .null) = false

variable {inner fields : List (Text × Value)} {level layout : Setting}

/-! ## Looking up -/

theorem sectionPair_of_hasNoSection (h : HasNoSection fields) :
    sectionPair fields = .ok (defaultLevel, defaultLayout) := by
  unfold sectionPair
  simp only
  rw [h]
  rfl

theorem sectionPair_of_holds (h : Holds inner "level" "format" level layout)
    (hsection : Value.lookup? fields "logging" = some (.object inner)) :
    sectionPair fields =
      .ok (level.value?.getD defaultLevel, layout.value?.getD defaultLayout) := by
  rw [← h.level_eq, ← h.layout_eq]
  unfold sectionPair
  rw [hsection]
  cases inner <;> rfl

theorem settings_nested (h : Holds inner "level" "format" level layout) :
    (nested inner).settings =
      settingsOf (level.value?.getD defaultLevel) (layout.value?.getD defaultLayout) :=
  Source.settings_of_read (sectionPair_of_holds h rfl)

theorem dottedPair?_of_isUnset (h : Holds fields "logging.level" "logging.format" level layout)
    (hlevel : level.IsUnset) (hlayout : layout.IsUnset) : dottedPair? fields = none := by
  simp only [dottedPair?, h.level_eq, h.layout_eq]
  cases hlevel <;> cases hlayout <;> rfl

theorem dottedPair?_of_not_isUnset (h : Holds fields "logging.level" "logging.format" level layout)
    (hset : ¬ (level.IsUnset ∧ layout.IsUnset)) :
    dottedPair? fields = some (orElse (level.value?.getD .null) defaultLevel,
      orElse (layout.value?.getD .null) defaultLayout) := by
  simp only [dottedPair?, h.level_eq, h.layout_eq]
  cases level with
  | text t => cases layout <;> rfl
  | absent | null =>
      cases layout with
      | text t => rfl
      | absent | null => exact absurd ⟨by constructor, by constructor⟩ hset

theorem orElse_of_isUnset {s : Setting} (h : s.IsUnset) (other : Value) :
    orElse (s.value?.getD .null) other = other := by
  cases h <;> rfl

/-- A table falls back on its section only if it has one and nothing under the dotted keys. -/
theorem read_dotted (h : Holds fields "logging.level" "logging.format" level layout)
    (hown : HasNoSection fields ∨ ¬ (level.IsUnset ∧ layout.IsUnset)) :
    (Source.dotted fields).read = .ok (orElse (level.value?.getD .null) defaultLevel,
      orElse (layout.value?.getD .null) defaultLayout) := by
  by_cases hunset : level.IsUnset ∧ layout.IsUnset
  · have hnone : HasNoSection fields := hown.resolve_right (not_not_intro hunset)
    rw [Source.read, dottedPair?_of_isUnset h hunset.1 hunset.2, orElse_of_isUnset hunset.1,
      orElse_of_isUnset hunset.2]
    exact sectionPair_of_hasNoSection hnone
  · rw [Source.read, dottedPair?_of_not_isUnset h hunset]

theorem read_dotted_of_isUnset (h : Holds fields "logging.level" "logging.format" level layout)
    (hinner : Holds inner "level" "format" level layout)
    (hsection : Value.lookup? fields "logging" = some (.object inner))
    (hunset : level.IsUnset ∧ layout.IsUnset) :
    (Source.dotted fields).read =
      .ok (level.value?.getD defaultLevel, layout.value?.getD defaultLayout) := by
  rw [Source.read, dottedPair?_of_isUnset h hunset.1 hunset.2]
  exact sectionPair_of_holds hinner hsection

/-! ## What settings stand for -/

/-- A level that counts as nothing stands for the default one, under either kind of key. -/
theorem rankOf_orElse (level : Setting) :
    rankOf (orElse (level.value?.getD .null) defaultLevel) =
      rankOf (level.value?.getD defaultLevel) := by
  cases level with
  | absent => rfl
  | null => rfl
  | text t =>
      by_cases ht : t = []
      · subst ht
        rfl
      · have htruthy : isTruthy (.string t) = true := decide_eq_true ht
        exact congrArg rankOf (if_pos htruthy)

theorem orElse_of_isVoid (h : layout.IsVoid) (other : Value) :
    orElse (layout.value?.getD .null) other = other := by
  cases h <;> rfl

theorem layoutOf_of_isVoid (h : layout.IsVoid) (other : Value) :
    layoutOf (layout.value?.getD other) = .ok plainLayout := by
  cases h <;> rfl

/-- A layout that is a text with points, or is not given, is the same under either kind of key. -/
theorem orElse_of_not_isVoid (h : ¬ layout.IsVoid) (other : Value) :
    orElse (layout.value?.getD .null) other = layout.value?.getD other := by
  cases layout with
  | absent => rfl
  | null => exact absurd .null h
  | text t =>
      have ht : t ≠ [] := by
        rintro rfl
        exact h .empty
      exact if_pos (decide_eq_true ht)

/-- What stands under dotted keys: the level that the section would give, and the layout too, unless
it counts as nothing; then it is the default one, if the table has no section to fall back on. -/
theorem exists_settings_dotted (hinner : Holds inner "level" "format" level layout)
    (hfields : Holds fields "logging.level" "logging.format" level layout)
    (hsection : HasNoSection fields ∨ Value.lookup? fields "logging" = some (.object inner)) :
    ∃ given, (Source.dotted fields).settings =
        settingsOf (level.value?.getD defaultLevel) given ∧
      (¬ layout.IsVoid → given = layout.value?.getD defaultLayout) ∧
      (layout.IsVoid → given = defaultLayout ∨
        ¬ HasNoSection fields ∧ given = layout.value?.getD defaultLayout) := by
  by_cases hown : HasNoSection fields ∨ ¬ (level.IsUnset ∧ layout.IsUnset)
  · refine ⟨orElse (layout.value?.getD .null) defaultLayout, ?_,
      fun hvoid => orElse_of_not_isVoid hvoid _, fun hvoid => .inl (orElse_of_isVoid hvoid _)⟩
    rw [Source.settings_of_read (read_dotted hfields hown)]
    exact settingsOf_congr (rankOf_orElse level) _
  · obtain ⟨hnone, hunset⟩ := not_or.mp hown
    refine ⟨layout.value?.getD defaultLayout, ?_, fun _ => rfl, fun _ => .inr ⟨hnone, rfl⟩⟩
    exact Source.settings_of_read (read_dotted_of_isUnset hfields hinner
      (hsection.resolve_left hnone) (Classical.not_not.mp hunset))

/-- The default layout is a text, and it is accepted. -/
theorem exists_defaultLayout :
    ∃ t, Value.string t = defaultLayout ∧ layoutOf defaultLayout = .ok t :=
  ⟨_, rfl, layoutOf_of_hasField (by decide +kernel)⟩

/-- The same settings in a section and under dotted keys: they are at fault for the same reason, or
stand for the same rank, and for the same layout unless it is given as null or empty. -/
theorem settings_agree (hinner : Holds inner "level" "format" level layout)
    (hfields : Holds fields "logging.level" "logging.format" level layout)
    (hsection : HasNoSection fields ∨ Value.lookup? fields "logging" = some (.object inner)) :
    (∃ fault, (nested inner).settings = .error fault ∧
      (Source.dotted fields).settings = .error fault) ∨
    ∃ rank text text', (nested inner).settings = .ok (rank, text) ∧
      (Source.dotted fields).settings = .ok (rank, text') ∧
      (¬ layout.IsVoid → text' = text) ∧
      (layout.IsVoid → text = plainLayout ∧
        (HasNoSection fields → Value.string text' = defaultLayout)) := by
  have hnested := settings_nested hinner
  obtain ⟨given, hdotted, hset, hvoid⟩ := exists_settings_dotted hinner hfields hsection
  rw [hnested, hdotted]
  by_cases hlayout : layout.IsVoid
  · cases hrank : rankOf (level.value?.getD defaultLevel) with
    | error fault =>
        exact .inl ⟨fault, settingsOf_eq_error_iff.mpr (.inl hrank),
          settingsOf_eq_error_iff.mpr (.inl hrank)⟩
    | ok rank =>
        have hplain := layoutOf_of_isVoid hlayout defaultLayout
        obtain ⟨text', hgiven, htext⟩ : ∃ text', layoutOf given = .ok text' ∧
            (HasNoSection fields → Value.string text' = defaultLayout) := by
          rcases hvoid hlayout with rfl | ⟨hsome, rfl⟩
          · obtain ⟨t, ht, haccepted⟩ := exists_defaultLayout
            exact ⟨t, haccepted, fun _ => ht⟩
          · exact ⟨_, hplain, fun hnone => absurd hnone hsome⟩
        exact .inr ⟨rank, _, text', settingsOf_eq_ok_iff.mpr ⟨hrank, hplain⟩,
          settingsOf_eq_ok_iff.mpr ⟨hrank, hgiven⟩, fun h => absurd hlayout h,
          fun _ => ⟨rfl, htext⟩⟩
  · rw [hset hlayout]
    cases settingsOf (level.value?.getD defaultLevel) (layout.value?.getD defaultLayout) with
    | error fault => exact .inl ⟨fault, rfl, rfl⟩
    | ok wanted => exact .inr ⟨_, _, _, rfl, rfl, fun _ => rfl, fun h => absurd h hlayout⟩

/-! ## Journals -/

variable {r r' : Registry} {base path path' : Text}

/-- A journal that is opened with a section and one that is opened with the same settings under
dotted keys, each for a fresh path: either both are refused for the same fault, or both have the
same level and write every line with the same text. The text takes that the layout is not given, or
a text with points. One that is null or empty leaves lines as plain as they are in the first
journal, and is the default one in the second. -/
theorem nested_dotted_agree (hinner : Holds inner "level" "format" level layout)
    (hfields : Holds fields "logging.level" "logging.format" level layout)
    (hsection : HasNoSection fields ∨ Value.lookup? fields "logging" = some (.object inner))
    (hfresh : r.IsFresh base path) (hfresh' : r'.IsFresh base path') (console : Bool) :
    (∃ fault, (r.openJournal base (some path) (nested inner) console).2 = .error fault ∧
      (r'.openJournal base (some path') (.dotted fields) console).2 = .error fault) ∨
    ∃ rank text text' e e', r.Gives base path (nested inner) console e ∧
      r'.Gives base path' (.dotted fields) console e' ∧ e.Lays rank text ∧ e'.Lays rank text' ∧
      (¬ layout.IsVoid → ∀ o ∈ e.outputs, ∀ o' ∈ e'.outputs, ∀ occasion l,
        o'.bytes? occasion l = o.bytes? occasion l) ∧
      (layout.IsVoid → text = plainLayout ∧
        (HasNoSection fields → Value.string text' = defaultLayout)) := by
  rcases settings_agree hinner hfields hsection with
    ⟨fault, hnested, hdotted⟩ | ⟨rank, text, text', hnested, hdotted, hset, hvoid⟩
  · exact .inl ⟨fault, hfresh.refuses hnested console, hfresh'.refuses hdotted console⟩
  · obtain ⟨e, hgives, hlays⟩ := hfresh.gives hnested console
    obtain ⟨e', hgives', hlays'⟩ := hfresh'.gives hdotted console
    refine .inr ⟨rank, text, text', e, e', hgives, hgives', hlays, hlays',
      fun hlayout o ho o' ho' => ?_, hvoid⟩
    have hsame : o'.layout = o.layout := by
      rw [(hlays'.outputs o' ho').2, (hlays.outputs o ho).2, hset hlayout]
    exact Output.bytes?_congr hsame

/-- The level and the layout of a journal in a section, or under dotted keys. -/
def fieldsUnder (levelKey layoutKey : Text) (level layout : Value) : List (Text × Value) :=
  [(levelKey, level), (layoutKey, layout)]

/-- Two journals of one program, one of them in a directory that has to be made. -/
theorem nested_dotted_agree_debug :
    let level := Value.string "debug"
    let layout := Value.string "%(levelname)s %(message)s"
    let source := nested (fieldsUnder "level" "format" level layout)
    let source' := Source.dotted (fieldsUnder "logging.level" "logging.format" level layout)
    let first := (({} : Registry).openJournal "/w" (some "logs/a") source false).1
    ∃ e e', ({} : Registry).Gives "/w" "logs/a" source false e ∧
      first.Gives "/w" "b" source' false e' ∧ e.rank = 10 ∧ e'.rank = 10 ∧
      ∀ o ∈ e.outputs, ∀ o' ∈ e'.outputs, ∀ occasion l,
        o'.bytes? occasion l = o.bytes? occasion l := by
  intro level layout source source' first
  have hfresh : ({} : Registry).IsFresh "/w" "logs/a" :=
    ⟨by decide, rfl, by decide +kernel, by decide +kernel⟩
  have hfresh' : first.IsFresh "/w" "b" :=
    ⟨by decide, by decide +kernel, by decide +kernel, by decide +kernel⟩
  have hrank : (({} : Registry).openJournal "/w" (some "logs/a") source false).2.toOption.map
      Entry.rank = some 10 := by decide +kernel
  have hinner : Holds (fieldsUnder "level" "format" level layout) "level" "format"
      (.text "debug") (.text "%(levelname)s %(message)s") := ⟨rfl, rfl⟩
  have hfields : Holds (fieldsUnder "logging.level" "logging.format" level layout)
      "logging.level" "logging.format" (.text "debug") (.text "%(levelname)s %(message)s") :=
    ⟨rfl, rfl⟩
  rcases nested_dotted_agree hinner hfields (.inl rfl) hfresh hfresh' false with
    ⟨fault, hfault, -⟩ | ⟨rank, text, text', e, e', hgives, hgives', hlays, hlays', hsame, -⟩
  · rw [hfault] at hrank
    cases hrank
  · obtain ⟨after, hopen, -⟩ := id hgives
    rw [hopen] at hrank
    have hten : e.rank = 10 := Option.some.inj hrank
    exact ⟨e, e', hgives, hgives', hten, hlays'.rank_eq.trans (hlays.rank_eq.symm.trans hten),
      hsame nofun⟩

/-- The disk after a line was noted in a journal that was opened with a section, and in one that was
opened with dotted keys, both with one layout. -/
def notedInBoth (layout : Value) : Disk :=
  let level := Value.string "INFO"
  let first := (({} : Registry).openJournal "/w" (some "a")
    (nested (fieldsUnder "level" "format" level layout)) false).1
  let both := (first.openJournal "/w" (some "b")
    (.dotted (fieldsUnder "logging.level" "logging.format" level layout)) false).1
  ((both.note "now" "a" ⟨.info, "x"⟩).1.note "now" "b" ⟨.info, "x"⟩).1.disk

/-- A layout that is null or empty is not the same in both. -/
theorem void_layout_differs :
    ((notedInBoth .null).contentAt ["a"] = Bytes.ofString "x\n" ∧
      (notedInBoth .null).contentAt ["b"] = Bytes.ofString "now - INFO - x\n") ∧
    (notedInBoth (.string [])).contentAt ["a"] = Bytes.ofString "x\n" ∧
      (notedInBoth (.string [])).contentAt ["b"] = Bytes.ofString "now - INFO - x\n" := by
  decide +kernel

end CommandRelay.Journal
