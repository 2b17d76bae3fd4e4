import CommandRelay.Proofs.Journal.Openings
import CommandRelay.Worker.Serve
import Mathlib.Data.List.Nodup

/-!
# The names of levels

The settings of a worker take any text as the level of the journal. A text that is the name of a
level in any case stands for its rank, any other one for the rank of information
(`openJournal_settings`). Two texts do not, although they name no level: with them the journal
cannot be opened.
-/

namespace CommandRelay.Journal

variable {level text : Text} {rank : Nat} {fault : SetupFault}

/-- The rank that a text stands for as a level: that of the level which has it for a name, in
whatever case, else that of information. Cases are ignored by comparing names in upper case. -/
inductive StandsFor (level : Text) : Nat → Prop
  | named {name : Text} {rank : Nat} (hmem : (name, rank) ∈ levelNames)
      (hname : Case.upper level = Case.upper name) : StandsFor level rank
  | unknown (h : ∀ x ∈ levelNames, Case.upper level ≠ Case.upper x.1) :
      StandsFor level Level.info.rank

/-- A text that looks like the name of a level, in whatever case, and is none. -/
def IsFalseLevel (level : Text) : Prop :=
  ∃ x ∈ falseLevels, Case.upper level = x.1

instance (level : Text) : Decidable (IsFalseLevel level) :=
  inferInstanceAs (Decidable (∃ x ∈ falseLevels, Case.upper level = x.1))

/-! ## The tables of names -/

theorem upper_of_mem_levelNames : ∀ x ∈ levelNames, Case.upper x.1 = x.1 := by decide

theorem rank_unique_levelNames : ∀ x ∈ levelNames, ∀ y ∈ levelNames,
    Case.upper x.1 = Case.upper y.1 → x.2 = y.2 := by decide

theorem nodup_falseLevels : (falseLevels.map Prod.fst).Nodup := by decide

/-- In a table with different keys, every entry is found under its key. -/
theorem find?_of_mem_of_nodup {α : Type} {table : List (Text × α)} {x : Text × α}
    (h : (table.map Prod.fst).Nodup) (hmem : x ∈ table) : table.find? (·.1 = x.1) = some x := by
  obtain ⟨y, hy⟩ : ∃ y, table.find? (·.1 = x.1) = some y :=
    Option.isSome_iff_exists.mp (List.find?_isSome.mpr ⟨x, hmem, by simp⟩)
  have hkey : y.1 = x.1 := by simpa using List.find?_some hy
  rw [hy, List.inj_on_of_nodup_map h (List.mem_of_find?_eq_some hy) hmem hkey]

/-- A text stands for one rank alone. -/
theorem StandsFor.unique {rank' : Nat} (h : StandsFor level rank) (h' : StandsFor level rank') :
    rank = rank' := by
  cases h with
  | named hmem hname =>
      cases h' with
      | named hmem' hname' =>
          exact rank_unique_levelNames _ hmem _ hmem' (hname.symm.trans hname')
      | unknown hnone => exact absurd hname (hnone _ hmem)
  | unknown hnone =>
      cases h' with
      | named hmem' hname' => exact absurd hname' (hnone _ hmem')
      | unknown => rfl

/-! ## The rank of a level -/

variable {v : Value}

/-- A level is found by its name in upper case; a text that is not found has the default rank. -/
theorem exists_rankOf (h : ¬ IsFalseLevel v.display) :
    ∃ rank, rankOf v = .ok rank ∧ StandsFor v.display rank := by
  have hnone : falseLevels.find? (·.1 = Case.upper v.display) = none := by
    simp only [List.find?_eq_none, decide_eq_true_eq]
    exact fun x hx hkey => h ⟨x, hx, hkey.symm⟩
  rw [rankOf, hnone]
  refine ⟨_, rfl, ?_⟩
  cases hfind : levelNames.find? (·.1 = Case.upper v.display) with
  -- The names in the table are their own upper case, so what is found there is named so.
  | none =>
      refine .unknown fun x hx hname => ?_
      have hkey : x.1 ≠ Case.upper v.display := by simpa using List.find?_eq_none.mp hfind x hx
      exact hkey ((upper_of_mem_levelNames x hx).symm.trans hname.symm)
  | some x =>
      have hmem := List.mem_of_find?_eq_some hfind
      have hkey : x.1 = Case.upper v.display := by simpa using List.find?_some hfind
      exact .named hmem (hkey.symm.trans (upper_of_mem_levelNames x hmem).symm)

theorem rankOf_of_mem_falseLevels (h : (Case.upper v.display, fault) ∈ falseLevels) :
    rankOf v = .error fault := by
  have hfind : falseLevels.find? (·.1 = Case.upper v.display) =
      some (Case.upper v.display, fault) := find?_of_mem_of_nodup nodup_falseLevels h
  rw [rankOf, hfind]

/-! ## The journal of a worker -/

/-- The journal that settings ask for, in a file that can be opened and with a layout that is
accepted. It can be opened, and it has the rank that its level stands for, whatever the level is;
two texts aside, with which it is refused. -/
theorem openJournal_settings {r : Registry} {base path : Text} {s : Settings}
    (hfile : s.journal.file = some path) (hpath : path ≠ []) (hwritable : r.IsWritable base path)
    (hlayout : layoutOf (.string s.journal.layout) = .ok text) (console : Bool) :
    (¬ IsFalseLevel s.journal.level →
      ∃ after e, r.openJournal base s.journal.file (Worker.journalSource s) console =
          (after, .ok e) ∧ after.find? path = some e ∧
        (∀ rank, StandsFor s.journal.level rank ↔ e.rank = rank) ∧
        ((r.entryOf path).outputs = [] → e.Lays e.rank text)) ∧
    ∀ fault, (Case.upper s.journal.level, fault) ∈ falseLevels →
      (r.openJournal base s.journal.file (Worker.journalSource s) console).2 = .error fault := by
  have hread : (Worker.journalSource s).read =
      .ok (.string s.journal.level, .string s.journal.layout) := rfl
  rw [hfile]
  refine ⟨fun hlevel => ?_, fun fault hfault => ?_⟩
  · obtain ⟨rank, hrank, hstands⟩ := exists_rankOf (v := .string s.journal.level) hlevel
    have hsettings : (Worker.journalSource s).settings = .ok (rank, text) :=
      (Source.settings_of_read hread).trans (settingsOf_eq_ok_iff.mpr ⟨hrank, hlayout⟩)
    obtain ⟨e, ⟨after, hopen, hfound⟩, rfl, hlays⟩ :=
      Registry.openJournal_gives hpath hwritable hsettings console
    exact ⟨after, e, hopen, hfound, fun rank => ⟨hstands.unique, fun h => h ▸ hstands⟩, hlays⟩
  · exact Registry.openJournal_of_refused hpath hwritable.directory hread
      (rankOf_of_mem_falseLevels hfault)

/-- Settings with a level and a file. -/
def settingsWith (level : Text) : Settings :=
  { jobs := 8, journal := { level, file := some "logs/a" } }

/-- The name of a level in another case, and a text that names no level. -/
theorem openJournal_settings_warning :
    let opened (level : Text) := ({} : Registry).openJournal "/w" (some "logs/a")
      (Worker.journalSource (settingsWith level)) false
    (∃ after e, opened "Warning" = (after, .ok e) ∧ e.rank = 30) ∧
      ∃ after e, opened "verbose" = (after, .ok e) ∧ e.rank = 20 := by
  intro opened
  have hwritable : ({} : Registry).IsWritable "/w" "logs/a" :=
    ⟨by decide +kernel, by decide +kernel⟩
  have hlayout := layoutOf_of_hasField (t := ({} : JournalSettings).layout) (by decide +kernel)
  have hmem : (("WARNING" : Text), 30) ∈ levelNames := by decide
  have hnamed : StandsFor "Warning" 30 := .named hmem (by decide)
  have hunknown : StandsFor "verbose" 20 := .unknown (by decide)
  obtain ⟨after, e, hopen, -, hrank, -⟩ := (openJournal_settings (s := settingsWith "Warning") rfl
    (by decide) hwritable hlayout false).1 (by decide)
  obtain ⟨after', e', hopen', -, hrank', -⟩ := (openJournal_settings (s := settingsWith "verbose")
    rfl (by decide) hwritable hlayout false).1 (by decide)
  exact ⟨⟨after, e, hopen, (hrank 30).mp hnamed⟩, after', e', hopen', (hrank' 20).mp hunknown⟩

/-- Settings are accepted although their level is one of the two texts, and no journal can be opened
with them. -/
theorem accepted_level_refused :
    Settings.check (some 8) (.object [("logging", .object
        [("level", .string "basic_format"), ("file", .string "logs/a")])]) =
      .ok (settingsWith "basic_format") ∧
    ({} : Registry).IsWritable "/w" "logs/a" ∧
    (({} : Registry).openJournal "/w" (some "logs/a")
        (Worker.journalSource (settingsWith "basic_format")) false).2 =
      .error (.unknownLevel "%(levelname)s:%(name)s:%(message)s") :=
  ⟨rfl, ⟨by decide +kernel, by decide +kernel⟩, rfl⟩

end CommandRelay.Journal
