import CommandRelay.Proofs.Journal.Registration

/-!
# Openings that succeed

A journal can be opened for a path if its file can be, and if the source gives a level that can be
set and a layout that is accepted (`Registry.openJournal_gives`). A journal that nobody has opened
yet then has outputs that all have this level and this layout; of a level or a layout that is
refused, the first one is the answer (`Registry.openJournal_refuses`).
-/

namespace CommandRelay.Journal

/-- The rank and the layout that a level and a layout stand for, or why the first of them that is
refused is. -/
def settingsOf (level layout : Value) : Except SetupFault (Nat × Text) := do
  let rank ← rankOf level
  let text ← layoutOf layout
  .ok (rank, text)

/-- The rank and the layout that a source gives a journal. -/
def Source.settings (source : Source) : Except SetupFault (Nat × Text) := do
  let (level, layout) ← source.read
  settingsOf level layout

theorem Source.settings_of_read {source : Source} {level layout : Value}
    (h : source.read = .ok (level, layout)) : source.settings = settingsOf level layout := by
  rw [settings, h]
  rfl

theorem settingsOf_congr {level level' : Value} (h : rankOf level = rankOf level')
    (layout : Value) : settingsOf level layout = settingsOf level' layout := by
  rw [settingsOf, h]
  rfl

theorem settingsOf_eq_ok_iff {level layout : Value} {rank : Nat} {text : Text} :
    settingsOf level layout = .ok (rank, text) ↔
      rankOf level = .ok rank ∧ layoutOf layout = .ok text := by
  unfold settingsOf
  cases rankOf level with
  | error fault => simp [bind, Except.bind]
  | ok rank =>
      cases layoutOf layout with
      | error fault => simp [bind, Except.bind]
      | ok text => simp [bind, Except.bind]

/-- A layout counts only once the level can be set. -/
theorem settingsOf_eq_error_iff {level layout : Value} {fault : SetupFault} :
    settingsOf level layout = .error fault ↔
      rankOf level = .error fault ∨
        ∃ rank, rankOf level = .ok rank ∧ layoutOf layout = .error fault := by
  unfold settingsOf
  cases rankOf level with
  | error fault => simp [bind, Except.bind]
  | ok rank =>
      cases layoutOf layout with
      | error fault => simp [bind, Except.bind]
      | ok text => simp [bind, Except.bind]

/-- A text that holds a field is accepted as a layout. -/
theorem layoutOf_of_hasField {t : Text} (h : Layout.hasField t = true) :
    layoutOf (.string t) = .ok t := by
  have ht : t ≠ [] := by
    rintro rfl
    cases h
  have htruthy : isTruthy (.string t) = true := decide_eq_true ht
  simp only [layoutOf, htruthy, Bool.not_true, Bool.false_eq_true, ↓reduceIte, h]

/-- A journal with outputs, which all have its own rank and one layout. -/
structure Entry.Lays (e : Entry) (rank : Nat) (layout : Text) : Prop where
  rank_eq : e.rank = rank
  outputs_ne : e.outputs ≠ []
  outputs : ∀ o ∈ e.outputs, o.rank = rank ∧ o.layout = layout

/-- Outputs with one layout write a line in the same way. -/
theorem Output.bytes?_congr {o o' : Output} (h : o'.layout = o.layout)
    (occasion : Layout.Occasion) (l : Line) : o'.bytes? occasion l = o.bytes? occasion l := by
  rw [bytes?, bytes?, h]

namespace Registry

variable {r after : Registry} {e : Entry} {base path name layout : Text} {source : Source}
  {console : Bool} {rank : Nat} {level given : Value} {fault : SetupFault}

/-- The file of a path can be opened for lines, in a directory that is there or can be made. -/
structure IsWritable (r : Registry) (base path : Text) : Prop where
  directory : (r.ensureDirectoryOf path).2.isOk = true
  file : ((r.ensureDirectoryOf path).1.openFile base path).isOk = true

/-- The opening of a journal for a path gives the journal that is registered for it. -/
def Gives (r : Registry) (base path : Text) (source : Source) (console : Bool) (e : Entry) : Prop :=
  ∃ after, r.openJournal base (some path) source console = (after, .ok e) ∧
    after.find? path = some e

/-! ## Files -/

/-- Whether a file can be opened does not depend on the journals. -/
theorem isOk_openFile_congr {r' : Registry} (h : r'.disk = r.disk) :
    (r'.openFile base path).isOk = (r.openFile base path).isOk := by
  unfold openFile
  simp only [h]
  split
  · rfl
  · split
    · rfl
    · split <;> rfl

theorem exists_of_isOk_openFile (h : (r.openFile base path).isOk = true) :
    ∃ disk place, r.openFile base path = .ok ({ r with disk }, .file place []) := by
  cases hopen : r.openFile base path with
  | error fault =>
      rw [hopen] at h
      cases h
  | ok opened =>
      obtain ⟨after, destination⟩ := opened
      obtain ⟨place, rfl, hafter, -⟩ := openFile_eq_ok hopen
      exact ⟨after.disk, place, by rw [← hafter]⟩

/-! ## Outputs -/

/-- The outputs that a journal gets have the rank and the layout that are wanted. -/
theorem exists_equip (hlayout : layoutOf given = .ok layout)
    (hfile : (r.openFile base path).isOk = true) (console : Bool) (rank : Nat) (e : Entry) :
    ∃ disk outputs, r.equip base (some path) console rank given e =
        (({ r with disk } : Registry).update { e with outputs }, .ok ()) ∧
      outputs ≠ [] ∧ ∀ o ∈ outputs, o.rank = rank ∧ o.layout = layout := by
  obtain ⟨disk, place, hopen⟩ := exists_of_isOk_openFile hfile
  unfold equip
  simp only [hlayout, hopen]
  refine ⟨disk, _, rfl, List.cons_ne_nil _ _, fun o ho => ?_⟩
  rcases List.mem_cons.mp ho with rfl | ho
  · exact ⟨rfl, rfl⟩
  · split at ho
    · rw [List.mem_singleton.mp ho]
      exact ⟨rfl, rfl⟩
    · cases ho

theorem equip_of_refused {path : Option Text} (h : layoutOf given = .error fault) (e : Entry) :
    r.equip base path console rank given e = (r, .error fault) := by
  rw [equip, h]

/-! ## Openings under a name -/

/-- A journal that gets a level passes no lines on. Without outputs it gets some, and it keeps those
that it has. -/
theorem exists_openNamed (hrank : rankOf level = .ok rank)
    (hlayout : layoutOf given = .ok layout) (hfile : (r.openFile base path).isOk = true)
    (name : Text) (console : Bool) :
    ∃ after e, r.openNamed base name (some path) console level given = (after, .ok e) ∧
      after.find? name = some e ∧ e.rank = rank ∧
      ((r.entryOf name).outputs = [] → e.Lays rank layout) := by
  obtain ⟨e, hregister, hentry⟩ := exists_sets_register r name
  have houtputs : (r.entryOf name).outputs = e.outputs := (congrArg Entry.outputs hentry.symm :)
  have hset : r.Sets name { e with rank } ((r.register name).update { e with rank }) :=
    hregister.update rfl
  unfold openNamed
  simp only [hrank, hregister.found, Option.getD_some]
  by_cases hnone : e.outputs = []
  · have hfile' : (((r.register name).update { e with rank }).openFile base path).isOk = true := by
      rw [isOk_openFile_congr ((disk_update _ _).trans (disk_register r name))]
      exact hfile
    obtain ⟨disk, outputs, hequip, hne, hall⟩ :=
      exists_equip hlayout hfile' console rank { e with rank }
    rw [if_pos hnone, hequip]
    have hequipped : (({ (r.register name).update { e with rank } with disk } : Registry).update
        { e with rank, outputs }).find? name = some { e with rank, outputs } := by
      rw [find?_update, if_pos (name_of_find? hset.found).symm]
      exact congrArg (Option.map _) hset.found
    simp only [hequipped, Option.getD_some]
    refine ⟨_, _, rfl, ?_, rfl, fun _ => ⟨rfl, hne, hall⟩⟩
    rw [find?_update, if_pos (name_of_find? hset.found).symm, hequipped, Option.map_some]
  · rw [if_neg hnone]
    simp only [hset.found, Option.getD_some]
    refine ⟨_, _, rfl, ?_, rfl, fun h => absurd (houtputs.symm.trans h) hnone⟩
    rw [find?_update, if_pos (name_of_find? hset.found).symm, hset.found, Option.map_some]

/-- A level that cannot be set is refused. -/
theorem openNamed_of_refused {path : Option Text} (h : rankOf level = .error fault) :
    (r.openNamed base name path console level given).2 = .error fault := by
  rw [openNamed, h]

/-- For a journal that has no outputs, a layout that is not accepted is refused too. -/
theorem openNamed_refuses {path : Option Text} (hnone : (r.entryOf name).outputs = [])
    (h : settingsOf level given = .error fault) :
    (r.openNamed base name path console level given).2 = .error fault := by
  rcases settingsOf_eq_error_iff.mp h with hrank | ⟨rank, hrank, hlayout⟩
  · exact openNamed_of_refused hrank
  · obtain ⟨e, hregister, hentry⟩ := exists_sets_register r name
    have houtputs : e.outputs = [] := (congrArg Entry.outputs hentry :).trans hnone
    rw [openNamed, hrank]
    simp only [hregister.found, Option.getD_some, if_pos houtputs, equip_of_refused hlayout]

/-! ## Openings for a path -/

theorem entryOf_ensureDirectoryOf (r : Registry) (path name : Text) :
    (r.ensureDirectoryOf path).1.entryOf name = r.entryOf name := by
  obtain ⟨disk, answer, hensure, -⟩ := exists_ensureDirectoryOf r path
  rw [hensure]
  rfl

/-- Once the directory is there, an opening for a path is one under the path as a name, unless its
source is at fault. -/
theorem openJournal_of_directory (hpath : path ≠ [])
    (hdirectory : (r.ensureDirectoryOf path).2.isOk = true) :
    r.openJournal base (some path) source console =
      match source.read with
      | .error fault => ((r.ensureDirectoryOf path).1, .error fault)
      | .ok (level, given) =>
        (r.ensureDirectoryOf path).1.openNamed base path (some path) console level given := by
  have hfilter : (some path).filter (· ≠ []) = some path := by simp [Option.filter, hpath]
  unfold openJournal
  rw [hfilter]
  cases hensure : r.ensureDirectoryOf path with
  | mk prepared answer =>
      rw [hensure] at hdirectory
      cases answer with
      | error fault => cases hdirectory
      | ok => cases source.read <;> simp only [hensure]

/-- If the file of a path can be opened, and the level be set and the layout accepted that a source
gives, then the opening gives a journal with this level. One without outputs gets some with this
level and this layout. -/
theorem openJournal_gives (hpath : path ≠ []) (hfile : r.IsWritable base path)
    (hsource : source.settings = .ok (rank, layout)) (console : Bool) :
    ∃ e, r.Gives base path source console e ∧ e.rank = rank ∧
      ((r.entryOf path).outputs = [] → e.Lays rank layout) := by
  cases hread : source.read with
  | error fault =>
      rw [Source.settings, hread] at hsource
      cases hsource
  | ok wanted =>
      obtain ⟨level, given⟩ := wanted
      rw [Source.settings_of_read hread] at hsource
      obtain ⟨hrank, hlayout⟩ := settingsOf_eq_ok_iff.mp hsource
      obtain ⟨after, e, hopen, hfound, hlevel, hlays⟩ :=
        exists_openNamed hrank hlayout hfile.file path console
      refine ⟨e, ⟨after, ?_, hfound⟩, hlevel, fun hnone => hlays ?_⟩
      · rw [openJournal_of_directory hpath hfile.directory, hread]
        exact hopen
      · rw [entryOf_ensureDirectoryOf]
        exact hnone

/-- No journal is given if the level that its source gives cannot be set. -/
theorem openJournal_of_refused (hpath : path ≠ [])
    (hdirectory : (r.ensureDirectoryOf path).2.isOk = true)
    (hread : source.read = .ok (level, given)) (hrank : rankOf level = .error fault) :
    (r.openJournal base (some path) source console).2 = .error fault := by
  rw [openJournal_of_directory hpath hdirectory, hread]
  exact openNamed_of_refused hrank

/-- A journal without outputs is not given if its source is at fault; that fault is the answer. -/
theorem openJournal_refuses (hpath : path ≠ [])
    (hdirectory : (r.ensureDirectoryOf path).2.isOk = true) (hnone : (r.entryOf path).outputs = [])
    (hsource : source.settings = .error fault) :
    (r.openJournal base (some path) source console).2 = .error fault := by
  rw [openJournal_of_directory hpath hdirectory]
  cases hread : source.read with
  | error fault' =>
      rw [Source.settings, hread] at hsource
      obtain rfl : fault' = fault := Except.error.inj hsource
      rfl
  | ok wanted =>
      obtain ⟨level, given⟩ := wanted
      rw [Source.settings_of_read hread] at hsource
      have hnone' : ((r.ensureDirectoryOf path).1.entryOf path).outputs = [] := by
        rw [entryOf_ensureDirectoryOf]
        exact hnone
      exact openNamed_refuses hnone' hsource

/-- A path that no journal has outputs for, and whose file can be opened. -/
structure IsFresh (r : Registry) (base path : Text) : Prop where
  path_ne : path ≠ []
  outputs_eq : (r.entryOf path).outputs = []
  writable : r.IsWritable base path

theorem IsFresh.gives (h : r.IsFresh base path) (hsource : source.settings = .ok (rank, layout))
    (console : Bool) : ∃ e, r.Gives base path source console e ∧ e.Lays rank layout := by
  obtain ⟨e, hgives, -, hlays⟩ := openJournal_gives h.path_ne h.writable hsource console
  exact ⟨e, hgives, hlays h.outputs_eq⟩

theorem IsFresh.refuses (h : r.IsFresh base path) (hsource : source.settings = .error fault)
    (console : Bool) : (r.openJournal base (some path) source console).2 = .error fault :=
  openJournal_refuses h.path_ne h.writable.directory h.outputs_eq hsource

end Registry

end CommandRelay.Journal
