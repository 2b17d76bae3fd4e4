import CommandRelay.Proofs.Journal.Outputs

/-!
# What opening a journal does

An opening changes the journal of its own name and no other one (`Registry.openJournal_opens`). It
may be refused before that journal is touched, or leave it with a level and without outputs. If it
succeeds, the journal keeps the outputs that it has, or gets new ones at the level of the opening.

## Implementation notes

`Registry.entryOf` forgets which journal stands above another one. Nothing but the level that a
journal takes from above depends on that, and registering a journal changes nothing else.
-/

namespace CommandRelay.Journal

/-! ## Journals of a registry -/

namespace Entry

/-- A journal but for its place in the hierarchy. -/
def alone (e : Entry) : Entry := { e with parent := none }

/-- A journal but for what waits for its files. -/
def settled (e : Entry) : Entry := { e with outputs := e.outputs.map .settled }

end Entry

namespace Registry

variable {r r' : Registry} {e e' : Entry} {name other : Text}

/-- The journal under a name but for its place in the hierarchy. One that is not registered has
neither a level nor outputs. -/
def entryOf (r : Registry) (name : Text) : Entry :=
  ((r.find? name).getD { name }).alone

theorem entryOf_of_find? (h : r.find? name = some e) : r.entryOf name = e.alone := by
  rw [entryOf, h, Option.getD_some]

theorem name_of_find? (h : r.find? name = some e) : e.name = name := by
  unfold find? at h
  split at h
  · rename_i heq
    rw [← Option.some.inj h, heq]
  · simpa using List.find?_some h

theorem find?_congr (hroot : r'.root = r.root) (hentries : r'.entries = r.entries) (name : Text) :
    r'.find? name = r.find? name := by
  rw [find?, find?, hroot, hentries]

theorem entryOf_congr (hroot : r'.root = r.root) (hentries : r'.entries = r.entries) (name : Text) :
    r'.entryOf name = r.entryOf name := by
  rw [entryOf, entryOf, find?_congr hroot hentries]

theorem find?_map (f : Entry → Entry) (hname : ∀ e, (f e).name = e.name) (entries : List Entry)
    (name : Text) :
    (entries.map f).find? (·.name = name) = (entries.find? (·.name = name)).map f := by
  rw [List.find?_map]
  congr 2
  funext e
  exact congrArg (fun n => decide (n = name)) (hname e)

theorem find?_update (r : Registry) (e : Entry) (name : Text) :
    (r.update e).find? name =
      if name = e.name then (r.find? name).map fun _ => e else r.find? name := by
  unfold update find?
  by_cases hroot : e.name = r.root.name
  · rw [if_pos hroot]
    simp only [hroot]
    split <;> rfl
  · rw [if_neg hroot]
    simp only
    by_cases hname : name = r.root.name
    · rw [if_pos hname, if_pos hname, if_neg fun heq => hroot (heq.symm.trans hname)]
    · rw [if_neg hname, if_neg hname, find?_map _ fun x => by split <;> simp [*]]
      cases hfound : r.entries.find? (·.name = name) with
      | none => simp
      | some x =>
          have hx : x.name = name := by simpa using List.find?_some hfound
          simp only [Option.map_some, hx]
          split <;> rfl

theorem entryOf_update (h : (r.find? e.name).isSome) (name : Text) :
    (r.update e).entryOf name = if name = e.name then e.alone else r.entryOf name := by
  unfold entryOf
  rw [find?_update]
  split
  · rename_i hname
    subst hname
    obtain ⟨x, hx⟩ := Option.isSome_iff_exists.mp h
    rw [hx]
    rfl
  · rfl

/-! ## Registering -/

theorem adopt_keeps (r : Registry) (name : Text) (fronts : List Text) :
    (adopt name r fronts).1.disk = r.disk ∧ (adopt name r fronts).1.root = r.root ∧
      (adopt name r fronts).1.entries = r.entries := by
  induction fronts generalizing r with
  | nil => exact ⟨rfl, rfl, rfl⟩
  | cons front fronts ih =>
      rw [adopt]
      split
      · exact ⟨rfl, rfl, rfl⟩
      · exact ih (r.await front name)

/-- To stand below another journal is all that a journal can get from a new one. -/
theorem find?_takeOver (r : Registry) (above name : Text) (names : List Text) :
    ((r.takeOver above names).find? name).map Entry.alone = (r.find? name).map Entry.alone := by
  unfold takeOver find?
  simp only
  split
  · rfl
  · rw [find?_map _ fun e => by split <;> rfl, Option.map_map]
    congr 1
    funext e
    simp only [Function.comp]
    split <;> rfl

theorem register_of_isSome (h : (r.find? name).isSome) : r.register name = r := by
  rw [register, if_pos h]

/-- A journal that is registered anew comes after all others, which keep what they have. -/
theorem exists_register_of_none (h : r.find? name = none) :
    ∃ (kept : Registry) (parent : Option Text),
      r.register name = { kept with entries := kept.entries ++ [{ name, parent }] } ∧
        kept.disk = r.disk ∧
        ∀ other, (kept.find? other).map Entry.alone = (r.find? other).map Entry.alone := by
  let before : Registry :=
    ({ r with awaited := r.awaited.filter (·.1 ≠ name) } : Registry).takeOver name (r.below name)
  obtain ⟨hdisk, hroot, hentries⟩ := adopt_keeps before name (fronts name)
  refine ⟨(adopt name before (fronts name)).1, (adopt name before (fronts name)).2, ?_, hdisk, ?_⟩
  · rw [register, h]
    rfl
  · intro other
    rw [find?_congr hroot hentries]
    exact find?_takeOver _ name other (r.below name)

/-- A journal that is registered is found afterwards, and no other one changes. -/
theorem find?_register (r : Registry) (name other : Text) :
    ((r.register name).find? other).map Entry.alone =
      if other = name then some (r.entryOf name) else (r.find? other).map Entry.alone := by
  cases hfound : r.find? name with
  | some e =>
      rw [register_of_isSome (by rw [hfound]; rfl)]
      split
      · rename_i hname
        subst hname
        rw [entryOf_of_find? hfound, hfound]
        rfl
      · rfl
  | none =>
      obtain ⟨kept, parent, hregister, -, hkept⟩ := exists_register_of_none hfound
      have hnone : kept.find? name = none := by simpa [hfound] using hkept name
      rw [hregister, ← hkept, entryOf, hfound]
      -- the root is looked at first and the new journal last
      by_cases hroot : other = kept.root.name
      · have hne : other ≠ name := by
          rintro rfl
          rw [find?, if_pos hroot] at hnone
          cases hnone
        rw [if_neg hne, find?, find?, if_pos hroot, if_pos hroot]
      · rw [find?, find?, if_neg hroot, if_neg hroot, List.find?_append]
        split
        · rename_i hname
          subst hname
          rw [find?, if_neg hroot] at hnone
          simp [hnone, Entry.alone]
        · rename_i hne
          simp [Ne.symm hne]

theorem isSome_find?_register (r : Registry) (name : Text) :
    ((r.register name).find? name).isSome := by
  rw [← Option.isSome_map (f := Entry.alone), find?_register, if_pos rfl]
  rfl

theorem entryOf_eq_map (r : Registry) (name : Text) :
    r.entryOf name = ((r.find? name).map Entry.alone).getD { name } := by
  unfold entryOf
  cases r.find? name <;> rfl

theorem entryOf_register (r : Registry) (name other : Text) :
    (r.register name).entryOf other = r.entryOf other := by
  rw [entryOf_eq_map, find?_register]
  split
  · rename_i hname
    rw [hname]
    rfl
  · exact (entryOf_eq_map r other).symm

theorem disk_register (r : Registry) (name : Text) : (r.register name).disk = r.disk := by
  cases hfound : r.find? name with
  | some e => rw [register_of_isSome (by rw [hfound]; rfl)]
  | none =>
      obtain ⟨kept, parent, hregister, hdisk, -⟩ := exists_register_of_none hfound
      rw [hregister]
      exact hdisk

/-! ## Journals that are ready -/

/-- Nothing waits for a file in any journal, and the files are there. -/
def Ready (r : Registry) : Prop :=
  ∀ name, ∀ o ∈ (r.entryOf name).outputs, o.Ready r.disk

/-- Journals stay ready when they get outputs only that are ready. -/
theorem Ready.of_entryOf (h : r.Ready)
    (hfile : ∀ names, r.disk.IsFile names → r'.disk.IsFile names)
    (hentries : ∀ other ≠ name, r'.entryOf other = r.entryOf other)
    (hentry : ∀ o ∈ (r'.entryOf name).outputs, o ∈ (r.entryOf name).outputs ∨ o.Ready r'.disk) :
    r'.Ready := by
  have hkept (other : Text) (o : Output) (ho : o ∈ (r.entryOf other).outputs) : o.Ready r'.disk :=
    (h other o ho).of_isFile hfile
  intro other o ho
  by_cases hname : other = name
  · subst hname
    rcases hentry o ho with hold | hnew
    · exact hkept _ o hold
    · exact hnew
  · rw [hentries other hname] at ho
    exact hkept other o ho

end Registry

/-! ## Opening -/

/-- The names that the file of a journal is under, from the working directory `base` or from the
root on, unless its path leads to a device. -/
def fileNames? (base path : Text) : Option (List Text) :=
  let path := Path.absolute base path
  Disk.namesOf? ((Path.below? base path).getD path)

/-- The name of a journal without a file; `n` tells it from other ones. -/
def consoleName (n : Nat) : Text := s!"exeq.console.{n}"

theorem head?_consoleName (n : Nat) : (consoleName n).head? = some (.char 'e') := by
  have happend : consoleName n = Text.ofString "exeq.console." ++ Text.ofString (toString n) := by
    rw [consoleName, Text.ofString, String.toList_append, List.map_append]
    rfl
  rw [happend]
  rfl

/-- The rank of the level that a source gives, if it gives one that can be set. -/
def Source.rank? (source : Source) : Option Nat :=
  match source.read with
  | .ok (level, _) => (rankOf level).toOption
  | .error _ => none

/-- The outputs that a journal without any gets for a path: one for its file, and then none but the
console. Without a path there is the console alone. -/
inductive Equipped (base : Text) (disk : Disk) (rank : Nat) : Option Text → List Output → Prop
  | shown (layout : Text) : Equipped base disk rank none [⟨.console, rank, layout⟩]
  | filed {path layout : Text} {place : Place} {rest : List Output}
      (hplace : ∀ names, place = .file names ↔ fileNames? base path = some names)
      (hfile : ∀ names, place = .file names → disk.IsFile names)
      (hrest : ∀ o ∈ rest, o.destination = .console) :
      Equipped base disk rank (some path) (⟨.file place [], rank, layout⟩ :: rest)

/-- What becomes of the journal under a name, and what is answered, when it is opened. -/
inductive Opens (base : Text) (path : Option Text) (source : Source) (name : Text)
    (r r' : Registry) : Except SetupFault Entry → Prop
  /-- It is refused before anything is set. -/
  | refused {fault : SetupFault} (hentry : r'.entryOf name = r.entryOf name) :
      Opens base path source name r r' (.error fault)
  /-- It gets its level and no outputs. -/
  | bare {fault : SetupFault} {rank : Nat} (hrank : source.rank? = some rank)
      (hnone : (r.entryOf name).outputs = [])
      (hentry : r'.entryOf name = { r.entryOf name with rank }) :
      Opens base path source name r r' (.error fault)
  /-- It has outputs already, and gets the level. -/
  | joined {e : Entry} {rank : Nat} (hrank : source.rank? = some rank)
      (hsome : (r.entryOf name).outputs ≠ [])
      (hentry : r'.entryOf name = { r.entryOf name with rank, passesOn := false })
      (hname : e.name = name) (hlevel : e.rank = rank) :
      Opens base path source name r r' (.ok e)
  /-- It gets the level and its outputs. -/
  | equipped {e : Entry} {rank : Nat} (outputs : List Output) (hrank : source.rank? = some rank)
      (hnone : (r.entryOf name).outputs = [])
      (houtputs : Equipped base r'.disk rank path outputs)
      (hentry : r'.entryOf name = { r.entryOf name with rank, outputs, passesOn := false })
      (hname : e.name = name) (hlevel : e.rank = rank) :
      Opens base path source name r r' (.ok e)

/-- An opening depends on nothing but the journal of its name. -/
theorem Opens.of_entryOf {base name : Text} {path : Option Text} {source : Source}
    {r before r' : Registry} {answer : Except SetupFault Entry}
    (h : Opens base path source name before r' answer)
    (hentry : before.entryOf name = r.entryOf name) : Opens base path source name r r' answer := by
  cases h with
  | refused hafter => exact .refused (hafter.trans hentry)
  | bare hrank hnone hafter => exact .bare hrank (hentry ▸ hnone) (hentry ▸ hafter)
  | joined hrank hsome hafter hname hlevel =>
      exact .joined hrank (hentry ▸ hsome) (hentry ▸ hafter) hname hlevel
  | equipped outputs hrank hnone hfit hafter hname hlevel =>
      exact .equipped outputs hrank (hentry ▸ hnone) hfit (hentry ▸ hafter) hname hlevel

namespace Registry

variable {r r' : Registry} {e e' : Entry} {base path name : Text}

theorem openFile_eq_ok {destination : Destination}
    (h : r.openFile base path = .ok (r', destination)) :
    ∃ place, destination = .file place [] ∧ r' = { r with disk := r'.disk } ∧
      r.disk.Gains Disk.nothing r'.disk ∧
      (∀ names, place = .file names ↔ fileNames? base path = some names) ∧
      ∀ names, place = .file names → r'.disk.IsFile names := by
  unfold openFile at h
  simp only at h
  split at h
  · cases h
  · split at h
    · cases h
    · split at h
      · rename_i disk place hopen
        obtain ⟨rfl, rfl⟩ := Prod.mk.inj (Except.ok.inj h)
        obtain ⟨hgains, hfile⟩ := Disk.gains_openForOutput hopen
        exact ⟨place, rfl, rfl, hgains, fun names => Disk.openForOutput_place hopen, hfile⟩
      · cases h
      · cases h

/-- A journal without outputs gets them, or nothing changes. -/
theorem equip_cases {path : Option Text} {console : Bool} {rank : Nat} {layout : Value} {e : Entry}
    {answer : Except SetupFault Unit}
    (h : r.equip base path console rank layout e = (r', answer)) :
    (∃ fault, answer = .error fault) ∧ r' = r ∨
      answer = .ok () ∧ ∃ disk outputs,
        r' = ({ r with disk } : Registry).update { e with outputs } ∧
        r.disk.Gains Disk.nothing disk ∧ Equipped base disk rank path outputs := by
  unfold equip at h
  cases hlayout : layoutOf layout with
  | error fault =>
      rw [hlayout] at h
      obtain ⟨rfl, rfl⟩ := Prod.mk.inj h
      exact .inl ⟨⟨fault, rfl⟩, rfl⟩
  | ok layout =>
      simp only [hlayout] at h
      cases path with
      | none =>
          obtain ⟨rfl, rfl⟩ := Prod.mk.inj h
          exact .inr ⟨rfl, r.disk, _, rfl, .refl _, by simpa using .shown layout⟩
      | some path =>
          cases hopen : r.openFile base path with
          | error fault =>
              simp only [hopen] at h
              obtain ⟨rfl, rfl⟩ := Prod.mk.inj h
              exact .inl ⟨⟨_, rfl⟩, rfl⟩
          | ok opened =>
              obtain ⟨after, destination⟩ := opened
              obtain ⟨place, rfl, hafter, hgains, hplace, hfile⟩ := openFile_eq_ok hopen
              simp only [hopen] at h
              obtain ⟨rfl, rfl⟩ := Prod.mk.inj h
              refine .inr ⟨rfl, after.disk, _, by rw [← hafter], hgains,
                .filed hplace hfile fun o ho => ?_⟩
              split at ho
              · rw [List.mem_singleton.mp ho]
              · cases ho

theorem disk_update (r : Registry) (e : Entry) : (r.update e).disk = r.disk := by
  unfold update
  split <;> rfl

/-- A later registry with a journal under a name where all others are as before, and so is every
file. -/
structure Sets (r : Registry) (name : Text) (e : Entry) (r' : Registry) : Prop where
  found : r'.find? name = some e
  others : ∀ other ≠ name, r'.entryOf other = r.entryOf other
  gains : r.disk.Gains Disk.nothing r'.disk

theorem Sets.entryOf_eq (h : r.Sets name e r') : r'.entryOf name = e.alone :=
  entryOf_of_find? h.found

theorem exists_sets_register (r : Registry) (name : Text) :
    ∃ e, r.Sets name e (r.register name) ∧ e.alone = r.entryOf name := by
  obtain ⟨e, he⟩ := Option.isSome_iff_exists.mp (isSome_find?_register r name)
  have hsets : r.Sets name e (r.register name) :=
    ⟨he, fun other _ => entryOf_register r name other, disk_register r name ▸ .refl _⟩
  exact ⟨e, hsets, hsets.entryOf_eq.symm.trans (entryOf_register r name name)⟩

/-- Puts another journal in the place of the one under the name. -/
theorem Sets.update (h : r.Sets name e r') (hname : e'.name = e.name) :
    r.Sets name e' (r'.update e') := by
  have heq : e'.name = name := hname.trans (name_of_find? h.found)
  refine ⟨?_, fun other hne => ?_, ?_⟩
  · rw [find?_update, if_pos heq.symm, h.found, Option.map_some]
  · rw [entryOf_update (by rw [heq, h.found]; rfl), heq, if_neg hne, h.others other hne]
  · rw [disk_update]
    exact h.gains

theorem Sets.withDisk {disk : Disk} (h : r.Sets name e r')
    (hgains : r'.disk.Gains Disk.nothing disk) : r.Sets name e { r' with disk } :=
  ⟨h.found, h.others, h.gains.trans_nothing hgains⟩

/-! The ways in which an opening can end once the level is set: `e` is the journal by then. -/

section Endings

variable {source : Source} {path : Option Text} {rank : Nat}

theorem Sets.opens_bare {fault : SetupFault} (h : r.Sets name e r')
    (hentry : e.alone = { r.entryOf name with rank }) (hrank : source.rank? = some rank)
    (hnone : e.outputs = []) : Opens base path source name r r' (.error fault) := by
  have houtputs : e.outputs = (r.entryOf name).outputs := (congrArg Entry.outputs hentry :)
  exact .bare hrank (houtputs.symm.trans hnone) (h.entryOf_eq.trans hentry)

theorem Sets.opens_joined (h : r.Sets name e r') (hentry : e.alone = { r.entryOf name with rank })
    (hrank : source.rank? = some rank) (hsome : e.outputs ≠ []) :
    Opens base path source name r (r'.update { e with passesOn := false })
      (.ok { e with passesOn := false }) := by
  have houtputs : e.outputs = (r.entryOf name).outputs := (congrArg Entry.outputs hentry :)
  have hstop : r.Sets name { e with passesOn := false } _ := h.update rfl
  refine .joined hrank (houtputs ▸ hsome) ?_ (name_of_find? h.found :)
    (congrArg Entry.rank hentry :)
  rw [hstop.entryOf_eq]
  exact congrArg (fun e => ({ e with passesOn := false } : Entry)) hentry

theorem Sets.opens_equipped {outputs : List Output} (h : r.Sets name { e with outputs } r')
    (hentry : e.alone = { r.entryOf name with rank }) (hrank : source.rank? = some rank)
    (hnone : e.outputs = []) (hfit : Equipped base r'.disk rank path outputs) :
    Opens base path source name r (r'.update { e with outputs, passesOn := false })
      (.ok { e with outputs, passesOn := false }) := by
  have houtputs : e.outputs = (r.entryOf name).outputs := (congrArg Entry.outputs hentry :)
  have hstop : r.Sets name { e with outputs, passesOn := false } _ := h.update rfl
  refine .equipped outputs hrank (houtputs.symm.trans hnone) ?_ ?_ (name_of_find? h.found :)
    (congrArg Entry.rank hentry :)
  · rw [disk_update]
    exact hfit
  · rw [hstop.entryOf_eq]
    exact congrArg (fun e => ({ e with outputs, passesOn := false } : Entry)) hentry

end Endings

theorem openNamed_opens {source : Source} {path : Option Text} {console : Bool}
    {level layout : Value} {answer : Except SetupFault Entry}
    (hread : source.read = .ok (level, layout))
    (h : r.openNamed base name path console level layout = (r', answer)) :
    Opens base path source name r r' answer ∧
      (∀ other ≠ name, r'.entryOf other = r.entryOf other) ∧
      r.disk.Gains Disk.nothing r'.disk := by
  unfold openNamed at h
  simp only at h
  obtain ⟨e, hregister, hentry⟩ := exists_sets_register r name
  generalize r.register name = known at h hregister
  cases hrankOf : rankOf level with
  | error fault =>
      simp only [hrankOf] at h
      obtain ⟨rfl, rfl⟩ := Prod.mk.inj h
      exact ⟨.refused (hregister.entryOf_eq.trans hentry), hregister.others, hregister.gains⟩
  | ok rank =>
      simp only [hrankOf, hregister.found, Option.getD_some] at h
      have hrank : source.rank? = some rank := by
        rw [Source.rank?, hread]
        simp only [hrankOf]
        rfl
      have hset : r.Sets name { e with rank } (known.update { e with rank }) :=
        hregister.update rfl
      have hlevel : ({ e with rank } : Entry).alone = { r.entryOf name with rank } :=
        congrArg (fun e => ({ e with rank } : Entry)) hentry
      generalize known.update { e with rank } = levelled at h hset
      by_cases hnone : e.outputs = []
      · rw [if_pos hnone] at h
        cases hequip : levelled.equip base path console rank layout { e with rank } with
        | mk after given =>
            rw [hequip] at h
            rcases equip_cases hequip with
              ⟨⟨fault, rfl⟩, rfl⟩ | ⟨rfl, disk, outputs, rfl, hgains, hfit⟩
            · obtain ⟨rfl, rfl⟩ := Prod.mk.inj h
              exact ⟨hset.opens_bare hlevel hrank hnone, hset.others, hset.gains⟩
            · have hequipped : r.Sets name { e with rank, outputs } _ :=
                (hset.withDisk hgains).update rfl
              simp only [hequipped.found, Option.getD_some] at h
              obtain ⟨rfl, rfl⟩ := Prod.mk.inj h
              have hstop : r.Sets name { e with rank, outputs, passesOn := false } _ :=
                hequipped.update rfl
              refine ⟨hequipped.opens_equipped hlevel hrank hnone ?_, hstop.others, hstop.gains⟩
              rw [disk_update]
              exact hfit
      · rw [if_neg hnone] at h
        simp only [hset.found, Option.getD_some] at h
        obtain ⟨rfl, rfl⟩ := Prod.mk.inj h
        have hstop : r.Sets name { e with rank, passesOn := false } _ := hset.update rfl
        exact ⟨hset.opens_joined hlevel hrank hnone, hstop.others, hstop.gains⟩

/-- The name of the journal that is opened for a path. -/
def nameFor (r : Registry) (path : Option Text) : Text :=
  (path.filter (· ≠ [])).getD (consoleName r.unnamed)

theorem exists_ensureDirectoryOf (r : Registry) (path : Text) :
    ∃ disk answer, r.ensureDirectoryOf path = ({ r with disk }, answer) ∧
      r.disk.Gains Disk.nothing disk := by
  unfold ensureDirectoryOf
  simp only
  split
  · exact ⟨r.disk, _, rfl, .refl _⟩
  · exact ⟨_, _, rfl, Disk.gains_ensureDirectories _ _⟩

/-- What an opening does to the journal of its name; all others, and the bytes of all files, stay as
they are. -/
theorem openJournal_opens {path : Option Text} {source : Source} {console : Bool}
    {answer : Except SetupFault Entry}
    (h : r.openJournal base path source console = (r', answer)) :
    Opens base (path.filter (· ≠ [])) source (r.nameFor path) r r' answer ∧
      (∀ other ≠ r.nameFor path, r'.entryOf other = r.entryOf other) ∧
      r.disk.Gains Disk.nothing r'.disk := by
  unfold openJournal at h
  unfold nameFor
  simp only at h
  cases hpath : path.filter (· ≠ []) with
  | none =>
      simp only [hpath] at h
      cases hread : source.read with
      | error fault =>
          simp only [hread] at h
          obtain ⟨rfl, rfl⟩ := Prod.mk.inj h
          exact ⟨.refused rfl, fun _ _ => rfl, .refl _⟩
      | ok given =>
          obtain ⟨level, layout⟩ := given
          simp only [hread] at h
          obtain ⟨hopens, hothers, hgains⟩ := openNamed_opens hread h
          exact ⟨hopens.of_entryOf rfl, hothers, hgains⟩
  | some p =>
      simp only [hpath] at h
      obtain ⟨disk, prepared, hensure, hgains⟩ := exists_ensureDirectoryOf r p
      rw [hensure] at h
      have hrefused {fault : SetupFault}
          (h : (({ r with disk }, .error fault) : Registry × Except SetupFault Entry) =
            (r', answer)) :
          Opens base (some p) source p r r' answer ∧
            (∀ other ≠ p, r'.entryOf other = r.entryOf other) ∧
            r.disk.Gains Disk.nothing r'.disk := by
        obtain ⟨rfl, rfl⟩ := Prod.mk.inj h
        exact ⟨.refused rfl, fun _ _ => rfl, hgains⟩
      cases prepared with
      | error fault => exact hrefused h
      | ok =>
          cases hread : source.read with
          | error fault =>
              simp only [hread] at h
              exact hrefused h
          | ok given =>
              obtain ⟨level, layout⟩ := given
              simp only [hread] at h
              obtain ⟨hopens, hothers, hmore⟩ := openNamed_opens hread h
              exact ⟨hopens.of_entryOf rfl, hothers, hgains.trans_nothing hmore⟩

end Registry

end CommandRelay.Journal
