import CommandRelay.Proofs.Journal.Noting

/-!
# Histories of journals

A program opens journals and notes lines in those that it got. Whatever it does, in any order, a
journal that somebody got has outputs, the first of which is the one that its name stands for, and
their level is that of the first opening, while the journal itself has the level of the last one:
`Stands`. Every step keeps that (`Desk.Sound.step`), so it holds after every history.

## Implementation notes

`Desk.ranks` lists the levels of those who got a journal. Openings that fail are not in it: a failed
one can leave a level only with a journal that has no outputs yet, and nobody got that one.
-/

namespace CommandRelay.Journal

/-! ## Steps -/

/-- What is done with journals: one is opened, or a line is noted in the one that an earlier opening
gave. -/
inductive Step where
  | opening (path : Option Text) (source : Source) (console : Bool)
  | noting (i : Nat) (stamp : Text) (l : Line)

/-- The path of the file that a step opens a journal for. -/
def Step.path? : Step → Option Text
  | .opening path _ _ => path.filter (· ≠ [])
  | .noting .. => none

/-- The paths that journals are opened for. -/
def paths (steps : List Step) : List Text :=
  steps.filterMap Step.path?

theorem mem_paths {steps : List Step} : ∀ s ∈ steps, ∀ p, s.path? = some p → p ∈ paths steps :=
  fun s hs _ hp => List.mem_filterMap.mpr ⟨s, hs, hp⟩

/-- A source that gives a level, and the layout of nothing but the text. -/
def plainSource (level : Text) : Source :=
  .document (.object [("logging",
    .object [("level", .string level), ("format", .string plainLayout)])])

/-- A journal that somebody got: the path and the source that it was opened with, and its name. -/
structure Handle where
  path : Option Text
  source : Source
  name : Text

/-- The journals of a program, with what each opening gave. -/
structure Desk where
  registry : Registry
  opened : List (Option Handle) := []

namespace Desk

/-- The journals that somebody got, in the order of the openings. -/
def handles (d : Desk) : List Handle :=
  d.opened.filterMap id

/-- The journal that an opening gave. -/
def handle? (d : Desk) (i : Nat) : Option Handle :=
  d.opened[i]?.join

/-- The ranks of the levels that a journal was opened with by those who got it. -/
def ranks (d : Desk) (name : Text) : List Nat :=
  (d.handles.filter (·.name = name)).filterMap (·.source.rank?)

/-- One step. A line for a journal that nobody got is dropped. -/
def step (base : Text) (d : Desk) : Step → Desk
  | .opening path source console =>
    match d.registry.openJournal base path source console with
    | (registry, .ok e) =>
      ⟨registry, d.opened ++ [some ⟨path.filter (· ≠ []), source, e.name⟩]⟩
    | (registry, .error _) => ⟨registry, d.opened ++ [none]⟩
  | .noting i stamp l =>
    match d.handle? i with
    | some h => { d with registry := (d.registry.note stamp h.name l).1 }
    | none => d

/-- A history. -/
def run (base : Text) (d : Desk) (steps : List Step) : Desk :=
  steps.foldl (step base) d

/-- The bytes of the file under a list of names. -/
def contentAt (d : Desk) (names : List Text) : Bytes :=
  d.registry.disk.contentAt names

end Desk

/-! ## What a journal is for those who got it -/

/-- What the first output of a journal is: the file that the journal is named for, or the console if
it was opened without one. -/
inductive Fits (base : Text) (used : List Text) (name : Text) (o : Output) : Prop
  | shown (n : Nat) (hname : name = consoleName n) (hdest : o.destination = .console)
  | filed (place : Place) (waiting : Bytes) (hused : name ∈ used)
      (hdest : o.destination = .file place waiting)
      (hplace : ∀ names, place = .file names ↔ fileNames? base name = some names)

/-- What a journal is after it was opened at some ranks: the first of them stays with its outputs,
the last one is its own. -/
inductive Stands (base : Text) (used : List Text) (name : Text) (e : Entry) : List Nat → Prop
  | unopened (houtputs : e.outputs = []) : Stands base used name e []
  | opened (o : Output) (rest : List Output) (more : List Nat) (houtputs : e.outputs = o :: rest)
      (hfits : Fits base used name o) (hrest : ∀ o ∈ rest, o.destination = .console)
      (hlast : (o.rank :: more).getLast? = some e.rank) (hstop : e.passesOn = false) :
      Stands base used name e (o.rank :: more)

namespace Output

variable {o o' : Output}

theorem console_of_settled (h : o'.settled = o.settled) (hdest : o.destination = .console) :
    o'.destination = .console := by
  rw [settled_console hdest] at h
  cases hdest' : o'.destination with
  | console => rfl
  | file place waiting =>
      have hsettled := congrArg destination h
      simp [settled, hdest', hdest] at hsettled

theorem exists_file_of_settled {place : Place} {waiting : Bytes} (h : o'.settled = o.settled)
    (hdest : o.destination = .file place waiting) :
    ∃ waiting', o'.destination = .file place waiting' := by
  have hsettled := congrArg destination h
  cases hdest' : o'.destination with
  | console => simp [settled, hdest', hdest] at hsettled
  | file place' waiting' =>
      simp only [settled, hdest', hdest, Destination.file.injEq, and_true] at hsettled
      exact ⟨waiting', by rw [hsettled]⟩

theorem rank_of_settled (h : o'.settled = o.settled) : o'.rank = o.rank := by
  rw [← rank_settled o', h, rank_settled]

end Output

variable {base name : Text} {used : List Text} {e e' : Entry} {o o' : Output} {levels : List Nat}

theorem Fits.of_settled (h : Fits base used name o) (hsettled : o'.settled = o.settled) :
    Fits base used name o' := by
  cases h with
  | shown n hname hdest => exact .shown n hname (Output.console_of_settled hsettled hdest)
  | filed place waiting hused hdest hplace =>
      obtain ⟨waiting', hdest'⟩ := Output.exists_file_of_settled hsettled hdest
      exact .filed place waiting' hused hdest' hplace

theorem Stands.of_settled (h : Stands base used name e levels) (hsettled : e'.settled = e.settled) :
    Stands base used name e' levels := by
  have hmap : e'.outputs.map Output.settled = e.outputs.map Output.settled :=
    (congrArg Entry.outputs hsettled :)
  have hrank : e'.rank = e.rank := (congrArg Entry.rank hsettled :)
  have hpasses : e'.passesOn = e.passesOn := (congrArg Entry.passesOn hsettled :)
  cases h with
  | unopened houtputs =>
      rw [houtputs, List.map_nil, List.map_eq_nil_iff] at hmap
      exact .unopened hmap
  | opened o rest more houtputs hfits hrest hlast hstop =>
      rw [houtputs, List.map_cons, List.map_eq_cons_iff] at hmap
      obtain ⟨o', rest', houtputs', hfirst, hothers⟩ := hmap
      rw [← Output.rank_of_settled hfirst] at hlast ⊢
      refine .opened o' rest' more houtputs' (hfits.of_settled hfirst) ?_ (hrank ▸ hlast)
        (hpasses.trans hstop)
      intro o₁ ho₁
      have hmem : o₁.settled ∈ rest.map Output.settled :=
        hothers ▸ List.mem_map_of_mem ho₁
      obtain ⟨o₂, ho₂, hsame⟩ := List.mem_map.mp hmem
      exact Output.console_of_settled hsame.symm (hrest o₂ ho₂)

theorem Stands.eq_nil (h : Stands base used name e levels) (houtputs : e.outputs = []) :
    levels = [] := by
  cases h with
  | unopened => rfl
  | opened o rest more houtputs' =>
      rw [houtputs'] at houtputs
      cases houtputs

/-- Whoever joins a journal gives it another level. -/
theorem Stands.join (h : Stands base used name e levels) (hsome : e.outputs ≠ []) (rank : Nat) :
    Stands base used name { e with rank, passesOn := false } (levels ++ [rank]) := by
  cases h with
  | unopened houtputs => exact absurd houtputs hsome
  | opened o rest more houtputs hfits hrest hlast hstop =>
      exact .opened o rest (more ++ [rank]) houtputs hfits hrest
        (List.getLast?_concat (l := o.rank :: more)) rfl

/-! ## Histories -/

namespace Desk

variable {d : Desk} {h : Handle} {rank : Nat}

/-- What holds of a desk after every history in which journals are opened for some paths only. -/
structure Sound (base : Text) (used : List Text) (d : Desk) : Prop where
  ready : d.registry.Ready
  stands : ∀ name, Stands base used name (d.registry.entryOf name) (d.ranks name)
  named : ∀ h ∈ d.handles, h.path = some h.name ∧ h.name ∈ used ∨
    h.path = none ∧ ∃ n, h.name = consoleName n
  ranked : ∀ h ∈ d.handles, ∃ rank, h.source.rank? = some rank

theorem mem_handles_of_handle? {i : Nat} (hi : d.handle? i = some h) : h ∈ d.handles := by
  unfold handle? at hi
  rw [Option.join_eq_some_iff] at hi
  exact List.mem_filterMap.mpr ⟨some h, List.mem_of_getElem? hi, rfl⟩

theorem handles_append (d : Desk) (registry : Registry) (given : Option Handle) :
    handles ⟨registry, d.opened ++ [given]⟩ = d.handles ++ given.toList := by
  unfold handles
  cases given <;> simp

theorem ranks_none (d : Desk) (registry : Registry) (name : Text) :
    ranks ⟨registry, d.opened ++ [none]⟩ name = d.ranks name := by
  unfold ranks
  rw [handles_append, Option.toList_none, List.append_nil]

theorem ranks_some (d : Desk) (registry : Registry) (hrank : h.source.rank? = some rank)
    (name : Text) :
    ranks ⟨registry, d.opened ++ [some h]⟩ name =
      if name = h.name then d.ranks name ++ [rank] else d.ranks name := by
  unfold ranks
  rw [handles_append, Option.toList_some, List.filter_append, List.filterMap_append]
  by_cases hname : name = h.name
  · simp [hname, hrank]
  · simp [hname, Ne.symm hname]

theorem sound_start (base : Text) (used : List Text) (disk : Disk) (unnamed : Nat) :
    Sound base used { registry := { disk, unnamed } } := by
  have houtputs (name : Text) :
      (({ disk, unnamed } : Registry).entryOf name).outputs = [] := by
    unfold Registry.entryOf Registry.find?
    split <;> rfl
  constructor
  · intro name o ho
    rw [houtputs] at ho
    cases ho
  · exact fun name => .unopened (houtputs name)
  · exact nofun
  · exact nofun

end Desk

theorem Equipped.exists_fits {disk : Disk} {rank : Nat} {r : Registry} {path : Option Text}
    {outputs : List Output} (h : Equipped base disk rank (path.filter (· ≠ [])) outputs)
    (hused : ∀ p, path.filter (· ≠ []) = some p → p ∈ used) :
    ∃ o rest, outputs = o :: rest ∧ o.rank = rank ∧ Fits base used (r.nameFor path) o ∧
      (∀ o ∈ rest, o.destination = .console) ∧ ∀ o ∈ outputs, o.Ready disk := by
  unfold Registry.nameFor
  generalize path.filter (· ≠ []) = wanted at h hused
  cases h with
  | shown layout =>
      refine ⟨_, [], rfl, rfl, .shown r.unnamed rfl rfl, nofun, fun o ho => ?_⟩
      rw [List.mem_singleton.mp ho]
      exact Output.ready_console rfl
  | @filed p layout place rest hplace hfile hrest =>
      refine ⟨_, rest, rfl, rfl, .filed place [] (hused p rfl) rfl hplace, hrest, fun o ho => ?_⟩
      rcases List.mem_cons.mp ho with rfl | ho
      · intro names waiting hdest
        obtain ⟨hfiled, hwaiting⟩ := Destination.file.inj hdest
        exact ⟨hwaiting.symm, hfile names hfiled⟩
      · exact Output.ready_console (hrest o ho)

namespace Desk

variable {d : Desk} {h : Handle} {rank : Nat}

/-- An opening that nobody gets anything from. -/
theorem Sound.refused {registry : Registry} {name : Text} (hsound : d.Sound base used)
    (hgains : d.registry.disk.Gains Disk.nothing registry.disk)
    (hothers : ∀ other ≠ name, registry.entryOf other = d.registry.entryOf other)
    (hentry : registry.entryOf name = d.registry.entryOf name ∨
      (d.registry.entryOf name).outputs = [] ∧ (registry.entryOf name).outputs = []) :
    Sound base used ⟨registry, d.opened ++ [none]⟩ := by
  have hhandles := handles_append d registry none
  rw [Option.toList_none, List.append_nil] at hhandles
  refine ⟨hsound.ready.of_entryOf hgains.file hothers fun o ho => ?_, fun other => ?_, ?_, ?_⟩
  · rcases hentry with hentry | ⟨-, hnone⟩
    · exact .inl (hentry ▸ ho)
    · rw [hnone] at ho
      cases ho
  · rw [ranks_none]
    have hstands := hsound.stands other
    by_cases hname : other = name
    · subst hname
      rcases hentry with hentry | ⟨hbefore, hnone⟩
      · exact hentry ▸ hstands
      -- nobody got a journal that has no outputs, so the level it was left with counts for none
      · rw [hstands.eq_nil hbefore]
        exact .unopened hnone
    · exact hothers other hname ▸ hstands
  · exact hhandles ▸ hsound.named
  · exact hhandles ▸ hsound.ranked

/-- An opening that somebody gets a journal from. -/
theorem Sound.given {registry : Registry} (hsound : d.Sound base used)
    (hgains : d.registry.disk.Gains Disk.nothing registry.disk)
    (hothers : ∀ other ≠ h.name, registry.entryOf other = d.registry.entryOf other)
    (hrank : h.source.rank? = some rank)
    (hpath : h.path = some h.name ∧ h.name ∈ used ∨ h.path = none ∧ ∃ n, h.name = consoleName n)
    (hready : ∀ o ∈ (registry.entryOf h.name).outputs,
      o ∈ (d.registry.entryOf h.name).outputs ∨ o.Ready registry.disk)
    (hstands : Stands base used h.name (registry.entryOf h.name) (d.ranks h.name ++ [rank])) :
    Sound base used ⟨registry, d.opened ++ [some h]⟩ := by
  have hhandles : ∀ h' ∈ handles ⟨registry, d.opened ++ [some h]⟩, h' ∈ d.handles ∨ h' = h := by
    rw [handles_append]
    simp
  refine ⟨hsound.ready.of_entryOf hgains.file hothers hready, fun other => ?_, fun h' hh' => ?_,
    fun h' hh' => ?_⟩
  · rw [ranks_some d registry hrank]
    split
    · rename_i hname
      rw [hname]
      exact hstands
    · rename_i hname
      exact hothers other hname ▸ hsound.stands other
  · rcases hhandles h' hh' with hold | rfl
    · exact hsound.named h' hold
    · exact hpath
  · rcases hhandles h' hh' with hold | rfl
    · exact hsound.ranked h' hold
    · exact ⟨rank, hrank⟩

theorem Sound.opening {path : Option Text} {source : Source} {console : Bool}
    (hsound : d.Sound base used) (hused : ∀ p, path.filter (· ≠ []) = some p → p ∈ used) :
    Sound base used (d.step base (.opening path source console)) ∧
      d.registry.disk.Gains Disk.nothing
        (d.step base (.opening path source console)).registry.disk := by
  have hpath : path.filter (· ≠ []) = some (d.registry.nameFor path) ∧
      d.registry.nameFor path ∈ used ∨
      path.filter (· ≠ []) = none ∧ ∃ n, d.registry.nameFor path = consoleName n := by
    unfold Registry.nameFor
    cases hwanted : path.filter (· ≠ []) with
    | none => exact .inr ⟨rfl, _, rfl⟩
    | some p => exact .inl ⟨rfl, hused p hwanted⟩
  cases hopen : d.registry.openJournal base path source console with
  | mk registry answer =>
      obtain ⟨hopens, hothers, hgains⟩ := Registry.openJournal_opens hopen
      rw [step, hopen]
      cases hopens with
      | refused hentry => exact ⟨hsound.refused hgains hothers (.inl hentry), hgains⟩
      | bare hrank hnone hentry =>
          refine ⟨hsound.refused hgains hothers (.inr ⟨hnone, ?_⟩), hgains⟩
          rw [hentry]
          exact hnone
      | @joined e rank hrank hsome hentry hname hlevel =>
          have hstands := (hsound.stands (d.registry.nameFor path)).join hsome rank
          simp only [hname]
          refine ⟨hsound.given hgains hothers hrank hpath (fun o ho => .inl ?_) ?_, hgains⟩
          · rw [hentry] at ho
            exact ho
          · rw [hentry]
            exact hstands
      | @equipped e rank outputs hrank hnone hfit hentry hname hlevel =>
          obtain ⟨o, rest, rfl, hfirst, hfits, hrest, hready⟩ :=
            hfit.exists_fits (r := d.registry) hused
          have hlevels := (hsound.stands (d.registry.nameFor path)).eq_nil hnone
          simp only [hname]
          refine ⟨hsound.given hgains hothers hrank hpath (fun o' ho' => .inr ?_) ?_, hgains⟩
          · rw [hentry] at ho'
            exact hready o' ho'
          · rw [hentry, hlevels, List.nil_append, ← hfirst]
            exact .opened o rest [] rfl hfits hrest rfl rfl

theorem mem_ranks (hh : h ∈ d.handles) (hrank : h.source.rank? = some rank) :
    rank ∈ d.ranks h.name :=
  List.mem_filterMap.mpr ⟨h, List.mem_filter.mpr ⟨hh, decide_eq_true rfl⟩, hrank⟩

/-- Who got a journal finds outputs in it, and it passes no lines on. -/
theorem Sound.exists_outputs (hsound : d.Sound base used) (hh : h ∈ d.handles) :
    ∃ o rest, (d.registry.entryOf h.name).outputs = o :: rest ∧ Fits base used h.name o ∧
      (∀ o ∈ rest, o.destination = .console) ∧ (d.registry.entryOf h.name).passesOn = false := by
  obtain ⟨rank, hrank⟩ := hsound.ranked h hh
  have hne := List.ne_nil_of_mem (mem_ranks hh hrank)
  cases hlevels : d.ranks h.name with
  | nil => exact absurd hlevels hne
  | cons first more =>
      have hstands := hsound.stands h.name
      rw [hlevels] at hstands
      cases hstands with
      | opened o rest more houtputs hfits hrest hlast hstop =>
          exact ⟨o, rest, houtputs, hfits, hrest, hstop⟩

theorem Sound.note_keeps {stamp : Text} {l : Line} (hsound : d.Sound base used)
    (hh : h ∈ d.handles) :
    d.registry.Keeps (d.registry.noted stamp h.name l) (d.registry.note stamp h.name l).1 := by
  obtain ⟨o, rest, -, -, -, hstop⟩ := hsound.exists_outputs hh
  exact Registry.note_keeps hsound.ready hstop

/-- A line that is noted in a journal adds its record to the file of the path that the journal was
opened for, and nothing to any other file. -/
theorem Sound.noted_eq {stamp : Text} {l : Line} (hsound : d.Sound base used) (hh : h ∈ d.handles)
    (hfile : h.path = some h.name → ∀ n, h.name ≠ consoleName n)
    (hconsole : h.path = none → h.name ∉ used) :
    d.registry.noted stamp h.name l = fun names =>
      if h.path.bind (fileNames? base) = some names then
        (d.registry.record? stamp h.name l).getD [] else [] := by
  obtain ⟨o, rest, houtputs, hfits, hrest, -⟩ := hsound.exists_outputs hh
  funext names
  cases hfits with
  | shown n hname hdest =>
      rcases hsound.named h hh with ⟨hpath, -⟩ | ⟨hpath, -⟩
      · exact absurd hname (hfile hpath n)
      · rw [Registry.noted_consoles, hpath]
        · rfl
        · rw [houtputs, List.forall_mem_cons]
          exact ⟨hdest, hrest⟩
  | filed place waiting hused hdest hplace =>
      rcases hsound.named h hh with ⟨hpath, -⟩ | ⟨hpath, -⟩
      · rw [Registry.noted_filed houtputs hdest hrest, hpath]
        simp only [hplace, Option.bind_some]
      · exact absurd hused (hconsole hpath)

theorem Sound.contentAt_noting {i : Nat} {stamp : Text} {l : Line} (hsound : d.Sound base used)
    (hi : d.handle? i = some h) (hfile : h.path = some h.name → ∀ n, h.name ≠ consoleName n)
    (hconsole : h.path = none → h.name ∉ used) (names : List Text) :
    (d.step base (.noting i stamp l)).contentAt names = d.contentAt names ++
      if h.path.bind (fileNames? base) = some names then
        (d.registry.record? stamp h.name l).getD [] else [] := by
  have hh := mem_handles_of_handle? hi
  have hkeeps : d.registry.Keeps (d.registry.noted stamp h.name l) _ := hsound.note_keeps hh
  have hcontent := hkeeps.gains.content names
  rw [hsound.noted_eq hh hfile hconsole] at hcontent
  rw [step, hi]
  exact hcontent

theorem Sound.noting {i : Nat} {stamp : Text} {l : Line} (hsound : d.Sound base used) :
    Sound base used (d.step base (.noting i stamp l)) := by
  rw [step]
  cases hi : d.handle? i with
  | none => exact hsound
  | some h =>
      obtain ⟨-, hready, hsettled⟩ := hsound.note_keeps (mem_handles_of_handle? hi)
      exact ⟨hready, fun name => (hsound.stands name).of_settled (hsettled name), hsound.named,
        hsound.ranked⟩

theorem Sound.step {s : Step} (hsound : d.Sound base used)
    (hused : ∀ p, s.path? = some p → p ∈ used) : Sound base used (d.step base s) := by
  cases s with
  | opening path source console => exact (hsound.opening hused).1
  | noting i stamp l => exact hsound.noting

theorem Sound.run {steps : List Step} (hsound : d.Sound base used)
    (hused : ∀ s ∈ steps, ∀ p, s.path? = some p → p ∈ used) :
    Sound base used (d.run base steps) := by
  induction steps generalizing d with
  | nil => exact hsound
  | cons s steps ih =>
      rw [List.forall_mem_cons] at hused
      exact ih (hsound.step hused.1) hused.2

/-- A step adds bytes at the end of files, and takes none away. -/
theorem Sound.exists_gains {s : Step} (hsound : d.Sound base used)
    (hused : ∀ p, s.path? = some p → p ∈ used) :
    ∃ more, d.registry.disk.Gains more (d.step base s).registry.disk := by
  cases s with
  | opening path source console => exact ⟨_, (hsound.opening hused).2⟩
  | noting i stamp l =>
      rw [Desk.step]
      cases hi : d.handle? i with
      | none => exact ⟨_, .refl _⟩
      | some h => exact ⟨_, (hsound.note_keeps (mem_handles_of_handle? hi)).gains⟩

/-- What is in a file stays there, and whatever is added comes after it. -/
theorem Sound.contentAt_run {steps : List Step} (hsound : d.Sound base used)
    (hused : ∀ s ∈ steps, ∀ p, s.path? = some p → p ∈ used) (names : List Text) :
    d.contentAt names <+: (d.run base steps).contentAt names := by
  induction steps generalizing d with
  | nil => exact List.prefix_refl _
  | cons s steps ih =>
      rw [List.forall_mem_cons] at hused
      obtain ⟨more, hgains⟩ := hsound.exists_gains hused.1
      have hstep : d.contentAt names <+: (d.step base s).contentAt names :=
        ⟨more names, (hgains.content names).symm⟩
      exact hstep.trans (ih (hsound.step hused.1) hused.2)

end Desk

end CommandRelay.Journal
