import CommandRelay.Proofs.Execution.OpenFiles

/-!
# Files that a run owns

Opening the targets of a command leaves the run with files that it owns (`Redirects.Owns`), or
closes what has been opened again (`Redirects.openTargets_opening`). Files that are owned are closed
once each, however the run has gone on in between, and each contributes at most one error
(`Redirects.Owns.close`).

## Implementation notes

There is a third way: a second target that the system is never asked about, since its path holds a
NUL or cannot be encoded, ends the opening in another way than one that the system refuses, and the
first file is left open (`Redirects.Opening.left`).
-/

namespace CommandRelay

/-! ## Opening -/

namespace Redirects

variable {s s' : Session} {faults : FileFaults} {c : Command}

/-- A session in which files have been opened, in order, with the sinks that hold them. -/
structure HasOpened (paths : List Text) (s s' : Session) : Prop where
  handles : s'.outlets.handles = s.outlets.handles ++ paths.map fun path => some (path, false)
  effects : s'.effects = s.effects ++ paths.map .opened

theorem hasOpened_nil (ho : s'.outlets = s.outlets) (he : s'.effects = s.effects) :
    HasOpened [] s s' :=
  ⟨by rw [ho]; exact (List.append_nil _).symm, by rw [he]; exact (List.append_nil _).symm⟩

theorem HasOpened.trans {s'' : Session} {paths more : List Text} (h : HasOpened paths s s')
    (h' : HasOpened more s' s'') : HasOpened (paths ++ more) s s'' where
  handles := by rw [h'.handles, h.handles, List.map_append, List.append_assoc]
  effects := by rw [h'.effects, h.effects, List.map_append, List.append_assoc]

/-- The system is asked about every path that can be given to it. -/
theorem openFile_eq_error {d : Disk} {path : Text} {fault : AccessFault}
    (h : Writer.openFile d path = .error fault) :
    (∃ e, fault = .system e) ∨ Path.fault? path = some fault := by
  unfold Writer.openFile at h
  rcases hout : d.openForOutput false path with fault' | ⟨d', place⟩
  · rw [hout] at h
    obtain rfl := Except.error.inj h
    unfold Disk.openForOutput at hout
    split at hout
    · rename_i hfault
      obtain rfl := Except.error.inj hout
      exact .inr hfault
    · split at hout
      all_goals first
        | exact .inl ⟨_, (Except.error.inj hout).symm⟩
        | cases hout
  · rw [hout] at h
    cases h

/-- To open a target adds its sink, or does nothing at all. -/
theorem openTarget_cases (path : Text) (s : Session) :
    (∃ s', openTarget faults path s = (s', .ok s.outlets.handles.length) ∧ HasOpened [path] s s') ∨
      (∃ s' e, openTarget faults path s = (s', .error (.redirect path e)) ∧ HasOpened [] s s') ∨
      ∃ fault, Path.fault? path = some fault ∧
        openTarget faults path s = (s, .error (.access fault)) := by
  unfold openTarget
  rcases hopen : Writer.openFile s.outlets.disk path with fault | ⟨disk, w⟩
  · right
    cases fault with
    | system e => exact .inl ⟨_, _, rfl, hasOpened_nil rfl rfl⟩
    | unencodable | invalid | endless | unsupported =>
        refine .inr ⟨_, (openFile_eq_error hopen).resolve_left ?_, rfl⟩
        exact nofun
  · left
    obtain ⟨place, -, rfl⟩ := eq_of_openFile hopen
    refine ⟨_, by rw [Outlets.length_handles]; rfl, ?_, rfl⟩
    exact Outlets.handles_add { s.outlets with disk } _

theorem fault?_ne_system (path : Text) (e : SystemError) :
    Path.fault? path ≠ some (.system e) := by
  unfold Path.fault?
  split
  · exact nofun
  · split <;> exact nofun

theorem openFile_of_fault {path : Text} {fault : AccessFault}
    (h : Path.fault? path = some fault) (d : Disk) : Writer.openFile d path = .error fault := by
  simp [Writer.openFile, Disk.openForOutput, h, Except.map]

/-- A path that cannot be given to the system opens nothing. -/
theorem openTarget_of_fault {path : Text} {fault : AccessFault}
    (h : Path.fault? path = some fault) (s : Session) :
    openTarget faults path s = (s, .error (.access fault)) := by
  unfold openTarget
  rw [openFile_of_fault h]
  cases fault with
  | system e => exact absurd h (fault?_ne_system path e)
  | unencodable | invalid | endless | unsupported => rfl

/-! ## Closing -/

/-- Texts of errors of closing files, at most one for each of them, in their order. -/
def AreCloseErrors (paths errors : List Text) : Prop :=
  ∃ failed : List (Text × SystemError), (failed.map Prod.fst).Sublist paths ∧
    errors = failed.map fun (path, e) => path ++ " : " ++ e.message

theorem AreCloseErrors.append {paths more errors others : List Text}
    (h : AreCloseErrors paths errors) (h' : AreCloseErrors more others) :
    AreCloseErrors (paths ++ more) (errors ++ others) := by
  obtain ⟨failed, hfailed, rfl⟩ := h
  obtain ⟨failed', hfailed', rfl⟩ := h'
  refine ⟨failed ++ failed', ?_, (List.map_append).symm⟩
  rw [List.map_append]
  exact hfailed.append hfailed'

/-- A session in which the files that its last sinks hold have been closed, in their order. -/
structure HasClosed (front : List (Option (Text × Bool))) (paths : List Text)
    (s s' : Session) : Prop where
  handles : s'.outlets.handles = front ++ paths.map fun path => some (path, true)
  effects : s'.effects = s.effects ++ paths.map .closed

/-- A file is closed, whether closing it fails or not. -/
theorem closeSink_hasClosed {front rest : List (Option (Text × Bool))} {path : Text}
    (faults : FileFaults)
    (h : s.outlets.handles = front ++ some (path, false) :: rest) :
    ∃ s' errors, closeSink faults s front.length = (s', errors) ∧
      s'.outlets.handles = front ++ some (path, true) :: rest ∧
      s'.effects = s.effects ++ [.closed path] ∧ AreCloseErrors [path] errors := by
  have hhandle : s.outlets.handles[front.length]? = some (some (path, false)) := by simp [h]
  rw [Outlets.getElem?_handles] at hhandle
  obtain ⟨sink, hsink, hfile⟩ := Option.map_eq_some_iff.mp hhandle
  cases sink with
  | memory | console | fixed => cases hfile
  | file w =>
      obtain ⟨rfl, -⟩ := Prod.mk.inj (Option.some.inj hfile)
      have hclosed : (s.outlets.close front.length).1.handles =
          front ++ some (w.path, true) :: rest := by
        rw [Outlets.handles_close hsink, h]
        simp
      have hnone : AreCloseErrors [w.path] [] := ⟨[], List.nil_sublist _, rfl⟩
      have hone (e : SystemError) : AreCloseErrors [w.path] [w.path ++ " : " ++ e.message] :=
        ⟨[(w.path, e)], .refl _, rfl⟩
      unfold closeSink
      rw [hsink]
      simp only
      split
      · exact ⟨_, _, rfl, hclosed, rfl, hone _⟩
      · exact ⟨_, _, rfl, hclosed, rfl, hone _⟩
      · exact ⟨_, _, rfl, hclosed, rfl, hnone⟩

/-- The files that the last sinks hold are closed one after the other. -/
theorem closeSinks_hasClosed {front : List (Option (Text × Bool))} {paths : List Text}
    (faults : FileFaults)
    (h : s.outlets.handles = front ++ paths.map fun path => some (path, false)) :
    ∃ s' errors,
      closeSinks faults s (List.range' front.length paths.length) = (s', errors) ∧
        HasClosed front paths s s' ∧ AreCloseErrors paths errors := by
  induction paths generalizing s front with
  | nil => exact ⟨s, [], rfl, ⟨h, (List.append_nil _).symm⟩, [], .refl _, rfl⟩
  | cons path paths ih =>
      obtain ⟨s₁, first, hfirst, hhandles, heffects, herrors⟩ := closeSink_hasClosed faults h
      rw [List.append_cons] at hhandles
      obtain ⟨s', more, hmore, hclosed, hothers⟩ := ih hhandles
      rw [List.length_append, List.length_singleton] at hmore
      refine ⟨s', first ++ more, ?_, ⟨?_, ?_⟩, herrors.append hothers⟩
      · rw [List.length_cons, List.range'_succ, closeSinks, hfirst]
        simp only
        rw [hmore]
      · rw [hclosed.handles, List.append_assoc]
        rfl
      · rw [hclosed.effects, heffects, List.append_assoc]
        rfl

/-! ## From opening to closing -/

/-- The files that a run owns: the targets that have been opened for it, and the sinks that hold
them. -/
structure Owns (c : Command) (files : Redirects) (paths : List Text) (s s' : Session) : Prop where
  targets : ∀ path ∈ paths, c.IsTarget path
  distinct : paths.Nodup
  sinks : files.sinks = List.range' s.outlets.handles.length paths.length
  opened : HasOpened paths s s'

/-- A session in which targets of a command have been opened since, and each of them has been
closed once, after everything else. -/
structure ClosedOnce (c : Command) (paths : List Text) (s s' : Session) : Prop where
  targets : ∀ path ∈ paths, c.IsTarget path
  distinct : paths.Nodup
  handles : s'.outlets.handles = s.outlets.handles ++ paths.map fun path => some (path, true)
  effects : ∃ tr, s'.effects = s.effects ++ (tr ++ paths.map .closed) ∧
    tr.filterMap Effect.opened? = paths ∧ tr.filterMap Effect.closed? = []

variable {files : Redirects} {paths : List Text} {s₁ : Session}

theorem closedOnce_nil (h : HasOpened [] s s') : ClosedOnce c [] s s' where
  targets := nofun
  distinct := .nil
  handles := h.handles
  effects := ⟨[], h.effects, rfl, rfl⟩

/-- The files that are owned are closed, however a run has gone on in between. -/
theorem Owns.close (h : Owns c files paths s s₁) (hholds : s₁.Holds s')
    (faults : FileFaults) :
    ∃ s'' errors, files.close faults s' = (s'', errors) ∧ ClosedOnce c paths s s'' ∧
      AreCloseErrors paths errors := by
  have hhandles : s'.outlets.handles =
      s.outlets.handles ++ paths.map fun path => some (path, false) :=
    hholds.handles.trans h.opened.handles
  obtain ⟨s₂, errors, hclose, hclosed, herrors⟩ := closeSinks_hasClosed faults hhandles
  rw [← h.sinks] at hclose
  obtain ⟨houtlets, heffects, -⟩ := noted_keeps errors s₂
  obtain ⟨more, hmore, hspares⟩ := hholds.effects
  refine ⟨_, errors, by rw [Redirects.close, hclose], ⟨h.targets, h.distinct, ?_, ?_⟩, herrors⟩
  · rw [houtlets, hclosed.handles]
  · have hopened : more.filterMap Effect.opened? = [] :=
      List.filterMap_eq_nil_iff.mpr fun e he => (hspares e he).1
    have hclosed? : more.filterMap Effect.closed? = [] :=
      List.filterMap_eq_nil_iff.mpr fun e he => (hspares e he).2
    refine ⟨paths.map .opened ++ more, ?_, ?_, ?_⟩
    · rw [heffects, hclosed.effects, hmore, h.opened.effects]
      simp only [List.append_assoc]
    · rw [List.filterMap_append, hopened, List.append_nil, List.filterMap_map]
      exact List.filterMap_some
    · rw [List.filterMap_append, hclosed?, List.append_nil, List.filterMap_map]
      exact List.filterMap_eq_nil_iff.mpr fun _ _ => rfl

/-- What opening the targets of a command can come to: it owns them all, or what has been opened is
closed again; but the first file is left open if the system is never asked about the second. -/
inductive Opening (c : Command) (s s' : Session) : Except Failure Redirects → Prop
  | opened {files : Redirects} {paths : List Text} (h : Owns c files paths s s') :
      Opening c s s' (.ok files)
  | closed {f : Failure} {paths : List Text} (h : ClosedOnce c paths s s') :
      Opening c s s' (.error f)
  | left {fault} (hout : c.stdoutTarget ≠ []) (hother : c.stderrTarget ≠ c.stdoutTarget)
      (hfault : Path.fault? c.stderrTarget = some fault)
      (h : HasOpened [c.stdoutTarget] s s') : Opening c s s' (.error (.access fault))

/-- The files that are owned when the target of the error channel is about to be opened. -/
inductive OwnsFirst (c : Command) (s s' : Session) : Redirects → Prop
  | none (hout : c.stdoutTarget = []) (h : HasOpened [] s s') : OwnsFirst c s s' {}
  | file (hout : c.stdoutTarget ≠ []) (h : HasOpened [c.stdoutTarget] s s') :
      OwnsFirst c s s' { stdout := some s.outlets.handles.length }

theorem owns_one {path : Text} (hpath : c.IsTarget path)
    (hsinks : files.sinks = [s.outlets.handles.length]) (h : HasOpened [path] s s') :
    Owns c files [path] s s' where
  targets := fun _ hmem => List.mem_singleton.mp hmem ▸ hpath
  distinct := by simp
  sinks := hsinks
  opened := h

theorem OwnsFirst.owns (h : OwnsFirst c s s' files) : ∃ paths, Owns c files paths s s' := by
  cases h with
  | none hout h => exact ⟨[], nofun, .nil, rfl, h⟩
  | file hout h => exact ⟨_, owns_one ⟨hout, .inl rfl⟩ rfl h⟩

/-- The second file comes to those that are owned. -/
theorem OwnsFirst.second (h : OwnsFirst c s s₁ files) (herr : c.stderrTarget ≠ [])
    (hother : c.stderrTarget ≠ c.stdoutTarget) (h' : HasOpened [c.stderrTarget] s₁ s') :
    ∃ paths, Owns c { files with stderr := some s₁.outlets.handles.length } paths s s' := by
  have hsecond : c.IsTarget c.stderrTarget := ⟨herr, .inr rfl⟩
  cases h with
  | none hout h =>
      refine ⟨_, owns_one hsecond ?_ (h.trans h')⟩
      rw [h.handles]
      simp [sinks]
  | file hout h =>
      refine ⟨[c.stdoutTarget, c.stderrTarget], ?_, ?_, ?_, h.trans h'⟩
      · intro path hmem
        simp only [List.mem_cons, List.not_mem_nil, or_false] at hmem
        rcases hmem with rfl | rfl
        · exact ⟨hout, .inl rfl⟩
        · exact hsecond
      · simpa using hother.symm
      · rw [h.handles]
        simp [sinks, List.range'_succ]

/-- The target of the error channel is opened last. -/
theorem openSecond_opening (faults : FileFaults) (h : OwnsFirst c s s₁ files) :
    Opening c s (openSecond faults c files s₁).1 (openSecond faults c files s₁).2 := by
  obtain ⟨paths, howns⟩ := h.owns
  unfold openSecond
  split
  · exact .opened howns
  · rename_i herr
    split
    · rename_i hsame
      cases h with
      | none hout h => exact absurd (hsame.trans hout) herr
      | file hout h => exact .opened (owns_one ⟨hout, .inl rfl⟩ (by simp [sinks]) h)
    · rename_i hother
      rcases openTarget_cases c.stderrTarget s₁ with
        ⟨s', hopen, h'⟩ | ⟨s', e, hopen, h'⟩ | ⟨fault, hfault, hopen⟩ <;> rw [hopen]
      · obtain ⟨paths, howns⟩ := h.second herr hother h'
        exact .opened howns
      · have hholds : s₁.Holds s' :=
          Session.holds_of_append [] (by simpa using h'.handles) (by simpa using h'.effects) nofun
        obtain ⟨s'', errors, hclose, hclosed, -⟩ := howns.close hholds faults
        simp only [hclose]
        exact .closed hclosed
      · cases h with
        | none hout h => exact .closed (closedOnce_nil h)
        | file hout h => exact .left hout hother hfault h

/-- Opening the targets of a command comes to what it can come to. -/
theorem openTargets_opening (allowed : Bool) (faults : FileFaults) (c : Command)
    (s : Session) :
    Opening c s (openTargets allowed faults c s).1 (openTargets allowed faults c s).2 := by
  have hnothing {s' : Session} (h : HasOpened [] s s') : Opening c s s' (.ok {}) := by
    have howns : Owns c {} [] s s' := ⟨nofun, .nil, rfl, h⟩
    exact .opened howns
  unfold openTargets
  split
  · exact hnothing (hasOpened_nil rfl rfl)
  · split
    · exact hnothing (hasOpened_nil rfl rfl)
    · split
      · rename_i hout
        exact openSecond_opening faults (.none hout (hasOpened_nil rfl rfl))
      · rename_i hout
        rcases openTarget_cases c.stdoutTarget s with
          ⟨s', hopen, h⟩ | ⟨s', e, hopen, h⟩ | ⟨fault, -, hopen⟩ <;> rw [hopen]
        · exact openSecond_opening faults (.file hout h)
        · exact .closed (closedOnce_nil h)
        · exact .closed (closedOnce_nil (hasOpened_nil rfl rfl))

end Redirects

end CommandRelay
