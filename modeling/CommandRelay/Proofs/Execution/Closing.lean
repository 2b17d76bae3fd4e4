import CommandRelay.Proofs.Execution.OwnedFiles

/-!
# Closing the files of a run

The files that a run has opened are the ones that it closes, each of them once, on whatever way it
is left: with a result or a failure, and by an exception at any moment (`files_closed_once`). The
one way that leaves a file open is a second target that the system is never asked about
(`run_of_fault`).
-/

namespace CommandRelay

/-! ## Ways out of a run -/

namespace Run

variable (x : Executor) (options : RunOptions) (consoles : Consoles) (w : Surroundings)

/-- The session that the check of a run leaves, and what it says. -/
def consult (check : Check) (c : Command) (s : Session) : Session × Except Failure Unit :=
  check ((s.emit (.consulted c.name)).cancelIf w.whileAuthorizing) c.name

/-- The sessions that a run can be left in while its files are open: lines are noted and notices
shown, the child is started, and anything happens to its relay, exceptions included. -/
inductive Executing (c : Command) (files : Redirects) (s : Session) : Session → Prop
  | opened : Executing c files s s
  | noted {s'} (h : Executing c files s s') (level : Level) (text : Text) :
      Executing c files s (s'.note level text)
  | shown {s'} (h : Executing c files s s') (text : Text) :
      Executing c files s (s'.display consoles.notices text).1
  | spawned {s'} (h : Executing c files s s') : Executing c files s (spawn x w c s').1
  | relaying {s' s'' child r os} (h : Executing c files s s')
      (hspawn : spawn x w c s' = (s'', .ok child))
      (hpursue : (relay x options consoles w c files child s'').pursue os = some r) :
      Executing c files s r.session

/-- The ways out of a run, with the session that is left and the answer: it is refused, its targets
are not opened, or its files are closed at any moment and with any answer. -/
inductive Exits (check : Check) (c : Command) (s : Session) :
    Session → Except Failure RunResult → Prop
  | refused {s' f} (h : consult w check c s = (s', .error f)) : Exits check c s s' (.error f)
  | unopened {s₁ s' f} (h : consult w check c s = (s₁, .ok ()))
      (hopen : Redirects.openTargets options.redirect w.fileFaults c s₁ = (s', .error f)) :
      Exits check c s s' (.error f)
  | executed {s₁ s₂ s' files answer} (h : consult w check c s = (s₁, .ok ()))
      (hopen : Redirects.openTargets options.redirect w.fileFaults c s₁ = (s₂, .ok files))
      (hexec : Executing x options consoles w c files s₂ s') :
      Exits check c s (finish w files s' answer).1 (finish w files s' answer).2

variable {x options consoles w} {check : Check} {c : Command} {s s' s'' : Session}
  {files : Redirects} {answer : Except Failure RunResult}

/-! ### What a run gives is a way out of it -/

theorem Executing.announce (h : Executing x options consoles w c files s s') (n : Notice) :
    Executing x options consoles w c files s (announce x consoles n c s').1 := by
  unfold Run.announce
  split
  · exact h.shown _
  · exact h

theorem Executing.conclude {r : Relay} (h : Executing x options consoles w c files s r.session) :
    Executing x options consoles w c files s (conclude x consoles w c r).1 :=
  conclude_induction x consoles w (p := Executing x options consoles w c files s)
    (fun _ level text hs => hs.noted level text) (fun _ n hs => hs.announce n) h

theorem executing_of_execute
    (h : execute x options consoles w c files s = some (s', answer)) :
    Executing x options consoles w c files s s' := by
  have hnoted : Executing x options consoles w c files s (record x .info .start c s) :=
    .noted .opened .info (Notice.start.text c x.asRoot)
  have hstart := hnoted.announce .start
  unfold execute at h
  split at h
  · rename_i s₁ fault hshown
    obtain ⟨rfl, -⟩ := Prod.mk.inj (Option.some.inj h)
    rwa [hshown] at hstart
  · rename_i s₁ hshown
    rw [hshown] at hstart
    split at h
    · obtain ⟨rfl, -⟩ := Prod.mk.inj (Option.some.inj h)
      exact hstart.noted _ _
    · split at h
      · rename_i s₂ f hspawn
        obtain ⟨rfl, -⟩ := Prod.mk.inj (Option.some.inj h)
        have hspawned := hstart.spawned
        rwa [hspawn] at hspawned
      · rename_i s₂ child hspawn
        obtain ⟨r, hsettle, hconclude⟩ := Option.map_eq_some_iff.mp h
        obtain ⟨ts, hfollow, -⟩ := Relay.exists_follow_of_settle hsettle
        rw [← Relay.pursue_map_turn] at hfollow
        have hend := (hstart.relaying hspawn hfollow).conclude
        rwa [hconclude] at hend

/-- What a run gives is a way out of it. -/
theorem exits_of_run (h : run x options consoles w check c s = some (s', answer)) :
    Exits x options consoles w check c s s' answer := by
  unfold run at h
  split at h
  · rename_i s₁ f hcheck
    obtain ⟨rfl, rfl⟩ := Prod.mk.inj (Option.some.inj h)
    exact .refused hcheck
  · rename_i s₁ hcheck
    split at h
    · rename_i s₂ f hopen
      obtain ⟨rfl, rfl⟩ := Prod.mk.inj (Option.some.inj h)
      exact .unopened hcheck hopen
    · rename_i s₂ files hopen
      obtain ⟨⟨s₃, answer'⟩, hexec, hfinish⟩ := Option.map_eq_some_iff.mp h
      obtain ⟨rfl, rfl⟩ := Prod.mk.inj hfinish
      exact .executed hcheck hopen (executing_of_execute hexec)

/-! ### Files at the ways out -/

theorem holds_spawn (x : Executor) (w : Surroundings) (c : Command) (s : Session) :
    s.Holds (spawn x w c s).1 := by
  have hspawning : s.Holds (s.emit (.spawning c.argv x.plan.grouped)) :=
    Session.holds_of_append [.spawning c.argv x.plan.grouped] rfl rfl
      (by simp [Effect.SparesFiles, Effect.opened?, Effect.closed?])
  have hcancel := hspawning.trans (Session.stirs_cancelIf _ w.whileSpawning).holds
  unfold spawn
  simp only
  split
  · exact hcancel
  · exact hcancel.trans (Session.holds_of_eq rfl rfl)
  · exact hcancel

theorem holds_relay (child : Child) (s : Session) :
    s.Holds (relay x options consoles w c files child s).session := by
  let unheard : Relay :=
    { plan := { x.plan with name := c.name }
      child
      trees :=
        ⟨tree options files.stdout consoles.stdout, tree options files.stderr consoles.stderr⟩
      session := s
      waitAlarms := w.waitAlarms }
  exact (Relay.stirs_listen unheard).session.holds

theorem Executing.holds (h : Executing x options consoles w c files s s') : s.Holds s' := by
  induction h with
  | opened => exact .refl s
  | noted _ level text ih => exact ih.trans (Session.holds_of_eq rfl rfl)
  | shown _ text ih => exact ih.trans (Session.holds_of_eq (Outlets.handles_display ..) rfl)
  | spawned _ ih => exact ih.trans (holds_spawn x w c _)
  | @relaying s₁ s₂ child r os _ hspawn hpursue ih =>
      have hspawned := holds_spawn x w c s₁
      rw [hspawn] at hspawned
      exact ((ih.trans hspawned).trans (holds_relay child s₂)).trans
        (Relay.holds_of_pursue hpursue)

/-- Files that are owned are closed on the way out, and the errors of that are in the result. -/
theorem finish_closedOnce {paths : List Text} (h : Redirects.Owns c files paths s s')
    (hholds : s'.Holds s'') :
    Redirects.ClosedOnce c paths s (finish w files s'' answer).1 ∧
      ∀ result, (finish w files s'' answer).2 = .ok result →
        Redirects.AreCloseErrors paths result.closeErrors := by
  obtain ⟨s₃, errors, hclose, hclosed, herrors⟩ := h.close hholds w.fileFaults
  unfold finish
  rw [hclose]
  refine ⟨hclosed, fun result hresult => ?_⟩
  cases answer with
  | error f => cases hresult
  | ok a =>
      obtain rfl := Except.ok.inj hresult
      exact herrors

/-- Whatever way a run is left, its files have been closed once each, except that its first file is
left open if the system is never asked about the second. -/
theorem Exits.closedOnce_or_left (h : Exits x options consoles w check c s s' answer) :
    (∃ paths, Redirects.ClosedOnce c paths (consult w check c s).1 s' ∧
      ∀ result, answer = .ok result → Redirects.AreCloseErrors paths result.closeErrors) ∨
    ∃ fault, c.stdoutTarget ≠ [] ∧ c.stderrTarget ≠ c.stdoutTarget ∧
      Path.fault? c.stderrTarget = some fault ∧ answer = .error (.access fault) ∧
      Redirects.HasOpened [c.stdoutTarget] (consult w check c s).1 s' := by
  cases h with
  | refused hcheck =>
      rw [hcheck]
      exact .inl ⟨[], Redirects.closedOnce_nil (Redirects.hasOpened_nil rfl rfl), nofun⟩
  | @unopened s₁ _ f hcheck hopen =>
      have hopening := Redirects.openTargets_opening options.redirect w.fileFaults c s₁
      rw [hopen] at hopening
      rw [hcheck]
      cases hopening with
      | closed hclosed => exact .inl ⟨_, hclosed, nofun⟩
      | left hout hother hfault hopened =>
          exact .inr ⟨_, hout, hother, hfault, rfl, hopened⟩
  | @executed s₁ _ _ _ _ hcheck hopen hexec =>
      have hopening := Redirects.openTargets_opening options.redirect w.fileFaults c s₁
      rw [hopen] at hopening
      rw [hcheck]
      cases hopening with
      | opened howns => exact .inl ⟨_, finish_closedOnce howns hexec.holds⟩

/-- Whatever way a run is left, every file that it has opened has been closed once, whether closing
fails or not, and the result has at most one error for each; two channels with one target share
one file. This takes a second file that the system can be asked about. -/
theorem files_closed_once (x : Executor) (options : RunOptions) (consoles : Consoles)
    (w : Surroundings) (check : Check) (c : Command) (s : Session) :
    (∀ s' answer, run x options consoles w check c s = some (s', answer) →
      Exits x options consoles w check c s s' answer) ∧
    ∀ s' answer, Exits x options consoles w check c s s' answer →
      (c.stdoutTarget ≠ [] → c.stderrTarget ≠ c.stdoutTarget →
        Path.fault? c.stderrTarget = none) →
      ∃ paths, Redirects.ClosedOnce c paths (consult w check c s).1 s' ∧
        ∀ result, answer = .ok result → Redirects.AreCloseErrors paths result.closeErrors := by
  refine ⟨fun s' answer h => exits_of_run h, fun s' answer h hsecond => ?_⟩
  rcases h.closedOnce_or_left with hclosed | ⟨fault, hout, hother, hfault, -, -⟩
  · exact hclosed
  · rw [hsecond hout hother] at hfault
    cases hfault

/-- A command with a file for each channel. -/
def accounts : Command where
  name := "make"
  stdoutTarget := "a"
  stderrTarget := "b"
  name_ne := by decide

/-- A child that does nothing, and a file that cannot be closed properly. -/
def reluctant : Surroundings where
  launch _ _ := .ok { moves := [.close .stdout .quiet, .close .stderr .quiet] }
  fileFaults := { closing := [("a", .coded 5 "Input/output error" none)] }

/-- Closing the first file fails, and the second is closed all the same. -/
theorem files_closed_once_reluctant :
    ∃ s' result,
      run {} { redirect := true } ⟨0, 0, 0⟩ reluctant (fun s _ => (s, .ok ())) accounts {} =
        some (s', .ok result) ∧
      s'.effects = [.consulted "make", .opened "a", .opened "b",
        .spawning [Text.ofString "make"] true, .reaped, .closed "a", .closed "b"] ∧
      result.closeErrors = [Text.ofString "a : [Errno 5] Input/output error"] ∧
      ∃ paths, Redirects.ClosedOnce accounts paths
          (consult reluctant (fun s _ => (s, .ok ())) accounts {}).1 s' ∧
        Redirects.AreCloseErrors paths result.closeErrors := by
  have hrun : ((run {} { redirect := true } ⟨0, 0, 0⟩ reluctant (fun s _ => (s, .ok ()))
      accounts {}).any fun given =>
        given.1.effects = [.consulted "make", .opened "a", .opened "b",
            .spawning [Text.ofString "make"] true, .reaped, .closed "a", .closed "b"] &&
          given.2.toOption.map RunResult.closeErrors =
            some [Text.ofString "a : [Errno 5] Input/output error"]) = true := by
    decide +kernel
  obtain ⟨⟨s', answer⟩, hrun, hend⟩ := (Option.any_eq_true _ _).mp hrun
  simp only [Bool.and_eq_true, decide_eq_true_eq] at hend
  obtain ⟨heffects, hanswer⟩ := hend
  cases answer with
  | error f => cases hanswer
  | ok result =>
      obtain ⟨hexits, hclosed⟩ := files_closed_once {} { redirect := true } ⟨0, 0, 0⟩ reluctant
        (fun s _ => (s, .ok ())) accounts {}
      obtain ⟨paths, honce, herrors⟩ := hclosed s' _ (hexits s' _ hrun) fun _ _ => by decide
      exact ⟨s', result, hrun, heffects, Option.some.inj hanswer, paths, honce,
        herrors result rfl⟩

/-- A second target that the system is never asked about ends the run with the first file open. -/
theorem run_of_fault (x : Executor) (options : RunOptions) (consoles : Consoles)
    (w : Surroundings) (check : Check) (s : Session) {s₁ s₂ : Session} {i : Nat}
    {fault : AccessFault}
    (hcheck : consult w check c s = (s₁, .ok ())) (hredirect : options.redirect = true)
    (hout : c.stdoutTarget ≠ []) (herr : c.stderrTarget ≠ [])
    (hother : c.stderrTarget ≠ c.stdoutTarget) (hfault : Path.fault? c.stderrTarget = some fault)
    (hopen : Redirects.openTarget w.fileFaults c.stdoutTarget s₁ = (s₂, .ok i)) :
    run x options consoles w check c s = some (s₂, .error (.access fault)) ∧
      Redirects.HasOpened [c.stdoutTarget] s₁ s₂ := by
  constructor
  · have htargets : Redirects.openTargets options.redirect w.fileFaults c s₁ =
        (s₂, .error (.access fault)) := by
      simp [Redirects.openTargets, Redirects.openSecond, hredirect, hout, herr, hother, hopen,
        Redirects.openTarget_of_fault hfault]
    unfold consult at hcheck
    unfold run
    rw [hcheck]
    simp only
    rw [htargets]
  · rcases Redirects.openTarget_cases c.stdoutTarget s₁ with
      ⟨s', h, hopened⟩ | ⟨s', e, h, -⟩ | ⟨fault', -, h⟩ <;> rw [hopen] at h
    · obtain ⟨rfl, -⟩ := Prod.mk.inj h
      exact hopened
    · cases (Prod.mk.inj h).2
    · cases (Prod.mk.inj h).2

/-- A command whose second target holds a NUL. -/
def cutShort : Command where
  name := "prog"
  stdoutTarget := "a"
  stderrTarget := "b\x00"
  name_ne := by decide

/-- The second file is refused before the system is asked about it, and the first, which is open by
then, is not closed on any way out. -/
theorem first_file_left_open :
    ∃ s',
      run {} { redirect := true } ⟨0, 0, 0⟩ reluctant (fun s _ => (s, .ok ())) cutShort {} =
        some (s', .error (.access .embeddedNul)) ∧
      s'.effects = [.consulted "prog", .opened "a"] ∧
      s'.outlets.handles = [some (Text.ofString "a", false)] ∧
      ¬ ∃ paths, Redirects.ClosedOnce cutShort paths
        (consult reluctant (fun s _ => (s, .ok ())) cutShort {}).1 s' := by
  have hfault : Path.fault? cutShort.stderrTarget = some .embeddedNul := by decide
  obtain ⟨hrun, hopened⟩ := run_of_fault {} { redirect := true } ⟨0, 0, 0⟩ reluctant
    (fun s _ => (s, .ok ())) {} rfl rfl (by decide) (by decide) (by decide) hfault rfl
  refine ⟨_, hrun, hopened.effects, hopened.handles, ?_⟩
  rintro ⟨paths, hclosed⟩
  have hhandles := List.append_cancel_left (hclosed.handles.symm.trans hopened.handles)
  cases paths with
  | nil => cases hhandles
  | cons path rest => simp at hhandles

end Run

end CommandRelay
