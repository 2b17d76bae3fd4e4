import CommandRelay.Program.Launch
import CommandRelay.Proofs.Execution.Closing
import CommandRelay.Proofs.Execution.Outcome
import CommandRelay.Proofs.Execution.Unopened

/-!
# What obstructs a run

Once its command is let pass, a run can be obstructed in four places: a target cannot be opened, the
child cannot be started, a sink refuses output, or a notice cannot be shown. `Run.Obstructed` says
by what fault, and `Run.Answers` how a run answers: an error of the system becomes a failure that
belongs to the place, but for notices, which are shown without looking. Any other fault goes through
as it is, so the failures of a run are all failures of commands exactly if there is no such fault
and all notices are shown (`Run.errors_closed`).
-/

namespace CommandRelay

/-- A program is refused by another fault than one of the system only if an argument cannot be given
to it. -/
theorem Program.exists_system_iff_of_launch {base : Text} {d : Disk} {argv : List Text}
    {fault : AccessFault} (h : launch base d argv = .error fault) :
    (∃ e, fault = .system e) ↔ ∀ argument ∈ argv, Path.fault? argument = none := by
  have hsystem {answer : Except SystemError Child}
      (h : answer.mapError .system = .error fault) : ∃ e, fault = .system e := by
    cases answer with
    | error e => exact ⟨e, (Except.error.inj h).symm⟩
    | ok => cases h
  unfold launch at h
  split at h
  · rename_i fault' hfirst
    obtain rfl := Except.error.inj h
    obtain ⟨argument, hmem, hfault⟩ := List.exists_of_findSome?_eq_some hfirst
    constructor
    · rintro ⟨e, rfl⟩
      exact absurd hfault (Redirects.fault?_ne_system argument e)
    · intro hnone
      cases (hnone argument hmem).symm.trans hfault
  · rename_i hnone
    exact ⟨fun _ => List.findSome?_eq_none_iff.mp hnone, fun _ => hsystem h⟩

namespace Run

/-- Where a run can be obstructed. -/
inductive Obstacle where
  | target (path : Text)
  | launch
  | sink
  | notice
  deriving DecidableEq, Repr

/-- The failure of a run that an error of the system obstructs. What a console raises to a notice
stays what it is. -/
def Obstacle.failure (c : Command) : Obstacle → SystemError → Failure
  | .target path, e => .unopened path e
  | .launch, e => .execution (.notStarted c.name e) (some c)
  | .sink, e => .streamWrite (.outputLost c.name e) (some c)
  | .notice, e => .access (.system e)

/-- The faults that come to a failure of a command: errors of the system, but where a notice is
shown only those that are such a failure by themselves. -/
def Obstacle.Covers : Obstacle → AccessFault → Prop
  | .notice, fault => fault.kind.isA .command = true
  | _, fault => ∃ e, fault = .system e

/-- A run is obstructed somewhere by a fault, after its check has left a session: opening the
targets fails if that is allowed, the notice of the start cannot be shown, the launch fails if there
is one, and in what there was to see of the run sinks refuse output or the last notice is not shown.
-/
inductive Obstructed (x : Executor) (options : RunOptions) (consoles : Consoles)
    (w : Surroundings) (c : Command) (s : Session) (ev : Evidence) :
    Obstacle → AccessFault → Prop
  | target {path fault d} (hredirect : options.redirect = true)
      (h : c.OpeningFails s.outlets.disk path fault d) :
      Obstructed x options consoles w c s ev (.target path) fault
  | start {s' files fault}
      (hopen : Redirects.openTargets options.redirect w.fileFaults c s = (s', .ok files))
      (h : unshown? x consoles .start c s' = some fault) :
      Obstructed x options consoles w c s ev .notice fault
  | launch {s' files fault}
      (hopen : Redirects.openTargets options.redirect w.fileFaults c s = (s', .ok files))
      (hshown : unshown? x consoles .start c s' = none) (hgo : s'.isCancelled = false)
      (h : w.launch s'.outlets.disk c.argv = .error fault) :
      Obstructed x options consoles w c s ev .launch fault
  | sink {fault} (h : fault ∈ ev.refusals) :
      Obstructed x options consoles w c s ev .sink fault
  | closing {fault} (h : ev.unshown = some fault) :
      Obstructed x options consoles w c s ev .notice fault

/-- What can obstruct a run before its relay, once all targets are open: the notice of the start or
the launch. -/
inductive ObstructedEarly (x : Executor) (consoles : Consoles) (w : Surroundings) (c : Command)
    (s : Session) : Obstacle → AccessFault → Prop
  | start {fault} (h : unshown? x consoles .start c s = some fault) :
      ObstructedEarly x consoles w c s .notice fault
  | launch {fault} (hshown : unshown? x consoles .start c s = none)
      (hgo : s.isCancelled = false) (h : w.launch s.outlets.disk c.argv = .error fault) :
      ObstructedEarly x consoles w c s .launch fault

/-- What can obstruct a run after that: a sink, or its last notice. -/
inductive ObstructedLate (ev : Evidence) : Obstacle → AccessFault → Prop
  | sink {fault} (h : fault ∈ ev.refusals) : ObstructedLate ev .sink fault
  | closing {fault} (h : ev.unshown = some fault) : ObstructedLate ev .notice fault

/-- An answer to what obstructs a run: it is raised, except that lost output counts for nothing in
a run that is cancelled after that, even if the notice of that cannot be shown. Nothing else is
raised but the death of the child. -/
structure Answers (c : Command) (obstructed : Obstacle → AccessFault → Prop)
    (answer : Except Failure RunResult) : Prop where
  raised : ∀ o fault, obstructed o fault →
    answer = .error (fault.raised (o.failure c)) ∨
      o = .sink ∧ (∃ e, fault = .system e) ∧
        ((∃ res, answer = .ok res ∧ res.cancelled = true) ∨
          ∃ fault', obstructed .notice fault' ∧ answer = .error (.access fault'))
  failed : ∀ f, answer = .error f →
    (∃ o fault, obstructed o fault ∧ f = fault.raised (o.failure c)) ∨
      ∃ signal, f = .execution (.signalled c.name signal) (some c)

/-- What a run comes to once its targets are open, by whether its start can be announced and what
the launch of its child gives. -/
inductive Launches (x : Executor) (consoles : Consoles) (w : Surroundings) (c : Command)
    (s : Session) : Beginning → Prop
  | unannounced {s' fault} (h : unshown? x consoles .start c s = some fault) :
      Launches x consoles w c s (.ended s' (.error (.access fault)))
  | cancelled {s' res} (hshown : unshown? x consoles .start c s = none)
      (h : s.isCancelled = true) (hres : res.cancelled = true) :
      Launches x consoles w c s (.ended s' (.ok res))
  | failed {s' fault} (hshown : unshown? x consoles .start c s = none)
      (hgo : s.isCancelled = false) (h : w.launch s.outlets.disk c.argv = .error fault) :
      Launches x consoles w c s (.ended s' (.error (fault.raised (Obstacle.launch.failure c))))
  | succeeded {child files r} (hshown : unshown? x consoles .start c s = none)
      (hgo : s.isCancelled = false) (h : w.launch s.outlets.disk c.argv = .ok child) :
      Launches x consoles w c s (.relaying files r)

/-! ## Failures of commands -/

theorem isA_command_failure (c : Command) {o : Obstacle} (ho : o ≠ .notice) (e : SystemError) :
    (o.failure c e).kind.isA .command = true := by
  cases o with
  | notice => exact absurd rfl ho
  | target | launch | sink =>
      simp [Obstacle.failure, Failure.unopened, Failure.kind, ErrorKind.isA, ErrorKind.lineage,
        ErrorKind.parent?]

/-- A fault that is raised to a notice goes through. -/
theorem raised_notice (c : Command) (fault : AccessFault) :
    fault.raised (Obstacle.notice.failure c) = .access fault := by
  cases fault <;> rfl

/-- What is raised is a failure of a command exactly if the fault is covered where it comes from. -/
theorem isA_command_raised (c : Command) (o : Obstacle) (fault : AccessFault) :
    (fault.raised (o.failure c)).kind.isA .command = true ↔ o.Covers fault := by
  have hsystem (ho : o ≠ .notice) :
      (fault.raised (o.failure c)).kind.isA .command = true ↔ ∃ e, fault = .system e := by
    constructor
    · intro h
      cases fault with
      | system e => exact ⟨e, rfl⟩
      | unencodable | invalid | endless | unsupported =>
          simp [AccessFault.raised, Failure.kind, AccessFault.kind, ErrorKind.isA,
            ErrorKind.lineage, ErrorKind.parent?] at h
    · rintro ⟨e, rfl⟩
      exact isA_command_failure c ho e
  cases o with
  | notice =>
      rw [raised_notice]
      exact Iff.rfl
  | target path => exact hsystem (by simp)
  | launch => exact hsystem (by simp)
  | sink => exact hsystem (by simp)

theorem isA_command_signalled (name : Text) (signal : String) (cmd : Option Command) :
    (Failure.execution (.signalled name signal) cmd).kind.isA .command = true := by
  simp [Failure.kind, ErrorKind.isA, ErrorKind.lineage, ErrorKind.parent?]

variable {x : Executor} {options : RunOptions} {consoles : Consoles} {w : Surroundings}
  {check : Check} {c : Command} {s s' s₁ s₂ : Session} {files : Redirects} {ev : Evidence}
  {o : Obstacle} {fault : AccessFault} {obstructed : Obstacle → AccessFault → Prop}
  {answer : Except Failure RunResult}

theorem Answers.isA_command_iff (h : Answers c obstructed answer) :
    (∀ f, answer = .error f → f.kind.isA .command = true) ↔
      ∀ o fault, obstructed o fault → o.Covers fault := by
  constructor
  · intro hclosed o fault hfault
    rcases h.raised o fault hfault with hanswer | ⟨rfl, hsystem, -⟩
    · exact (isA_command_raised c o fault).mp (hclosed _ hanswer)
    · exact hsystem
  · intro hcovers f hf
    rcases h.failed f hf with ⟨o, fault, hfault, rfl⟩ | ⟨signal, rfl⟩
    · exact (isA_command_raised c o fault).mpr (hcovers o fault hfault)
    · exact isA_command_signalled ..

/-- To raise what obstructs a run is an answer if whatever else obstructs it comes to the same. -/
theorem answers_of_raised (h : obstructed o fault)
    (hsame : ∀ o' fault', obstructed o' fault' →
      fault'.raised (o'.failure c) = fault.raised (o.failure c)) :
    Answers c obstructed (.error (fault.raised (o.failure c))) where
  raised o' fault' h' := .inl (by rw [hsame o' fault' h'])
  failed _ hf := .inl ⟨o, fault, h, (Except.error.inj hf).symm⟩

/-- A run that nothing obstructs raises nothing but the death of its child. -/
theorem answers_of_not_obstructed (h : ∀ o fault, ¬ obstructed o fault)
    (hanswer : ∀ f, answer = .error f →
      ∃ signal, f = .execution (.signalled c.name signal) (some c)) :
    Answers c obstructed answer where
  raised o fault hfault := absurd hfault (h o fault)
  failed f hf := .inr (hanswer f hf)

/-- The errors of closing files change nothing about how a run answers. -/
theorem Answers.finish (h : Answers c obstructed answer) (files : Redirects) (s : Session) :
    Answers c obstructed (finish w files s answer).2 := by
  cases answer with
  | error f => exact h
  | ok res =>
      constructor
      · intro o fault hfault
        rcases h.raised o fault hfault with hanswer | ⟨hsink, hsystem, hlost⟩
        · cases hanswer
        · rcases hlost with ⟨_, ⟨⟩, hcancelled⟩ | ⟨_, -, hunshown⟩
          · exact .inr ⟨hsink, hsystem, .inl ⟨_, rfl, hcancelled⟩⟩
          · cases hunshown
      · intro f hf
        cases hf

/-! ## The launch -/

theorem disk_spawning (x : Executor) (w : Surroundings) (c : Command) (s : Session) :
    ((s.emit (.spawning c.argv x.plan.grouped)).cancelIf w.whileSpawning).outlets.disk =
      s.outlets.disk :=
  congrArg Outlets.disk (Session.stirs_cancelIf _ w.whileSpawning).outlets

theorem launch_of_spawn_ok {child : Child} (h : spawn x w c s = (s', .ok child)) :
    w.launch s.outlets.disk c.argv = .ok child := by
  unfold spawn at h
  simp only [disk_spawning] at h
  split at h
  · rename_i hlaunch
    obtain rfl := Except.ok.inj (Prod.mk.inj h).2
    exact hlaunch
  · cases (Prod.mk.inj h).2
  · cases (Prod.mk.inj h).2

theorem launch_of_spawn_error {f : Failure} (h : spawn x w c s = (s', .error f)) :
    ∃ fault, w.launch s.outlets.disk c.argv = .error fault ∧
      f = fault.raised (Obstacle.launch.failure c) := by
  unfold spawn at h
  simp only [disk_spawning] at h
  split at h
  · cases (Prod.mk.inj h).2
  · rename_i e hlaunch
    exact ⟨.system e, hlaunch, (Except.error.inj (Prod.mk.inj h).2).symm⟩
  · rename_i fault hsystem hlaunch
    obtain rfl := Except.error.inj (Prod.mk.inj h).2
    exact ⟨fault, hlaunch, (AccessFault.raised_eq_access hsystem).symm⟩

theorem launches_of_opened (x : Executor) (options : RunOptions) (consoles : Consoles)
    (w : Surroundings) (c : Command) (files : Redirects) (s : Session) :
    Launches x consoles w c s (beginOpened x options consoles w c files s) := by
  have hcancelled : (started x consoles c s).isCancelled = s.isCancelled :=
    congrArg Cancellation.fired (cancellation_announce ..)
  have hdisk : (started x consoles c s).outlets.disk = s.outlets.disk := disk_announce ..
  have hbegins := beginsOpened x options consoles w c files s
  generalize beginOpened x options consoles w c files s = begun at hbegins ⊢
  cases hbegins with
  | unannounced h => exact .unannounced h
  | cancelled hshown hs h =>
      subst hs
      exact .cancelled hshown (hcancelled.symm.trans h) rfl
  | unlaunched hshown hgo h =>
      obtain ⟨fault, hfault, rfl⟩ := launch_of_spawn_error h
      exact .failed hshown (hcancelled.symm.trans hgo) (hdisk ▸ hfault)
  | launched hshown hgo h =>
      exact .succeeded hshown (hcancelled.symm.trans hgo) (hdisk ▸ launch_of_spawn_ok h)

/-! ## Answers -/

/-- Once all targets are open, what obstructs a run does so before its relay or after that. -/
theorem Obstructed.of_opened (h : Obstructed x options consoles w c s₁ ev o fault)
    (hopen : Redirects.openTargets options.redirect w.fileFaults c s₁ = (s₂, .ok files)) :
    ObstructedEarly x consoles w c s₂ o fault ∨ ObstructedLate ev o fault := by
  cases h with
  | target hredirect h =>
      obtain ⟨s', hfails, -⟩ := Redirects.openTargets_of_openingFails w.fileFaults h
      rw [hredirect, hfails] at hopen
      cases (Prod.mk.inj hopen).2
  | start hopen' h =>
      obtain ⟨rfl, -⟩ := Prod.mk.inj (hopen'.symm.trans hopen)
      exact .inl (.start h)
  | launch hopen' hshown hgo h =>
      obtain ⟨rfl, -⟩ := Prod.mk.inj (hopen'.symm.trans hopen)
      exact .inl (.launch hshown hgo h)
  | sink h => exact .inr (.sink h)
  | closing h => exact .inr (.closing h)

/-- Of a run of which there was nothing to see, nothing late was obstructed. -/
theorem not_obstructedLate_nothing : ¬ ObstructedLate {} o fault := by
  rintro (⟨⟨⟩⟩ | ⟨⟨⟩⟩)

theorem ObstructedLate.toObstructed (h : ObstructedLate ev o fault) :
    Obstructed x options consoles w c s₁ ev o fault := by
  cases h with
  | sink h => exact .sink h
  | closing h => exact .closing h

/-- A run whose targets cannot be opened answers to that. -/
theorem answers_of_unopened {f : Failure}
    (hopen : Redirects.openTargets options.redirect w.fileFaults c s₁ = (s₂, .error f)) :
    Answers c (Obstructed x options consoles w c s₁ {}) (.error f) := by
  obtain ⟨hredirect, path, fault, hfails, rfl⟩ := Redirects.openingFails_of_openTargets hopen
  have htarget : Obstructed x options consoles w c s₁ {} (.target path) fault :=
    .target hredirect hfails
  refine answers_of_raised htarget fun o' fault' hfault' => ?_
  cases hfault' with
  | target _ hfails' =>
      obtain ⟨s', hopen', -⟩ := Redirects.openTargets_of_openingFails w.fileFaults hfails'
      rw [← hredirect, hopen] at hopen'
      exact (Except.error.inj (Prod.mk.inj hopen').2).symm
  | start hopen' | launch hopen' => cases (Prod.mk.inj (hopen.symm.trans hopen')).2
  | sink hmem => cases hmem
  | closing hsome => cases hsome

/-- A run that is over before there is a relay answers to its targets, to the notice of its start
and to its launch. -/
theorem answers_of_ended (hcheck : consult w check c s = (s₁, .ok ()))
    (h : begin x options consoles w check c s = .ended s' answer) :
    Answers c (Obstructed x options consoles w c s₁ {}) answer := by
  rcases hopen : Redirects.openTargets options.redirect w.fileFaults c s₁ with ⟨s₂, f | files⟩
  · obtain ⟨-, rfl⟩ := Beginning.ended.inj ((begin_of_unopened hcheck hopen).symm.trans h)
    exact answers_of_unopened hopen
  · have honly {o : Obstacle} {fault : AccessFault}
        (hfault : Obstructed x options consoles w c s₁ {} o fault) :
        ObstructedEarly x consoles w c s₂ o fault :=
      (hfault.of_opened hopen).resolve_right not_obstructedLate_nothing
    have hlaunches := launches_of_opened x options consoles w c files s₂
    rw [← begin_of_opened hcheck hopen, h] at hlaunches
    cases hlaunches with
    | @unannounced _ fault hsome =>
        rw [← raised_notice c fault]
        refine answers_of_raised (.start hopen hsome) fun o' fault' hfault' => ?_
        cases honly hfault' with
        | start hsome' => rw [Option.some.inj (hsome'.symm.trans hsome)]
        | launch hnone => cases hnone.symm.trans hsome
    | cancelled hnone hcancelled =>
        refine answers_of_not_obstructed (fun o fault hfault => ?_) nofun
        cases honly hfault with
        | start hsome => cases hnone.symm.trans hsome
        | launch _ hgo => cases hgo.symm.trans hcancelled
    | failed hnone hgo hfault =>
        refine answers_of_raised (.launch hopen hnone hgo hfault) fun o' fault' hfault' => ?_
        cases honly hfault' with
        | start hsome => cases hnone.symm.trans hsome
        | launch _ _ hfault' => rw [Except.error.inj (hfault'.symm.trans hfault)]

/-- What there was to see of a run when its relay is done, as far as something obstructed it. -/
structure Concludes (x : Executor) (consoles : Consoles) (c : Command) (ev : Evidence)
    (r : Relay) : Prop where
  faulted : Relay.Faulted ev.refusals r
  unshown : ev.unshown = (closingNotice? r).bind (unshown? x consoles · c r.session)

section Concluding

variable {r : Relay}

/-- A fault of a sink that is raised is all that obstructs a relay which shows no notice. -/
theorem answers_of_refused (hfaults : ev.refusals = [fault]) (hshown : ev.unshown = none) :
    Answers c (ObstructedLate ev) (.error (fault.raised (Obstacle.sink.failure c))) := by
  refine answers_of_raised (.sink (hfaults ▸ List.mem_singleton_self _)) fun o' fault' h' => ?_
  cases h' with
  | sink hmem =>
      rw [hfaults] at hmem
      rw [List.mem_singleton.mp hmem]
  | closing hsome => cases hshown.symm.trans hsome

/-- Lost output counts for nothing in a relay that is stopped for the cancellation. -/
theorem answers_of_stopped {lost : Option SystemError}
    (hraised : ev.refusals = (lost.map AccessFault.system).toList)
    (hend : (∃ res, answer = .ok res ∧ res.cancelled = true) ∧ ev.unshown = none ∨
      ∃ fault, answer = .error (.access fault) ∧ ev.unshown = some fault) :
    Answers c (ObstructedLate ev) answer := by
  constructor
  · intro o fault hfault
    cases hfault with
    | sink hmem =>
        rw [hraised, Option.mem_toList, Option.map_eq_some_iff] at hmem
        obtain ⟨e, -, rfl⟩ := hmem
        refine .inr ⟨rfl, ⟨e, rfl⟩, ?_⟩
        exact hend.imp (·.1) fun ⟨fault', hanswer, hsome⟩ => ⟨fault', .closing hsome, hanswer⟩
    | closing hsome =>
        rcases hend with ⟨-, hnone⟩ | ⟨fault', hanswer, hsome'⟩
        · cases hnone.symm.trans hsome
        · obtain rfl := Option.some.inj (hsome'.symm.trans hsome)
          exact .inl (by rw [raised_notice, hanswer])
  · intro f hf
    rcases hend with ⟨⟨res, hok, -⟩, -⟩ | ⟨fault, hanswer, hsome⟩
    · cases hok.symm.trans hf
    · obtain rfl := Except.error.inj (hanswer.symm.trans hf)
      exact .inl ⟨.notice, fault, .closing hsome, (raised_notice c fault).symm⟩

/-- A relay that has lost nothing is obstructed by its last notice at most. -/
theorem answers_of_unrefused (hraised : ev.refusals = [])
    (hend : (∃ res, answer = .ok res) ∧ ev.unshown = none ∨
      ∃ fault, answer = .error (.access fault) ∧ ev.unshown = some fault) :
    Answers c (ObstructedLate ev) answer := by
  rcases hend with ⟨⟨res, rfl⟩, hnone⟩ | ⟨fault, rfl, hsome⟩
  · refine answers_of_not_obstructed (fun o fault hfault => ?_) nofun
    cases hfault with
    | sink hmem =>
        rw [hraised] at hmem
        cases hmem
    | closing hsome => cases hnone.symm.trans hsome
  · rw [← raised_notice c fault]
    refine answers_of_raised (.closing hsome) fun o' fault' hfault' => ?_
    cases hfault' with
    | sink hmem =>
        rw [hraised] at hmem
        cases hmem
    | closing hsome' => rw [Option.some.inj (hsome'.symm.trans hsome)]

/-- What a relay that is done amounts to answers to its sinks and its last notice. -/
theorem answers_conclude (h : Concludes x consoles c ev r) :
    Answers c (ObstructedLate ev) (conclude x consoles w c r).2 := by
  have hraised := h.faulted.raised
  have hunshown := h.unshown
  unfold conclude
  unfold closingNotice? at hunshown
  cases hb : r.broken with
  | some fault =>
      obtain ⟨hlost, hsystem, -⟩ := h.faulted.broken fault hb
      rw [hb, hlost] at hraised
      rw [hb] at hunshown
      have hanswer : Answers c (ObstructedLate ev) _ := answers_of_refused hraised hunshown
      rw [AccessFault.raised_eq_access hsystem] at hanswer
      exact hanswer
  | none =>
      rw [hb, Option.toList_none, List.append_nil] at hraised
      rw [hb] at hunshown
      simp only [Option.isSome_none, Bool.false_eq_true, if_false] at hunshown ⊢
      cases hs : r.stopped with
      | true =>
          rw [hs, if_pos rfl] at hunshown
          rw [if_pos rfl]
          refine answers_of_stopped hraised ?_
          split
          · rename_i s' fault hshown
            exact .inr ⟨fault, rfl, hunshown.trans (unshown?_of_error hshown)⟩
          · rename_i s' hshown
            exact .inl ⟨⟨_, rfl, rfl⟩, hunshown.trans (unshown?_of_ok hshown)⟩
      | false =>
          rw [hs, if_neg Bool.false_ne_true] at hunshown
          rw [if_neg Bool.false_ne_true]
          cases hlost : r.lost with
          | some e =>
              rw [hlost] at hraised
              rw [hlost, if_pos (.inl rfl)] at hunshown
              exact answers_of_refused hraised hunshown
          | none =>
              rw [hlost] at hraised
              simp only [hlost, Option.isSome_none, Bool.false_eq_true, false_or] at hunshown ⊢
              split
              · rename_i hneg
                rw [if_pos hneg] at hunshown
                refine answers_of_not_obstructed (fun o fault hfault => ?_) ?_
                · cases hfault with
                  | sink hmem =>
                      rw [hraised] at hmem
                      cases hmem
                  | closing hsome => cases hunshown.symm.trans hsome
                · rintro _ ⟨⟩
                  exact ⟨_, rfl⟩
              · rename_i hpos
                rw [if_neg hpos] at hunshown
                refine answers_of_unrefused hraised ?_
                split
                · rename_i s' fault hshown
                  exact .inr ⟨fault, rfl, hunshown.trans (unshown?_of_error hshown)⟩
                · rename_i s' hshown
                  exact .inl ⟨⟨_, rfl⟩, hunshown.trans (unshown?_of_ok hshown)⟩

end Concluding

/-- If more obstructs a run in name only, its answer answers to that too. -/
theorem Answers.congr {obstructed' : Obstacle → AccessFault → Prop}
    (h : Answers c obstructed answer)
    (hsame : ∀ o fault, obstructed' o fault ↔ obstructed o fault) :
    Answers c obstructed' answer := by
  have heq : obstructed' = obstructed := funext fun o => funext fun fault => propext (hsame o fault)
  rwa [heq]

/-- A run whose relay is done answers to its sinks and its last notice. -/
theorem answers_of_relayed {r r' : Relay} {turns : List Relay.Turn}
    (hcheck : consult w check c s = (s₁, .ok ()))
    (h : begin x options consoles w check c s = .relaying files r)
    (hf : r.follow turns = some r') (hev : ev.refusals = r.refusals turns)
    (hunshown : ev.unshown = (closingNotice? r').bind (unshown? x consoles · c r'.session)) :
    Answers c (Obstructed x options consoles w c s₁ ev)
      (complete x consoles w c files r').2 := by
  rcases hopen : Redirects.openTargets options.redirect w.fileFaults c s₁ with ⟨s₂, f | files₂⟩
  · cases (begin_of_unopened hcheck hopen).symm.trans h
  · have hlaunches := launches_of_opened x options consoles w c files₂ s₂
    rw [begin_of_opened hcheck hopen] at h
    rw [h] at hlaunches
    obtain ⟨_, -, -, -, hstart⟩ := relaying_of_beginOpened h
    obtain ⟨_, -, hcourse⟩ := hstart.follow hf
    have hfaulted := hcourse.faulted
    rw [List.nil_append, ← hev] at hfaulted
    have hanswers : Answers c (ObstructedLate ev) (conclude x consoles w c r').2 :=
      answers_conclude ⟨hfaulted, hunshown⟩
    refine (hanswers.congr fun o fault => ⟨fun hfault => ?_, (·.toObstructed)⟩).finish files _
    refine (hfault.of_opened hopen).resolve_left fun hearly => ?_
    cases hlaunches with
    | succeeded hnone _ hok =>
        cases hearly with
        | start hsome => cases hnone.symm.trans hsome
        | launch _ _ herror => cases hok.symm.trans herror

/-- In every schedule a run answers to what obstructs it. -/
theorem answers_of_ends (hcheck : consult w check c s = (s₁, .ok ()))
    (h : Ends x options consoles w check c s ev s' answer) :
    Answers c (Obstructed x options consoles w c s₁ ev) answer := by
  cases h with
  | early hbegin => exact answers_of_ended hcheck hbegin
  | relayed turns hbegin hf _ => exact answers_of_relayed hcheck hbegin hf rfl rfl

theorem ends_of_reached (h : Reached x options consoles w check c s s' (some answer)) :
    ∃ ev, Ends x options consoles w check c s ev s' answer := by
  cases h with
  | ended hbegin => exact ⟨_, .early hbegin⟩
  | done turns hbegin hf hfin => exact ⟨_, .relayed turns hbegin hf hfin⟩

/-- A run that is obstructed before there is anything to see of it is over at once. -/
theorem run_of_obstructed (hcheck : consult w check c s = (s₁, .ok ()))
    (h : Obstructed x options consoles w c s₁ {} o fault) :
    ∃ s', run x options consoles w check c s =
      some (s', .error (fault.raised (o.failure c))) := by
  rw [run_eq_begin]
  cases h with
  | target hredirect h =>
      obtain ⟨s', hfails, -⟩ := Redirects.openTargets_of_openingFails w.fileFaults h
      rw [← hredirect] at hfails
      exact ⟨s', by rw [begin_of_unopened hcheck hfails]; rfl⟩
  | @start s₂ files _ hopen h =>
      have hlaunches := launches_of_opened x options consoles w c files s₂
      rw [← begin_of_opened hcheck hopen] at hlaunches
      generalize begin x options consoles w check c s = begun at hlaunches ⊢
      cases hlaunches with
      | @unannounced s' _ h' =>
          obtain rfl := Option.some.inj (h'.symm.trans h)
          exact ⟨s', by rw [raised_notice]⟩
      | cancelled hnone | failed hnone | succeeded hnone => cases hnone.symm.trans h
  | @launch s₂ files _ hopen hshown hgo h =>
      have hlaunches := launches_of_opened x options consoles w c files s₂
      rw [← begin_of_opened hcheck hopen] at hlaunches
      generalize begin x options consoles w check c s = begun at hlaunches ⊢
      cases hlaunches with
      | unannounced hsome => cases hshown.symm.trans hsome
      | cancelled _ hcancelled => cases hgo.symm.trans hcancelled
      | @failed s' _ _ _ h' =>
          obtain rfl := Except.error.inj (h'.symm.trans h)
          exact ⟨s', rfl⟩
      | succeeded _ _ h' => cases h'.symm.trans h
  | sink hmem => cases hmem
  | closing hsome => cases hsome

/-- Once its command is let pass, a run raises what obstructs it, an error of the system as the
failure that belongs to the place, and nothing else but the death of its child. So in every schedule
it raises failures of commands only, exactly if every fault that obstructs it is an error of the
system, at a target, the launch or a sink; for a target that means a path which the system can be
given, and for programs that are known, arguments which can be given to them. -/
theorem errors_closed (x : Executor) (consoles : Consoles)
    (hcheck : consult w check c s = (s₁, .ok ())) :
    (∀ s' answer, run x options consoles w check c s = some (s', answer) →
      ∃ ev, Ends x options consoles w check c s ev s' answer) ∧
    (∀ o fault, Obstructed x options consoles w c s₁ {} o fault →
      ∃ s', run x options consoles w check c s =
        some (s', .error (fault.raised (o.failure c)))) ∧
    (∀ ev path fault, Obstructed x options consoles w c s₁ ev (.target path) fault →
      ((∃ e, fault = .system e) ↔ Path.fault? path = none)) ∧
    (∀ base ev fault, w.launch = Program.launch base →
      Obstructed x options consoles w c s₁ ev .launch fault →
      ((∃ e, fault = .system e) ↔ ∀ argument ∈ c.argv, Path.fault? argument = none)) ∧
    ∀ ev s' answer, Ends x options consoles w check c s ev s' answer →
      Answers c (Obstructed x options consoles w c s₁ ev) answer ∧
      ((∀ f, answer = .error f → f.kind.isA .command = true) ↔
        ∀ o fault, Obstructed x options consoles w c s₁ ev o fault → o.Covers fault) := by
  refine ⟨?_, ?_, ?_, ?_, ?_⟩
  · intro s' answer h
    exact ends_of_reached (reached_of_run x options consoles w h)
  · intro o fault h
    exact run_of_obstructed hcheck h
  · intro ev path fault h
    cases h with
    | target _ hfails => exact hfails.exists_system_iff
  · intro base ev fault hw h
    cases h with
    | launch _ _ _ h =>
        rw [hw] at h
        exact Program.exists_system_iff_of_launch h
  · intro ev s' answer h
    have hanswers := answers_of_ends hcheck h
    exact ⟨hanswers, hanswers.isA_command_iff⟩

/-- A command whose output goes to a directory. -/
def misdirected : Command where
  name := "date"
  stdoutTarget := "d"
  name_ne := by decide

/-- A disk with a directory. -/
def directoryOnly : Session where
  outlets := { disk := { nodes := [(["d"], .directory)] } }

/-- A child that writes one byte. -/
def remarking : Surroundings where
  launch _ _ :=
    .ok { moves := [.output .stdout [104], .close .stdout .quiet, .close .stderr .quiet] }

/-- The failure of a run whose target is a directory. -/
theorem errors_closed_misdirected :
    ∃ s', run {} { redirect := true } ⟨0, 0, 0⟩ remarking (fun s _ => (s, .ok ())) misdirected
      directoryOnly = some (s', .error (.redirect "d" "Is a directory")) := by
  have hopen : Writer.openFile directoryOnly.outlets.disk misdirected.stdoutTarget =
      .error (.system (.isDirectory "d")) := by
    rfl
  obtain ⟨-, hover, -⟩ := @errors_closed { redirect := true } remarking (fun s _ => (s, .ok ()))
    misdirected directoryOnly _ {} ⟨0, 0, 0⟩ rfl
  exact hover (.target "d") _ (.target rfl (.first (by decide) hopen))

/-- A command whose output goes to a path that holds a NUL. -/
def untargeted : Command where
  name := "uname"
  stdoutTarget := "a\x00"
  name_ne := by decide

/-- A command whose name holds a NUL. -/
def unnamed : Command where
  name := "date\x00"
  name_ne := by decide

/-- What starts programs that are known. -/
def launching : Surroundings where
  launch := Program.launch "/"

/-- A session with a console that has been closed. -/
def closedConsole : Session where
  outlets :=
    { sinks := [.console (.recorded
        { plan :=
            { failAt := some (1, .invalid "I/O operation on closed file.")
              noticeFailAt := some (1, .invalid "I/O operation on closed file.") } })] }

/-- The fault that goes through a run, if that is what it gives. -/
def letThrough? : Option (Session × Except Failure RunResult) → Option AccessFault
  | some (_, .error (.access fault)) => some fault
  | _ => none

/-- In each of the four places there is a fault that goes through and is no failure of a command. -/
theorem errors_not_closed :
    letThrough? (run {} { redirect := true } ⟨0, 0, 0⟩ remarking (fun s _ => (s, .ok ()))
        untargeted {}) = some (.invalid "embedded null byte") ∧
      letThrough? (run {} {} ⟨0, 0, 0⟩ launching (fun s _ => (s, .ok ())) unnamed {}) =
        some (.invalid "embedded null byte") ∧
      letThrough? (run {} { echo := true } ⟨0, 0, 0⟩ remarking (fun s _ => (s, .ok ()))
        listing closedConsole) = some (.invalid "I/O operation on closed file.") ∧
      letThrough? (run { style := some .plain } {} ⟨0, 0, 0⟩ remarking (fun s _ => (s, .ok ()))
        listing closedConsole) = some (.invalid "I/O operation on closed file.") ∧
      ∀ message, (Failure.access (.invalid message)).kind.isA .command = false := by
  refine ⟨by decide +kernel, by decide +kernel, by decide +kernel, by decide +kernel,
    fun message => ?_⟩
  simp [Failure.kind, AccessFault.kind, ErrorKind.isA, ErrorKind.lineage, ErrorKind.parent?]

end Run

end CommandRelay
