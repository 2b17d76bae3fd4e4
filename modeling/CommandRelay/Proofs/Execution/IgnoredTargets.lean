import CommandRelay.Proofs.Execution.Obstacles
import CommandRelay.Proofs.Relay.Footprint
import CommandRelay.Proofs.Relay.Likeness

/-!
# Targets that are ignored

If redirections are not allowed, the targets of a command are noted and then left alone. The run is
compared with that of the same command without its targets: along every schedule the two are in
step, their effects and what is on their sinks are the same, and so is what they give, apart from
the texts of notices, which name the targets (`Run.ignored_targets_inert`). No file is opened, made
or emptied on the way.

## Implementation notes

The two runs start their children on disks that are the same, so one function for what the world
launches stands for the world on both sides. What a check does is done before the targets matter:
sessions are compared from there on.
-/

namespace CommandRelay

/-! ## Ignored targets -/

/-- What is noted of targets that are ignored. -/
def Command.ignored (c : Command) : List Line :=
  if c.stdoutTarget = [] ∧ c.stderrTarget = [] then []
  else [⟨.warning, "Redirections ignorées (non autorisées) : stdout='" ++ c.stdoutTarget ++
    "' stderr='" ++ c.stderrTarget ++ "'"⟩]

/-- Targets that are not allowed are noted, and nothing is opened. -/
theorem Redirects.openTargets_ignored (faults : FileFaults) (c : Command)
    (s : Session) :
    openTargets false faults c s = ({ s with lines := s.lines ++ c.ignored }, .ok {}) := by
  unfold openTargets Command.ignored
  split
  · rw [List.append_nil]
  · rfl

theorem Command.ignored_withoutTargets (c : Command) : c.withoutTargets.ignored = [] :=
  if_pos ⟨rfl, rfl⟩

namespace Contrast

variable {k : Contrast} {s s' : Session}

/-! ## Answers -/

/-- Answers that agree: what is given is the same in a sense, or both are failures of one kind with
one message. -/
inductive Agree {α : Type} (same : α → α → Prop) : Except Failure α → Except Failure α → Prop
  | ok {a a'} (h : same a a') : Agree same (.ok a) (.ok a')
  | error {f f'} (hkind : f'.kind = f.kind) (hmessage : f'.message = f.message) :
      Agree same (.error f) (.error f')

/-- Results that differ in the command only. -/
structure Results (k : Contrast) (r r' : RunResult) : Prop where
  command : r.command = k.command
  rest : r' = { r with command := k.command.withoutTargets }

theorem Agree.withCloseErrors {a a' : Except Failure RunResult} (h : Agree k.Results a a')
    (closeErrors : List Text) :
    Agree k.Results (a.map fun r => { r with closeErrors })
      (a'.map fun r => { r with closeErrors }) := by
  cases h with
  | ok h =>
      obtain ⟨hcommand, rfl⟩ := h
      exact .ok ⟨hcommand, rfl⟩
  | error hkind hmessage => exact .error hkind hmessage

/-- What both sides come to: sessions that are alike, and answers that agree. -/
structure Outcomes {α : Type} (k : Contrast) (same : α → α → Prop)
    (p p' : Session × Except Failure α) : Prop where
  session : k.Sessions p.1 p'.1
  answer : Agree same p.2 p'.2

/-- What both runs give: results that differ in the command only, or failures that agree. -/
abbrev Ends (k : Contrast) : Session × Except Failure RunResult →
    Session × Except Failure RunResult → Prop :=
  k.Outcomes k.Results

/-- If no file is open, there is none to close. -/
theorem Ends.finish {p p' : Session × Except Failure RunResult} (w : Surroundings)
    (h : k.Ends p p') :
    k.Ends (Run.finish w {} p.1 p.2) (Run.finish w {} p'.1 p'.2) := by
  have hclose (s : Session) : Redirects.close w.fileFaults {} s = (s, []) :=
    Redirects.close_of_sinks_eq_nil rfl s
  unfold Run.finish
  rw [hclose, hclose]
  exact ⟨h.session, h.answer.withCloseErrors []⟩

/-! ## Runs -/

variable {options : RunOptions} {consoles : Consoles} {w : Surroundings}

/-- The child is started on both sides, or on neither. -/
theorem Sessions.spawn (hs : k.Sessions s s') (w : Surroundings) :
    k.Outcomes Eq (Run.spawn k.executor w k.command s)
      (Run.spawn k.executor w k.command.withoutTargets s') := by
  have hspawning := (hs.emit (.spawning k.command.argv k.executor.plan.grouped)).cancelIf
    w.whileSpawning
  have hargv : k.command.withoutTargets.argv = k.command.argv := rfl
  unfold Run.spawn
  simp only [hargv, hspawning.outlets.disk]
  split
  · exact ⟨hspawning, .ok rfl⟩
  · exact ⟨hspawning.note _ _, .error rfl rfl⟩
  · exact ⟨hspawning, .error rfl rfl⟩

theorem Sessions.relay (hs : k.Sessions s s') (child : Child) :
    k.Relays (Run.relay k.executor options consoles w k.command {} child s)
      (Run.relay k.executor options consoles w k.command.withoutTargets {} child s') :=
  Relays.listen ⟨s', rfl, hs⟩

/-- Runs that begin alike: both are over, or relays that are alike begin. -/
inductive Beginnings (k : Contrast) : Run.Beginning → Run.Beginning → Prop
  | ended {s s' a a'} (h : k.Ends (s, a) (s', a')) :
      Beginnings k (.ended s a) (.ended s' a')
  | relaying {r r'} (h : k.Relays r r') : Beginnings k (.relaying {} r) (.relaying {} r')

theorem Sessions.beginOpened (hs : k.Sessions s s') (hconsoles : consoles.notices = k.notices) :
    k.Beginnings (Run.beginOpened k.executor options consoles w k.command {} s)
      (Run.beginOpened k.executor options consoles w k.command.withoutTargets {} s') := by
  obtain ⟨s₁, s₁', answer, hstarted, hshown, hshown'⟩ := hs.exists_announced hconsoles .info .start
  unfold Run.beginOpened
  rw [hshown, hshown']
  rcases answer with fault | ⟨⟩
  · have hunshown : k.Ends (s₁, .error (.access fault)) (s₁', .error (.access fault)) :=
      ⟨hstarted, .error rfl rfl⟩
    exact .ended (hunshown.finish w)
  simp only [hstarted.isCancelled_eq, hstarted.cancellation]
  split
  · exact .ended (Ends.finish w ⟨hstarted.record .warning (.cancel s₁.cancellation.reason),
      .ok ⟨rfl, rfl⟩⟩)
  · have hspawn := hstarted.spawn w
    generalize Run.spawn k.executor w k.command _ = p at hspawn ⊢
    generalize Run.spawn k.executor w k.command.withoutTargets _ = p' at hspawn ⊢
    rcases p with ⟨s₂, answer⟩
    rcases p' with ⟨s₂', answer'⟩
    obtain ⟨hsession, hanswer⟩ := hspawn
    cases hanswer with
    | ok heq =>
        obtain rfl := heq
        exact .relaying (hsession.relay _)
    | error hkind hmessage =>
        have hfailed : k.Ends (s₂, .error _) (s₂', .error _) :=
          ⟨hsession, .error hkind hmessage⟩
        exact .ended (hfailed.finish w)

/-- What a relay amounts to is the same on both sides. -/
theorem Relays.conclude {r r' : Relay} (h : k.Relays r r')
    (hconsoles : consoles.notices = k.notices) :
    k.Ends (Run.conclude k.executor consoles w k.command r)
      (Run.conclude k.executor consoles w k.command.withoutTargets r') := by
  obtain ⟨s', rfl, hs⟩ := h
  unfold Run.conclude
  simp only [hs.cancellation]
  split
  · exact ⟨hs, .error rfl rfl⟩
  · split
    · obtain ⟨s₁, s₁', answer, hended, hshown, hshown'⟩ :=
        hs.exists_announced hconsoles .warning (.cancel r.session.cancellation.reason)
      rw [hshown, hshown']
      rcases answer with fault | ⟨⟩
      · exact ⟨hended, .error rfl rfl⟩
      · exact ⟨hended, .ok ⟨rfl, rfl⟩⟩
    · split
      · exact ⟨hs, .error rfl rfl⟩
      · split
        · exact ⟨hs.note _ _, .error rfl rfl⟩
        · obtain ⟨s₁, s₁', answer, hended, hshown, hshown'⟩ :=
            hs.exists_announced hconsoles _ (.exit (r.child.code?.getD 0))
          rw [hshown, hshown']
          rcases answer with fault | ⟨⟩
          · exact ⟨hended, .error rfl rfl⟩
          · exact ⟨hended.note _ _, .ok ⟨rfl, rfl⟩⟩

/-- What both sides come to at the end of their relays. -/
theorem Relays.complete {r r' : Relay} (h : k.Relays r r')
    (hconsoles : consoles.notices = k.notices) (w : Surroundings) :
    k.Ends (Run.complete k.executor consoles w k.command {} r)
      (Run.complete k.executor consoles w k.command.withoutTargets {} r') :=
  (h.conclude hconsoles).finish w

/-- Moments that are alike: of both runs there is an answer, or of neither. -/
structure Moments (k : Contrast) (m m' : Session × Option (Except Failure RunResult)) : Prop where
  session : k.Sessions m.1 m'.1
  answer : Option.Rel (Agree k.Results) m.2 m'.2

end Contrast

/-! ## Files -/

namespace Session

variable {edits : DiskEdit → Prop} {s s' s'' : Session}

/-- A session that has gone on without opening a file: what has changed on the disk are edits, and
bytes that were written to files that had been open before. -/
structure OpensNothing (edits : DiskEdit → Prop) (s s' : Session) : Prop where
  holds : s.Holds s'
  confined : s.outlets.Confined edits s'.outlets

namespace OpensNothing

theorem refl (s : Session) : s.OpensNothing edits s :=
  ⟨.refl s, .refl s.outlets⟩

theorem trans (h : s.OpensNothing edits s') (h' : s'.OpensNothing edits s'') :
    s.OpensNothing edits s'' :=
  ⟨h.holds.trans h'.holds, h.confined.trans h'.confined⟩

theorem of_holds (h : s.Holds s') (ho : s'.outlets = s.outlets) : s.OpensNothing edits s' :=
  ⟨h, by rw [ho]; exact .refl s.outlets⟩

theorem note (h : s.OpensNothing edits s') (level : Level) (text : Text) :
    s.OpensNothing edits (s'.note level text) :=
  h.trans (of_holds (holds_of_eq rfl rfl) rfl)

theorem announce (h : s.OpensNothing edits s') (x : Executor) (consoles : Consoles) (n : Notice)
    (c : Command) : s.OpensNothing edits (Run.announce x consoles n c s').1 := by
  refine h.trans ?_
  unfold Run.announce
  split
  · exact ⟨holds_of_eq (Outlets.handles_display ..) rfl, Outlets.confined_display ..⟩
  · exact .refl s'

theorem spawn (h : s.OpensNothing edits s') (x : Executor) (w : Surroundings) (c : Command) :
    s.OpensNothing edits (Run.spawn x w c s').1 := by
  refine h.trans (of_holds (Run.holds_spawn x w c s') ?_)
  have hspawning := (stirs_cancelIf (s'.emit (.spawning c.argv x.plan.grouped))
    w.whileSpawning).outlets
  unfold Run.spawn
  simp only
  split <;> exact hspawning

theorem conclude {r : Relay} (h : s.OpensNothing edits r.session) (x : Executor)
    (consoles : Consoles) (w : Surroundings) (c : Command) :
    s.OpensNothing edits (Run.conclude x consoles w c r).1 :=
  Run.conclude_induction x consoles w (p := s.OpensNothing edits)
    (fun _ level text hs => hs.note level text) (fun _ n hs => hs.announce x consoles n c) h

theorem follow {r r' : Relay} {turns : List Relay.Turn} (h : s.OpensNothing edits r.session)
    (hfollow : r.follow turns = some r') (hedits : r.Edits edits) :
    s.OpensNothing edits r'.session := by
  refine h.trans ⟨?_, (Relay.confined_follow hfollow hedits).outlets⟩
  rw [← Relay.pursue_map_turn] at hfollow
  exact Relay.holds_of_pursue hfollow

end OpensNothing

end Session

namespace Run

variable (x : Executor) (options : RunOptions) (consoles : Consoles) (w : Surroundings)

/-- An edit that the child makes which is launched for a command. -/
def LaunchedEdit (c : Command) (s : Session) (change : DiskEdit) : Prop :=
  ∃ child, w.launch s.outlets.disk c.argv = .ok child ∧ .edit change ∈ child.moves

variable {x options consoles w} {check : Check} {c : Command} {s s₁ s' : Session}

theorem finish_nothing (w : Surroundings) (s : Session) (answer : Except Failure RunResult) :
    (finish w {} s answer).1 = s := by
  unfold finish
  rw [Redirects.close_of_sinks_eq_nil rfl]

/-- How a run begins for which no file has been opened: whether it is over or not, none is open, and
its child has no other edits to make than those it is launched with. -/
inductive BeginsIdle (edits : DiskEdit → Prop) (s : Session) : Beginning → Prop
  | ended {s' answer} (h : s.OpensNothing edits s') : BeginsIdle edits s (.ended s' answer)
  | relaying {r} (h : s.OpensNothing edits r.session) (hedits : r.Edits edits) :
      BeginsIdle edits s (.relaying {} r)

theorem beginsIdle_opened (h : s.OpensNothing (LaunchedEdit w c s) s')
    (hdisk : s'.outlets.disk = s.outlets.disk) :
    BeginsIdle (LaunchedEdit w c s) s (beginOpened x options consoles w c {} s') := by
  have hstarted : s.OpensNothing (LaunchedEdit w c s) (started x consoles c s') :=
    (h.note _ _).announce ..
  have hbegins := beginsOpened x options consoles w c {} s'
  generalize beginOpened x options consoles w c {} s' = begun at hbegins ⊢
  cases hbegins with
  | unannounced =>
      refine .ended ?_
      rwa [finish_nothing]
  | cancelled _ hs =>
      subst hs
      refine .ended ?_
      rw [finish_nothing]
      exact hstarted.note _ _
  | unlaunched _ _ hspawn =>
      have hspawned := hstarted.spawn x w c
      rw [hspawn] at hspawned
      refine .ended ?_
      rwa [finish_nothing]
  | @launched s₁ child _ _ hspawn =>
      have hspawned := hstarted.spawn x w c
      rw [hspawn] at hspawned
      have hlaunch := launch_of_spawn_ok hspawn
      rw [started, disk_announce, record, Session.note, hdisk] at hlaunch
      have hlisten := Relay.stirs_listen
        { plan := { x.plan with name := c.name }
          child
          trees := ⟨tree options none consoles.stdout, tree options none consoles.stderr⟩
          session := s₁
          waitAlarms := w.waitAlarms }
      refine .relaying (hspawned.trans ?_) fun change hmem => ⟨child, hlaunch, ?_⟩
      · exact .of_holds hlisten.session.holds hlisten.session.outlets
      · unfold relay at hmem
        rwa [hlisten.rest] at hmem

theorem begin_of_ignored (hredirect : options.redirect = false)
    (hcheck : consult w check c s = (s₁, .ok ())) :
    begin x options consoles w check c s =
      beginOpened x options consoles w c {} { s₁ with lines := s₁.lines ++ c.ignored } := by
  refine begin_of_opened hcheck ?_
  rw [hredirect]
  exact Redirects.openTargets_ignored w.fileFaults c s₁

/-- If redirections are not allowed, a run begins without opening a file. -/
theorem beginsIdle (hredirect : options.redirect = false) :
    BeginsIdle (LaunchedEdit w c (consult w check c s).1) (consult w check c s).1
      (begin x options consoles w check c s) := by
  rcases hcheck : consult w check c s with ⟨s₁, f | ⟨⟩⟩
  · rw [begin_of_refused hcheck]
    exact .ended (.refl s₁)
  · rw [begin_of_ignored hredirect hcheck]
    exact beginsIdle_opened (.of_holds (Session.holds_of_eq rfl rfl) rfl) rfl

/-- No file is opened at any moment of it. -/
theorem opensNothing_of_reached {answer : Option (Except Failure RunResult)}
    (hredirect : options.redirect = false)
    (h : Reached x options consoles w check c s s' answer) :
    (consult w check c s).1.OpensNothing (LaunchedEdit w c (consult w check c s).1) s' := by
  have hbegins : BeginsIdle (LaunchedEdit w c (consult w check c s).1) (consult w check c s).1
      (begin x options consoles w check c s) := beginsIdle hredirect
  cases h with
  | ended hbegin =>
      rw [hbegin] at hbegins
      cases hbegins with
      | ended hidle => exact hidle
  | relaying turns hbegin hfollow =>
      rw [hbegin] at hbegins
      cases hbegins with
      | relaying hidle hedits => exact hidle.follow hfollow hedits
  | done turns hbegin hfollow =>
      rw [hbegin] at hbegins
      cases hbegins with
      | relaying hidle hedits =>
          unfold complete
          rw [finish_nothing]
          exact (hidle.follow hfollow hedits).conclude x consoles w c

/-! ## Two runs -/

/-- A run that is compared with the run of the same command without targets, from its check on. -/
def contrast (x : Executor) (consoles : Consoles) (w : Surroundings) (check : Check) (c : Command)
    (s : Session) : Contrast where
  executor := x
  notices := consoles.notices
  command := c
  lines := match consult w check c s with
    | (s₁, .ok ()) => s₁.lines ++ c.ignored
    | (s₁, .error _) => s₁.lines
  lines' := (consult w check c s).1.lines

theorem beginnings_alike (hredirect : options.redirect = false) :
    (contrast x consoles w check c s).Beginnings (begin x options consoles w check c s)
      (begin x options consoles w check c.withoutTargets s) := by
  have hconsult : consult w check c.withoutTargets s = consult w check c s := rfl
  rcases hcheck : consult w check c s with ⟨s₁, f | ⟨⟩⟩
  · rw [begin_of_refused hcheck, begin_of_refused (hconsult.trans hcheck)]
    refine .ended ⟨?_, .error rfl rfl⟩
    refine ⟨.refl _, rfl, rfl, rfl, [], [], ?_, ?_, .nil⟩ <;> simp [contrast, hcheck]
  · rw [begin_of_ignored hredirect hcheck, begin_of_ignored hredirect (hconsult.trans hcheck),
      Command.ignored_withoutTargets]
    refine Contrast.Sessions.beginOpened (k := contrast x consoles w check c s) ?_ rfl
    refine ⟨.refl _, rfl, rfl, rfl, [], [], ?_, ?_, .nil⟩ <;> simp [contrast, hcheck]

/-- The moment of a run that a schedule leads to: its session, with the answer once there is one. -/
def moment (x : Executor) (options : RunOptions) (consoles : Consoles) (w : Surroundings)
    (check : Check) (c : Command) (s : Session) (turns : List Relay.Turn) :
    Option (Session × Option (Except Failure RunResult)) :=
  match begin x options consoles w check c s with
  | .ended s answer => some (s, some answer)
  | .relaying files r => (r.follow turns).map fun r =>
    if r.isFinished then
      ((complete x consoles w c files r).1, some (complete x consoles w c files r).2)
    else (r.session, none)

/-- Along every schedule, the two runs come to moments that are alike. -/
theorem moments_alike (hredirect : options.redirect = false) (turns : List Relay.Turn) :
    Option.Rel (contrast x consoles w check c s).Moments
      (moment x options consoles w check c s turns)
      (moment x options consoles w check c.withoutTargets s turns) := by
  have hbegins : (contrast x consoles w check c s).Beginnings
      (begin x options consoles w check c s)
      (begin x options consoles w check c.withoutTargets s) := beginnings_alike hredirect
  unfold moment
  generalize begin x options consoles w check c s = b at hbegins ⊢
  generalize begin x options consoles w check c.withoutTargets s = b' at hbegins ⊢
  cases hbegins with
  | ended h => exact .some ⟨h.session, .some h.answer⟩
  | @relaying r r' h =>
      have hfollow := h.follow turns
      simp only
      generalize r.follow turns = a at hfollow ⊢
      generalize r'.follow turns = a' at hfollow ⊢
      cases hfollow with
      | none => exact .none
      | some hnext =>
          refine .some ?_
          simp only [hnext.isFinished_eq]
          split
          · have hcomplete := hnext.complete (show consoles.notices = _ from rfl) w
            exact ⟨hcomplete.session, .some hcomplete.answer⟩
          · obtain ⟨_, rfl, hs⟩ := hnext
            exact ⟨hs, .none⟩

/-- The two runs end alike, or neither of them ends. -/
theorem runs_alike (hredirect : options.redirect = false) :
    Option.Rel (contrast x consoles w check c s).Ends
      (run x options consoles w check c s)
      (run x options consoles w check c.withoutTargets s) := by
  have hbegins : (contrast x consoles w check c s).Beginnings
      (begin x options consoles w check c s)
      (begin x options consoles w check c.withoutTargets s) := beginnings_alike hredirect
  rw [run_eq_begin, run_eq_begin]
  generalize begin x options consoles w check c s = b at hbegins ⊢
  generalize begin x options consoles w check c.withoutTargets s = b' at hbegins ⊢
  cases hbegins with
  | ended h => exact .some h
  | @relaying r r' h =>
      have hsettle := h.settle
      simp only
      generalize r.settle = a at hsettle ⊢
      generalize r'.settle = a' at hsettle ⊢
      cases hsettle with
      | none => exact .none
      | some hend => exact .some (hend.complete rfl w)

/-- What two runs leave that end alike: the sinks are the same, up to the console of notices. -/
theorem sinks_eq_of_ends {answer answer' : Except Failure RunResult} {s'' : Session}
    (hredirect : options.redirect = false)
    (h : run x options consoles w check c s = some (s', answer))
    (h' : run x options consoles w check c.withoutTargets s = some (s'', answer')) :
    (∀ i ≠ consoles.notices, s''.outlets.sinks[i]? = s'.outlets.sinks[i]?) ∧
      (x.style = none → s''.outlets.sinks = s'.outlets.sinks) := by
  have hruns : Option.Rel (contrast x consoles w check c s).Ends
      (run x options consoles w check c s)
      (run x options consoles w check c.withoutTargets s) := runs_alike hredirect
  rw [h, h'] at hruns
  cases hruns with
  | some hends =>
      exact ⟨fun i hi => hends.session.outlets.getElem?_eq hi, hends.session.sinks_eq⟩

/-- If redirections are not allowed, the targets of a command make no difference. Along every
schedule, the run is in step with that of the command without targets, with the same effects and the
same sinks, and it ends like it, with the same result or with a failure of the same kind and
message, or does not end like it. What differs are the texts of notices, as they are noted and as
they are shown on the console of notices, and one more line is noted; the other consoles hold the
same bytes, and all do if notices are not shown. At no moment has a file been opened since the
check: the disk has changed only by edits of the child, and by what was written to files that had
been open before. -/
theorem ignored_targets_inert (x : Executor) {options : RunOptions} (consoles : Consoles)
    (w : Surroundings) (check : Check) (c : Command) (s : Session)
    (hredirect : options.redirect = false) :
    (∀ turns, Option.Rel (contrast x consoles w check c s).Moments
      (moment x options consoles w check c s turns)
      (moment x options consoles w check c.withoutTargets s turns)) ∧
    Option.Rel (contrast x consoles w check c s).Ends
      (run x options consoles w check c s)
      (run x options consoles w check c.withoutTargets s) ∧
    (∀ s' answer s'' answer', run x options consoles w check c s = some (s', answer) →
      run x options consoles w check c.withoutTargets s = some (s'', answer') →
      (∀ i ≠ consoles.notices, s''.outlets.sinks[i]? = s'.outlets.sinks[i]?) ∧
        (x.style = none → s''.outlets.sinks = s'.outlets.sinks)) ∧
    ∀ s' answer, Reached x options consoles w check c s s' answer →
      (consult w check c s).1.OpensNothing (LaunchedEdit w c (consult w check c s).1) s' :=
  ⟨moments_alike hredirect, runs_alike hredirect,
    fun _ _ _ _ h h' => sinks_eq_of_ends hredirect h h',
    fun _ _ h => opensNothing_of_reached hredirect h⟩

/-- A child that writes one line, and does not touch the disk. -/
def laconic : Surroundings where
  launch _ _ := .ok
    { moves := [.output .stdout [104, 10], .close .stdout .quiet, .close .stderr .quiet] }

/-- A disk with a file that is a target, and three consoles. -/
def threeConsoles : Session where
  outlets :=
    { disk := { nodes := [(["a"], .file [1] false)] }
      sinks := [.console (.text ""), .console (.text ""), .console (.text "")] }

/-- Nothing is opened, so the file keeps its byte, and the child's line is shown all the same. -/
theorem ignored_targets_inert_accounts :
    ∃ s' result s'' result'',
      run { style := some .plain } { echo := true } ⟨0, 1, 2⟩ laconic (fun s _ => (s, .ok ()))
        accounts threeConsoles = some (s', .ok result) ∧
      run { style := some .plain } { echo := true } ⟨0, 1, 2⟩ laconic (fun s _ => (s, .ok ()))
        accounts.withoutTargets threeConsoles = some (s'', .ok result'') ∧
      s''.effects = s'.effects ∧ s''.outlets.sinks[0]? = s'.outlets.sinks[0]? ∧
      result'' = { result with command := accounts.withoutTargets } ∧
      s'.outlets.disk.node? ["a"] = some (.file [1] false) := by
  have hredirect : ({ echo := true } : RunOptions).redirect = false := rfl
  obtain ⟨-, hruns, hsinks, hnothing⟩ := ignored_targets_inert { style := some .plain } ⟨0, 1, 2⟩
    laconic (fun s _ => (s, .ok ())) accounts threeConsoles hredirect
  have hends : (run { style := some .plain } { echo := true } ⟨0, 1, 2⟩ laconic
      (fun s _ => (s, .ok ())) accounts threeConsoles).any (·.2.toOption.isSome) = true := by
    decide +kernel
  obtain ⟨⟨s', answer⟩, hrun, hok⟩ := (Option.any_eq_true _ _).mp hends
  have hreached := hnothing s' (some answer) (reached_of_run _ _ _ _ hrun)
  have hfile : s'.outlets.disk.node? ["a"] = some (.file [1] false) := by
    refine (hreached.confined.disk.node?_eq ?_ ?_).trans rfl
    · rintro change ⟨child, hlaunch, hmem⟩
      obtain rfl := Except.ok.inj hlaunch
      simp at hmem
    · decide
  rw [hrun] at hruns
  generalize hrun' : run { style := some .plain } { echo := true } ⟨0, 1, 2⟩ laconic
    (fun s _ => (s, .ok ())) accounts.withoutTargets threeConsoles = ended at hruns
  cases hruns with
  | @some _ q hends =>
      obtain ⟨s'', answer'⟩ := q
      have hsink := (hsinks s' answer s'' answer' hrun hrun').1 0 (by decide)
      obtain ⟨hsession, hanswer⟩ := hends
      cases hanswer with
      | error => cases hok
      | @ok result result'' hresult =>
          exact ⟨s', result, s'', result'', hrun, rfl, hsession.effects, hsink, hresult.rest, hfile⟩

end Run

end CommandRelay
