import CommandRelay.Proofs.Execution.Obstacles

/-!
# What a failed setup leaves on the disk

A run that ends before its child is started may have opened a file by then. A payload that is no
command and a refusal leave the disk alone, and so does a target that cannot be opened if it is the
first one. If it is the second, the file of the first has been created or emptied, and nothing else
has changed (`Run.setup_failure_leaves`): to close the file again does not undo that.
-/

namespace CommandRelay

/-- To open a file for output leaves everything alone but the file. -/
theorem Disk.node?_openForOutput_of_ne {d d' : Disk} {keep : Bool} {path : Text} {place : Place}
    {names : List Text} (h : d.openForOutput keep path = .ok (d', place))
    (hne : place ≠ .file names) : d'.node? names = d.node? names := by
  have hput {names' : List Text} {n : Node} (heq : place = .file names') :
      (d.put names' n).node? names = d.node? names := by
    refine node?_put_of_ne fun hnames => hne ?_
    rw [heq, hnames]
  unfold openForOutput at h
  split at h
  · cases h
  · split at h
    · cases h
    · cases h
    · cases h
    · obtain ⟨rfl, rfl⟩ := Prod.mk.inj (Except.ok.inj h)
      exact hput rfl
    · obtain ⟨rfl, rfl⟩ := Prod.mk.inj (Except.ok.inj h)
      exact hput rfl
    · obtain ⟨rfl, -⟩ := Prod.mk.inj (Except.ok.inj h)
      rfl

/-- What is left of a disk when the target at a path cannot be opened: all of it if no target was
opened before that; else the file of the output channel is there and empty, and the rest is as it
was. -/
structure Command.OpeningLeaves (c : Command) (d : Disk) (path : Text) (d' : Disk) : Prop where
  target : c.IsTarget path
  first : path = c.stdoutTarget ∨ c.stdoutTarget = [] → d' = d
  second : path ≠ c.stdoutTarget → c.stdoutTarget ≠ [] →
    ∃ place, d.openForOutput false c.stdoutTarget = .ok (d', place) ∧
      (∀ names, place = .file names → d'.IsEmptyAt names) ∧
      ∀ names, place ≠ .file names → d'.node? names = d.node? names

theorem Command.OpeningFails.leaves {c : Command} {d d' : Disk} {path : Text}
    {fault : AccessFault} (h : c.OpeningFails d path fault d') : c.OpeningLeaves d path d' := by
  cases h with
  | first hset _ => exact ⟨⟨hset, .inl rfl⟩, fun _ => rfl, fun hne => absurd rfl hne⟩
  | only hnone hset _ => exact ⟨⟨hset, .inr rfl⟩, fun _ => rfl, fun _ hsome => absurd hnone hsome⟩
  | second hfirst hset hother hopened _ =>
      obtain ⟨place, hout, -⟩ := Redirects.eq_of_openFile hopened
      refine ⟨⟨hset, .inr rfl⟩, fun hnone => ?_, fun _ _ => ⟨place, hout, ?_, fun names hne => ?_⟩⟩
      · exact hnone.elim (fun heq => absurd heq hother) fun heq => absurd heq hfirst
      · exact (Disk.openForOutput_empties hout).1
      · exact Disk.node?_openForOutput_of_ne hout hne

namespace Run

variable {x : Executor} {options : RunOptions} {consoles : Consoles} {w : Surroundings}
  {check : Check} {c : Command} {s s' s₁ : Session} {answer : Except Failure RunResult}

/-- The failure to open a target comes of nothing else but that. -/
theorem eq_target_of_raised {o : Obstacle} {fault : AccessFault} {path reason : Text}
    (h : fault.raised (o.failure c) = .redirect path reason) :
    o = .target path ∧ ∃ e, fault = .system e ∧ reason = e.reason := by
  cases fault with
  | unencodable | invalid | endless | unsupported => cases h
  | system e =>
      cases o with
      | launch | sink | notice => cases h
      | target path' =>
          obtain ⟨rfl, rfl⟩ := Failure.redirect.inj h
          exact ⟨rfl, e, rfl, rfl⟩

/-- A run that has begun by ending is reached at its end and nowhere else. -/
theorem eq_of_reached_of_ended {s₂ : Session} {answer₂ : Except Failure RunResult}
    (h : Reached x options consoles w check c s s' (some answer))
    (hbegin : begin x options consoles w check c s = .ended s₂ answer₂) :
    s' = s₂ ∧ answer = answer₂ := by
  cases h with
  | ended h => exact Beginning.ended.inj (h.symm.trans hbegin)
  | done _ h => cases h.symm.trans hbegin

/-- A run whose target cannot be opened is left with the disk that opening the targets leaves. -/
theorem openingFails_of_reached (hcheck : consult w check c s = (s₁, .ok ())) {path reason : Text}
    (h : Reached x options consoles w check c s s' (some (.error (.redirect path reason)))) :
    options.redirect = true ∧ ∃ e, reason = e.reason ∧
      c.OpeningFails s₁.outlets.disk path (.system e) s'.outlets.disk := by
  obtain ⟨ev, hends⟩ := ends_of_reached h
  have hanswers := answers_of_ends hcheck hends
  rcases hanswers.failed _ rfl with ⟨o, fault, hobstructed, hraised⟩ | ⟨signal, hsignal⟩
  · obtain ⟨rfl, e, rfl, rfl⟩ := eq_target_of_raised hraised.symm
    cases hobstructed with
    | target hredirect hfails =>
        obtain ⟨s₂, hopen, hd⟩ := Redirects.openTargets_of_openingFails w.fileFaults hfails
        rw [← hredirect] at hopen
        obtain ⟨rfl, -⟩ := eq_of_reached_of_ended h (begin_of_unopened hcheck hopen)
        exact ⟨hredirect, e, rfl, hd ▸ hfails⟩
  · cases hsignal

/-- A payload that is no command, a refusal and a target that cannot be opened end a run with the
disk as it was, whatever is on it and for whatever reason, but for one thing: a target that is
opened before another one fails is created or emptied by then. -/
theorem setup_failure_leaves (x : Executor) (options : RunOptions) (consoles : Consoles)
    (w : Surroundings) (check : Check) (c : Command) (s : Session) :
    (∀ payload e, Command.decode payload = .error e →
      runPayload x options consoles w check payload s = some (s, .error (.record e))) ∧
    (∀ a : Authorizer, (consult w a.toCheck c s).1.outlets = s.outlets) ∧
    (∀ s' answer, run x options consoles w check c s = some (s', answer) →
      Reached x options consoles w check c s s' (some answer)) ∧
    (∀ s₁ f s' answer, consult w check c s = (s₁, .error f) →
      Reached x options consoles w check c s s' (some answer) →
      s' = s₁ ∧ answer = .error f) ∧
    ∀ s₁ s' path reason, consult w check c s = (s₁, .ok ()) →
      Reached x options consoles w check c s s' (some (.error (.redirect path reason))) →
      options.redirect = true ∧
        (∃ e, reason = e.reason ∧
          c.OpeningFails s₁.outlets.disk path (.system e) s'.outlets.disk) ∧
        c.OpeningLeaves s₁.outlets.disk path s'.outlets.disk := by
  refine ⟨?_, ?_, ?_, ?_, ?_⟩
  · intro payload e h
    rw [runPayload, h]
  · intro a
    exact (Session.stirs_cancelIf (s.emit (.consulted c.name)) w.whileAuthorizing).outlets
  · intro s' answer h
    exact reached_of_run x options consoles w h
  · intro s₁ f s' answer hcheck h
    exact eq_of_reached_of_ended h (begin_of_refused hcheck)
  · intro s₁ s' path reason hcheck h
    obtain ⟨hredirect, e, hreason, hfails⟩ := openingFails_of_reached hcheck h
    exact ⟨hredirect, ⟨e, hreason, hfails⟩, hfails.leaves⟩

/-- A command with two targets, the second of which is a directory. -/
def halfOpened : Command where
  name := "cargo"
  stdoutTarget := "a"
  stderrTarget := "d"
  name_ne := by decide

/-- A disk with a file that is not empty, and a directory. -/
def kept : Session where
  outlets := { disk := { nodes := [(["a"], .file [111] false), (["d"], .directory)] } }

/-- The same with an empty file. -/
def emptied : Disk where
  nodes := [(["d"], .directory), (["a"], .file [] false)]

/-- The run of that command on that disk. -/
def halfOpenedRun : Option (Session × Except Failure RunResult) :=
  run {} { redirect := true } ⟨0, 0, 0⟩ remarking (fun s _ => (s, .ok ())) halfOpened kept

/-- The disk that the failure to open a target leaves, if a run gives that for a path and a
reason. -/
def unopened? (path reason : Text) : Option (Session × Except Failure RunResult) → Option Disk
  | some (s, .error (.redirect path' reason')) =>
    if path' = path ∧ reason' = reason then some s.outlets.disk else none
  | _ => none

theorem exists_of_unopened? {given : Option (Session × Except Failure RunResult)}
    {path reason : Text} {d : Disk} (h : unopened? path reason given = some d) :
    ∃ s', given = some (s', .error (.redirect path reason)) ∧ s'.outlets.disk = d := by
  unfold unopened? at h
  split at h
  · split at h
    · rename_i heq
      obtain ⟨rfl, rfl⟩ := heq
      exact ⟨_, rfl, Option.some.inj h⟩
    · cases h
  · cases h

theorem halfOpenedRun_eq :
    ∃ s', halfOpenedRun = some (s', .error (.redirect "d" "Is a directory")) ∧
      s'.outlets.disk = emptied := by
  have hrun : unopened? "d" "Is a directory" halfOpenedRun = some emptied := by decide +kernel
  exact exists_of_unopened? hrun

/-- The second target is a directory: the directory stays, and so does all else but the file that
was opened first. -/
theorem setup_failure_leaves_directory :
    ∃ s', halfOpenedRun = some (s', .error (.redirect "d" "Is a directory")) ∧
      halfOpened.OpeningLeaves kept.outlets.disk "d" s'.outlets.disk ∧
      s'.outlets.disk.node? ["d"] = some .directory := by
  obtain ⟨s', hrun, hd⟩ := halfOpenedRun_eq
  obtain ⟨-, -, hreached, -, hleaves⟩ := setup_failure_leaves {} { redirect := true } ⟨0, 0, 0⟩
    remarking (fun s _ => (s, .ok ())) halfOpened kept
  obtain ⟨-, -, hleft⟩ := hleaves _ s' _ _ rfl (hreached s' _ hrun)
  exact ⟨s', hrun, hleft, by rw [hd]; decide⟩

/-- The file that was opened first has lost what it held. -/
theorem setup_failure_empties :
    ∃ s', halfOpenedRun = some (s', .error (.redirect "d" "Is a directory")) ∧
      kept.outlets.disk.contentAt ["a"] = [111] ∧ s'.outlets.disk.contentAt ["a"] = [] := by
  obtain ⟨s', hrun, hd⟩ := halfOpenedRun_eq
  exact ⟨s', hrun, by decide, by rw [hd]; decide⟩

end Run

end CommandRelay
