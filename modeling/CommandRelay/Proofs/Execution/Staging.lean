import CommandRelay.Proofs.Execution.Moments
import CommandRelay.Proofs.Execution.Opening
import CommandRelay.Proofs.Relay.Turns
import CommandRelay.Worker.Basic

/-!
# The order of the effects of a run

A run on a payload goes through its stages in order: the authorizer is consulted about the
command, targets are opened, the child is started if nobody has asked for the cancellation by then,
its output is relayed and the files are closed. `Permitted` says which effects must have come before
an effect, and a trace is `Staged` if every effect in it is permitted by those before it.
`payload_effects_staged` says that the effects of a run are staged at each of its moments, whatever
the settings, the disk, the child and the schedule are.

## Implementation notes

The stages of a run are followed by `Trail`, which relates a session to the one that the run began
with, and by `Prepared`, a trail on which no child has been started yet.
-/

namespace CommandRelay

namespace Run

/-- Whether a child is started in a trace. -/
def HasSpawned (tr : List Effect) : Prop :=
  ∃ argv own, .spawning argv own ∈ tr

section Trace

variable (a : Authorizer) (options : RunOptions) (c : Command) (fired : Bool)

/-- What the effects before an effect must be, in a run on a command that an authorizer is consulted
about; `fired` says that the cancellation had been asked for before the run. -/
def Permitted (before : List Effect) : Effect → Prop
  | .consulted name => name = c.name ∧ before = []
  | .opened path =>
    .consulted c.name ∈ before ∧ (a.privileged = true ∨ c.name ∈ a.whitelist) ∧
      options.redirect = true ∧ c.IsTarget path ∧ ¬ HasSpawned before
  | .spawning argv _ =>
    .consulted c.name ∈ before ∧ (a.privileged = true ∨ c.name ∈ a.whitelist) ∧
      argv = c.name :: c.args ∧
      (options.redirect = true → ∀ path, c.IsTarget path → .opened path ∈ before) ∧
      (fired = false ∧ ∀ reason, .cancelled reason ∉ before) ∧ ¬ HasSpawned before
  | .cancelled _ | .closed _ => .consulted c.name ∈ before
  | .wrote .. | .flushed _ | .killed _ | .reaped => HasSpawned before

/-- Every effect of the trace is permitted by those before it. -/
def Staged (tr : List Effect) : Prop :=
  ∀ before e after, tr = before ++ e :: after → Permitted a options c fired before e

variable {a options c fired}

/-- A staged trace goes on with effects that are permitted. -/
theorem Staged.append {tr more : List Effect} (h : Staged a options c fired tr)
    (hmore : ∀ before e after, more = before ++ e :: after →
      Permitted a options c fired (tr ++ before) e) :
    Staged a options c fired (tr ++ more) := by
  intro before e after heq
  rcases List.append_eq_append_iff.mp heq with ⟨front, rfl, hm⟩ | ⟨back, rfl, hm⟩
  · exact hmore front e after hm
  · cases back with
    | nil => simpa using hmore [] e after hm.symm
    | cons b rest =>
        obtain ⟨rfl, rfl⟩ := List.cons.inj hm
        exact h before e rest rfl

/-- Effects that are permitted whenever those of a trace came before. -/
theorem Staged.append_of_forall {tr more : List Effect} (h : Staged a options c fired tr)
    (hmore : ∀ e ∈ more, ∀ before, Permitted a options c fired (tr ++ before) e) :
    Staged a options c fired (tr ++ more) :=
  h.append fun before e _ heq =>
    hmore e (heq ▸ List.mem_append_right _ List.mem_cons_self) before

theorem staged_consulted : Staged a options c fired [.consulted c.name] := by
  intro before e _ heq
  cases before with
  | nil =>
      obtain ⟨rfl, -⟩ := List.cons.inj heq
      exact ⟨rfl, rfl⟩
  | cons b rest => simp at heq

theorem permitted_of_isCancelled {tr more : List Effect} {e : Effect}
    (h : .consulted c.name ∈ tr) (he : e.IsCancelled) :
    Permitted a options c fired (tr ++ more) e := by
  obtain ⟨reason, rfl⟩ := he
  exact List.mem_append_left _ h

theorem permitted_of_isClosed {tr more : List Effect} {e : Effect}
    (h : .consulted c.name ∈ tr) (he : e.IsClosed) :
    Permitted a options c fired (tr ++ more) e := by
  obtain ⟨path, rfl⟩ := he
  exact List.mem_append_left _ h

theorem permitted_of_isOfRelay {tr more : List Effect} {e : Effect}
    (h : .consulted c.name ∈ tr) (hs : HasSpawned tr) (he : e.IsOfRelay) :
    Permitted a options c fired (tr ++ more) e := by
  obtain ⟨argv, own, hmem⟩ := hs
  cases e with
  | cancelled reason => exact List.mem_append_left _ h
  | wrote | flushed | killed | reaped => exact ⟨argv, own, List.mem_append_left _ hmem⟩
  | consulted | opened | spawning | closed => exact he.elim

end Trace

/-! ## Trails -/

section Trails

variable (a : Authorizer) (options : RunOptions) (c : Command)

/-- A session that a run has come to, with the effects that it has had. -/
structure Trail (s s' : Session) (tr : List Effect) : Prop where
  effects : s'.effects = s.effects ++ tr
  first : tr.head? = some (.consulted c.name)
  staged : Staged a options c s.isCancelled tr
  disk : ¬ HasSpawned tr → (∀ path, .opened path ∉ tr) → s'.outlets.disk = s.outlets.disk

/-- A trail on which no child has been started. -/
structure Prepared (s s' : Session) (tr : List Effect) : Prop
    extends Trail a options c s s' tr where
  unspawned : ¬ HasSpawned tr
  quiet : s'.isCancelled = false →
    s.isCancelled = false ∧ ∀ reason, .cancelled reason ∉ tr

variable {a options c} {s s' s'' : Session} {tr : List Effect}

theorem Trail.consulted (h : Trail a options c s s' tr) : .consulted c.name ∈ tr :=
  List.mem_of_mem_head? (h.first ▸ rfl)

/-- Further effects do not change what the run began with. -/
theorem Trail.append {more : List Effect} (h : Trail a options c s s' tr)
    (he : s''.effects = s'.effects ++ more)
    (hs : Staged a options c s.isCancelled (tr ++ more))
    (hd : ¬ HasSpawned tr → (∀ path, .opened path ∉ tr) →
      (∀ path, .opened path ∉ more) → s''.outlets.disk = s'.outlets.disk) :
    Trail a options c s s'' (tr ++ more) where
  effects := by rw [he, h.effects, List.append_assoc]
  first := by rw [List.head?_append, h.first]; rfl
  staged := hs
  disk := fun hno hopen => by
    have hno' : ¬ HasSpawned tr := fun ⟨argv, own, hmem⟩ =>
      hno ⟨argv, own, List.mem_append_left _ hmem⟩
    have hopen' : ∀ path, .opened path ∉ tr := fun path hp =>
      hopen path (List.mem_append_left _ hp)
    rw [hd hno' hopen' fun path hp => hopen path (List.mem_append_right _ hp),
      h.disk hno' hopen']

/-- A run goes on without effects. -/
theorem Trail.of_eq (h : Trail a options c s s' tr) (he : s''.effects = s'.effects)
    (hd : s''.outlets.disk = s'.outlets.disk) : Trail a options c s s'' tr :=
  ⟨he.trans h.effects, h.first, h.staged, fun hno hopen => hd.trans (h.disk hno hopen)⟩

theorem Prepared.of_eq (h : Prepared a options c s s' tr) (he : s''.effects = s'.effects)
    (hc : s''.cancellation = s'.cancellation) (hd : s''.outlets.disk = s'.outlets.disk) :
    Prepared a options c s s'' tr where
  toTrail := h.toTrail.of_eq he hd
  unspawned := h.unspawned
  quiet := fun hq => h.quiet (by rwa [Session.isCancelled, hc] at hq)

/-- Requests to cancel come in on a trail. -/
theorem Trail.stirs (h : Trail a options c s s' tr) (hs : s'.Stirs s'') :
    ∃ more, Trail a options c s s'' (tr ++ more) ∧ s''.effects = s'.effects ++ more ∧
      ∀ e ∈ more, e.IsCancelled := by
  obtain ⟨more, he, hmore⟩ := hs.effects
  refine ⟨more, h.append he ?_ fun _ _ _ => by rw [hs.outlets], he, hmore⟩
  exact h.staged.append_of_forall fun e hmem _ =>
    permitted_of_isCancelled h.consulted (hmore e hmem)

theorem Prepared.stirs (h : Prepared a options c s s' tr) (hs : s'.Stirs s'') :
    ∃ more, Prepared a options c s s'' (tr ++ more) ∧ ∀ e ∈ more, e.IsCancelled := by
  obtain ⟨more, ht, he, hmore⟩ := h.toTrail.stirs hs
  refine ⟨more, ⟨ht, ?_, fun hq => ?_⟩, hmore⟩
  · rintro ⟨argv, own, hmem⟩
    rcases List.mem_append.mp hmem with hmem | hmem
    · exact h.unspawned ⟨argv, own, hmem⟩
    · obtain ⟨reason, hr⟩ := hmore _ hmem
      cases hr
  · have hnone : more = [] := by
      have := (hs.quiet hq).symm.trans he
      exact List.self_eq_append_right.mp this
    rw [hnone, List.append_nil]
    exact h.quiet (hs.notCancelled hq)

/-! ## The stages of a run -/

/-- The authorizer is consulted before anything else. -/
theorem exists_prepared_consulted (a : Authorizer) (options : RunOptions) (c : Command)
    (s : Session) (reason : Option Text) :
    ∃ more, Prepared a options c s ((s.emit (.consulted c.name)).cancelIf reason)
        (.consulted c.name :: more) ∧ ∀ e ∈ more, e.IsCancelled := by
  have h : Prepared a options c s (s.emit (.consulted c.name)) [.consulted c.name] :=
    { effects := rfl
      first := rfl
      staged := staged_consulted
      disk := fun _ _ => rfl
      unspawned := by rintro ⟨argv, own, hmem⟩; cases List.mem_singleton.mp hmem
      quiet := fun hq => ⟨hq, fun _ hmem => nomatch List.mem_singleton.mp hmem⟩ }
  exact h.stirs (Session.stirs_cancelIf _ reason)

/-- Targets are opened by a command that may run. -/
theorem Prepared.opens {more : List Effect} (h : Prepared a options c s s' tr)
    (hlet : a.privileged = true ∨ c.name ∈ a.whitelist) (ho : Redirects.Opens c s' s'' more)
    (hredirect : ∀ path, .opened path ∈ more → options.redirect = true) :
    Prepared a options c s s'' (tr ++ more) := by
  have hnone : ∀ front : List Effect, (∀ e ∈ front, e ∈ more) → ¬ HasSpawned (tr ++ front) := by
    rintro front hfront ⟨argv, own, hmem⟩
    rcases List.mem_append.mp hmem with hmem | hmem
    · exact h.unspawned ⟨argv, own, hmem⟩
    · rcases ho.only _ (hfront _ hmem) with ⟨path, hp, -⟩ | ⟨path, hp⟩ <;> cases hp
  have hstaged : Staged a options c s.isCancelled (tr ++ more) := by
    refine h.staged.append fun before e after heq => ?_
    have he : e ∈ more := heq ▸ List.mem_append_right _ List.mem_cons_self
    rcases ho.only e he with ⟨path, rfl, hp⟩ | hclosed
    · refine ⟨List.mem_append_left _ h.consulted, hlet, hredirect path he, hp, hnone before ?_⟩
      exact fun b hb => heq ▸ List.mem_append_left _ hb
    · exact permitted_of_isClosed h.consulted hclosed
  refine ⟨h.append ho.effects hstaged fun _ _ => ho.disk, hnone more fun _ => id, fun hq => ?_⟩
  obtain ⟨hs, htr⟩ := h.quiet (by rwa [Session.isCancelled, ho.cancellation] at hq)
  refine ⟨hs, fun reason hmem => ?_⟩
  rcases List.mem_append.mp hmem with hmem | hmem
  · exact htr reason hmem
  · rcases ho.only _ hmem with ⟨path, hp, -⟩ | ⟨path, hp⟩ <;> cases hp

/-- The child of a command that may run is started once its targets are open, unless the run is
cancelled. -/
theorem Prepared.spawning (h : Prepared a options c s s' tr) (own : Bool)
    (hlet : a.privileged = true ∨ c.name ∈ a.whitelist) (hquiet : s'.isCancelled = false)
    (hopen : options.redirect = true → ∀ path, c.IsTarget path → .opened path ∈ tr) :
    Trail a options c s (s'.emit (.spawning c.argv own)) (tr ++ [.spawning c.argv own]) := by
  refine h.append rfl (h.staged.append fun before e after heq => ?_) fun _ _ _ => rfl
  cases before with
  | nil =>
      obtain ⟨rfl, -⟩ := List.cons.inj heq
      rw [List.append_nil]
      exact ⟨h.consulted, hlet, rfl, hopen, h.quiet hquiet, h.unspawned⟩
  | cons b rest => simp at heq

/-- Once the child has been started, relays and the closing of files go on with the trail. -/
theorem Trail.grows {p : Effect → Prop} (h : Trail a options c s s' tr) (hspawned : HasSpawned tr)
    (hg : s'.Grows p s'') (hp : ∀ e, p e → e.IsOfRelay ∨ e.IsClosed) :
    ∃ more, Trail a options c s s'' (tr ++ more) := by
  obtain ⟨more, he, hmore⟩ := hg
  refine ⟨more, h.append he ?_ fun hno => absurd hspawned hno⟩
  refine h.staged.append_of_forall fun e hmem before => ?_
  rcases hp e (hmore e hmem) with hrelay | hclosed
  · exact permitted_of_isOfRelay h.consulted hspawned hrelay
  · exact permitted_of_isClosed h.consulted hclosed

theorem HasSpawned.append {more : List Effect} (h : HasSpawned tr) : HasSpawned (tr ++ more) := by
  obtain ⟨argv, own, hmem⟩ := h
  exact ⟨argv, own, List.mem_append_left _ hmem⟩

section Stages

variable (x : Executor) (consoles : Consoles) (w : Surroundings)

theorem effects_announce (n : Notice) (s : Session) :
    (announce x consoles n c s).1.effects = s.effects := by
  unfold announce
  split <;> rfl

theorem cancellation_announce (n : Notice) (s : Session) :
    (announce x consoles n c s).1.cancellation = s.cancellation := by
  unfold announce
  split <;> rfl

theorem disk_announce (n : Notice) (s : Session) :
    (announce x consoles n c s).1.outlets.disk = s.outlets.disk := by
  unfold announce
  split
  · unfold Session.display Outlets.display
    simp only
    split <;> rfl
  · rfl

/-- What a relay amounts to has no further effects. -/
theorem effects_conclude (r : Relay) :
    (conclude x consoles w c r).1.effects = r.session.effects :=
  conclude_induction x consoles w (p := fun s => s.effects = r.session.effects)
    (fun _ _ _ hs => hs) (fun _ _ hs => (effects_announce ..).trans hs) rfl

/-- A relay begins with the session that it is given, and may learn that it is cancelled. -/
theorem stirs_relay (options : RunOptions) (c : Command) (files : Redirects) (child : Child)
    (s : Session) : s.Stirs (relay x options consoles w c files child s).session :=
  (Relay.stirs_listen
    { plan := { x.plan with name := c.name }
      child
      trees :=
        ⟨tree options files.stdout consoles.stdout, tree options files.stderr consoles.stderr⟩
      session := s
      waitAlarms := w.waitAlarms }).session

theorem finish_closes (files : Redirects) (s : Session) (answer : Except Failure RunResult) :
    Redirects.Closes s (finish w files s answer).1 :=
  Redirects.close_closes w.fileFaults files s

/-- Closing the redirect files ends a trail; without any, nothing happens. -/
theorem Trail.finish {files : Redirects} (h : Trail a options c s s' tr)
    (hfiles : HasSpawned tr ∨ files.sinks = [] ∨ ∃ path, .opened path ∈ tr)
    (answer : Except Failure RunResult) :
    ∃ tr', Trail a options c s (finish w files s' answer).1 tr' := by
  obtain ⟨more, he, hmore⟩ := (finish_closes w files s' answer).effects
  refine ⟨tr ++ more, h.append he ?_ fun hno hopen _ => ?_⟩
  · exact h.staged.append_of_forall fun e hmem _ =>
      permitted_of_isClosed h.consulted (hmore e hmem)
  · rcases hfiles with hspawned | hnil | ⟨path, hp⟩
    · exact absurd hspawned hno
    · rw [Run.finish, Redirects.close_of_sinks_eq_nil hnil]
    · exact absurd hp (hopen path)

/-- The attempt to start the child is on a trail too, whatever comes of it. -/
theorem Prepared.spawn (h : Prepared a options c s s' tr)
    (hlet : a.privileged = true ∨ c.name ∈ a.whitelist) (hquiet : s'.isCancelled = false)
    (hopen : options.redirect = true → ∀ path, c.IsTarget path → .opened path ∈ tr) :
    ∃ tr', Trail a options c s (spawn x w c s').1 tr' ∧ HasSpawned tr' := by
  have hspawned : HasSpawned (tr ++ [.spawning c.argv x.plan.grouped]) :=
    ⟨_, _, List.mem_append_right _ List.mem_cons_self⟩
  obtain ⟨more, ht, -, -⟩ := (h.spawning x.plan.grouped hlet hquiet hopen).stirs
    (Session.stirs_cancelIf _ w.whileSpawning)
  refine ⟨tr ++ [.spawning c.argv x.plan.grouped] ++ more, ?_, hspawned.append⟩
  unfold Run.spawn
  simp only
  split
  · exact ht
  · exact ht.of_eq rfl rfl
  · exact ht

/-- What a run begins with is on a trail, and a relay only begins once the child was started. -/
def Beginning.OnTrail (a : Authorizer) (options : RunOptions) (c : Command) (s : Session) :
    Beginning → Prop
  | .ended s' _ => ∃ tr, Trail a options c s s' tr
  | .relaying _ r => ∃ tr, Trail a options c s r.session tr ∧ HasSpawned tr

theorem Prepared.beginOpened {files : Redirects} (h : Prepared a options c s s' tr)
    (hlet : a.privileged = true ∨ c.name ∈ a.whitelist)
    (hopen : options.redirect = true → ∀ path, c.IsTarget path → .opened path ∈ tr)
    (hfiles : files.sinks = [] ∨ ∃ path, .opened path ∈ tr) :
    (beginOpened x options consoles w c files s').OnTrail a options c s := by
  have hstart : Prepared a options c s (started x consoles c s') tr :=
    h.of_eq (effects_announce ..) (cancellation_announce ..) (disk_announce ..)
  have hbegins := beginsOpened x options consoles w c files s'
  generalize Run.beginOpened x options consoles w c files s' = begun at hbegins ⊢
  cases hbegins with
  | unannounced => exact hstart.toTrail.finish w (.inr hfiles) _
  | cancelled _ hs =>
      subst hs
      have hnoted (n : Notice) :
          Trail a options c s (record x .warning n c (started x consoles c s')) tr :=
        hstart.toTrail.of_eq rfl rfl
      exact (hnoted _).finish w (.inr hfiles) _
  | unlaunched _ hgo hspawn =>
      obtain ⟨tr', ht, hspawned⟩ := hstart.spawn x w hlet hgo hopen
      rw [hspawn] at ht
      exact ht.finish w (.inl hspawned) _
  | @launched s₁ child _ hgo hspawn =>
      obtain ⟨tr', ht, hspawned⟩ := hstart.spawn x w hlet hgo hopen
      rw [hspawn] at ht
      obtain ⟨more, hl, -, -⟩ := ht.stirs (stirs_relay x consoles w options c files child s₁)
      exact ⟨_, hl, hspawned.append⟩

/-- An authorizer passes what is privileged or on its whitelist. -/
theorem check_eq_ok_iff (a : Authorizer) (name : Text) :
    a.check name = .ok () ↔ a.privileged = true ∨ name ∈ a.whitelist := by
  unfold Authorizer.check Authorizer.decision
  cases a.privileged with
  | true => simp
  | false => by_cases h : name ∈ a.whitelist <;> simp [h]

theorem check_eq_error {a : Authorizer} {name : Text} {f : Failure} (h : a.check name = .error f) :
    f = a.refusal name := by
  unfold Authorizer.check at h
  split at h
  · exact (Except.error.inj h).symm
  all_goals cases h

theorem begin_onTrail (a : Authorizer) (options : RunOptions) (c : Command) (s : Session) :
    (begin x options consoles w a.toCheck c s).OnTrail a options c s := by
  obtain ⟨asked, hasked, -⟩ := exists_prepared_consulted a options c s w.whileAuthorizing
  unfold begin Authorizer.toCheck
  cases hcheck : a.check c.name with
  | error f => exact ⟨_, hasked.toTrail⟩
  | ok =>
      have hlet := (check_eq_ok_iff a c.name).mp hcheck
      obtain ⟨more, ho, hred, hok⟩ := Redirects.openTargets_opens options.redirect w.fileFaults c
        ((s.emit (.consulted c.name)).cancelIf w.whileAuthorizing)
      have hopened := hasked.opens hlet ho hred
      simp only
      rcases hres : Redirects.openTargets options.redirect w.fileFaults c
        ((s.emit (.consulted c.name)).cancelIf w.whileAuthorizing) with ⟨s₁, f | files⟩
      · rw [hres] at hopened
        exact ⟨_, hopened.toTrail⟩
      · rw [hres] at hopened hok
        obtain ⟨hall, hfiles⟩ := hok files rfl
        refine hopened.beginOpened x consoles w hlet
          (fun hr path hp => List.mem_append_right _ (hall hr path hp)) ?_
        exact hfiles.imp_right fun ⟨path, hp⟩ => ⟨path, List.mem_append_right _ hp⟩

/-- Every moment of a run is on a trail. -/
theorem exists_trail_of_reached {answer : Option (Except Failure RunResult)}
    (h : Reached x options consoles w a.toCheck c s s' answer) :
    ∃ tr, Trail a options c s s' tr := by
  have hbegin := begin_onTrail x consoles w a options c s
  cases h with
  | ended hb =>
      rw [hb] at hbegin
      exact hbegin
  | relaying turns hb hf =>
      rw [hb] at hbegin
      obtain ⟨tr, ht, hspawned⟩ := hbegin
      obtain ⟨more, hmore⟩ :=
        ht.grows hspawned (Relay.follow_advances hf).effects fun _ => .inl
      exact ⟨_, hmore⟩
  | @done files r r' turns hb hf =>
      rw [hb] at hbegin
      obtain ⟨tr, ht, hspawned⟩ := hbegin
      obtain ⟨more, hmore⟩ :=
        ht.grows hspawned (Relay.follow_advances hf).effects fun _ => .inl
      obtain ⟨more', hdone⟩ := hmore.grows hspawned.append
        (Session.Grows.of_eq (p := Effect.IsOfRelay) (effects_conclude x consoles w r'))
        fun _ => .inl
      exact hdone.finish w (.inl hspawned.append.append) _

/-- A command that is refused is over with the refusal, and nothing but the question came of it. -/
theorem begin_of_check_error (options : RunOptions) (s : Session) {f : Failure}
    (h : a.check c.name = .error f) :
    begin x options consoles w a.toCheck c s =
      .ended ((s.emit (.consulted c.name)).cancelIf w.whileAuthorizing) (.error f) :=
  begin_of_refused (by rw [Authorizer.toCheck, h])

end Stages

end Trails

/-- The effects of a run on a payload come in stages, at each of its moments and for every schedule.
A payload that is no command has no effect at all. A command is first asked about, once; what the
authorizer raises is the answer of the run, and nothing was opened or started by then. Only targets
are opened, only if redirection is allowed; one child is started at most, once all of them are
open and if nobody asked for the cancellation. As long as nothing was opened or started, the disk
stays as it is. -/
theorem payload_effects_staged (settings : Settings) (x : Executor) (options : RunOptions)
    (consoles : Consoles) (w : Surroundings) (payload : Payload) (s : Session) :
    (∀ s' answer,
      runPayload x options consoles w settings.authorizer.toCheck payload s = some (s', answer) →
        PayloadReached x options consoles w settings.authorizer.toCheck payload s s'
          (some answer)) ∧
    (∀ e, Command.decode payload = .error e →
      runPayload x options consoles w settings.authorizer.toCheck payload s =
          some (s, .error (.record e)) ∧
        ∀ s' answer,
          PayloadReached x options consoles w settings.authorizer.toCheck payload s s' answer →
            s' = s) ∧
    ∀ c, Command.decode payload = .ok c →
      (∀ s' answer,
        PayloadReached x options consoles w settings.authorizer.toCheck payload s s' answer →
          ∃ tr, s'.effects = s.effects ++ tr ∧ tr.head? = some (.consulted c.name) ∧
            Staged settings.authorizer options c s.isCancelled tr ∧
            (¬ HasSpawned tr → (∀ path, .opened path ∉ tr) →
              s'.outlets.disk = s.outlets.disk)) ∧
      ∀ f, settings.authorizer.check c.name = .error f →
        f = .refused c.name settings.authorizer.allowed ∧
        (settings.privileged = false ∧ c.name ∉ settings.whitelist) ∧
        ∃ s' asked,
          runPayload x options consoles w settings.authorizer.toCheck payload s =
            some (s', .error f) ∧
          s'.outlets = s.outlets ∧ s'.effects = s.effects ++ .consulted c.name :: asked ∧
          (∀ e ∈ asked, e.IsCancelled) ∧
          ∀ s'' answer,
            PayloadReached x options consoles w settings.authorizer.toCheck payload s s'' answer →
              s'' = s' ∧ answer = some (.error f) := by
  refine ⟨fun _ _ => payloadReached_of_runPayload x options consoles w, fun e he => ⟨?_, ?_⟩,
    fun c hc => ⟨?_, ?_⟩⟩
  · rw [runPayload, he]
  · intro s' answer h
    cases h with
    | refused => rfl
    | command hd => rw [he] at hd; cases hd
  · intro s' answer h
    cases h with
    | refused hd => rw [hc] at hd; cases hd
    | command hd hr =>
        obtain rfl := Except.ok.inj (hc.symm.trans hd)
        obtain ⟨tr, ht⟩ := exists_trail_of_reached x consoles w hr
        exact ⟨tr, ht.effects, ht.first, ht.staged, ht.disk⟩
  · intro f hf
    have hdenied : ¬ (settings.privileged = true ∨ c.name ∈ settings.whitelist) := fun hlet => by
      rw [(check_eq_ok_iff settings.authorizer c.name).mpr hlet] at hf
      cases hf
    obtain ⟨hpriv, hlist⟩ := not_or.mp hdenied
    refine ⟨check_eq_error hf, ⟨Bool.eq_false_iff.mpr hpriv, hlist⟩, ?_⟩
    have hbegin := begin_of_check_error x consoles w options s hf
    have hstirs := Session.stirs_cancelIf (s.emit (.consulted c.name)) w.whileAuthorizing
    obtain ⟨asked, hasked, hcancelled⟩ := hstirs.effects
    refine ⟨_, asked, ?_, hstirs.outlets, ?_, hcancelled, fun s'' answer h => ?_⟩
    · rw [runPayload, hc]
      simp only
      rw [run_eq_begin, hbegin]
    · rw [hasked, Session.emit, List.append_assoc]
      rfl
    · cases h with
      | refused hd => rw [hc] at hd; cases hd
      | command hd hr =>
          obtain rfl := Except.ok.inj (hc.symm.trans hd)
          cases hr with
          | ended hb =>
              obtain ⟨rfl, rfl⟩ := Beginning.ended.inj (hbegin.symm.trans hb)
              exact ⟨rfl, rfl⟩
          | relaying _ hb => rw [hbegin] at hb; cases hb
          | done _ hb => rw [hbegin] at hb; cases hb

/-- A command whose output goes to a file. -/
def listing : Command where
  name := "ls"
  stdoutTarget := "a"
  name_ne := by decide

/-- A child that writes one byte and closes its channels. -/
def listingSurroundings : Surroundings where
  launch _ _ :=
    .ok { moves := [.output .stdout [104], .close .stdout .quiet, .close .stderr .quiet] }

/-- The file is opened before the child is started; what is no command has no effects, and what no
whitelist names is refused. -/
theorem payload_effects_staged_listing :
    (∃ s' answer tr,
      runPayload {} { redirect := true } ⟨0, 0, 0⟩ listingSurroundings
          (Settings.authorizer { jobs := 1, whitelist := ["ls"] }).toCheck
          (.value (.object listing.recordFields)) {} = some (s', answer) ∧
        s'.effects = tr ∧
        tr = [.consulted "ls", .opened "a", .spawning [Text.ofString "ls"] true,
          .wrote .stdout [104], .flushed .stdout, .reaped, .closed "a"] ∧
        Staged (Settings.authorizer { jobs := 1, whitelist := ["ls"] }) { redirect := true }
          listing false tr) ∧
      runPayload {} {} ⟨0, 0, 0⟩ listingSurroundings
          (Settings.authorizer { jobs := 1 }).toCheck (.value .null) {} =
        some ({}, .error (.record (.notObject "NoneType"))) ∧
      ∃ s', runPayload {} {} ⟨0, 0, 0⟩ listingSurroundings
          (Settings.authorizer { jobs := 1 }).toCheck (.value (.object listing.recordFields)) {} =
        some (s', .error (.refused "ls" [])) := by
  refine ⟨?_, ?_, ?_⟩
  · obtain ⟨hmoment, -, hgood⟩ := payload_effects_staged { jobs := 1, whitelist := ["ls"] } {}
      { redirect := true } ⟨0, 0, 0⟩ listingSurroundings (.value (.object listing.recordFields)) {}
    have hrun : (runPayload {} { redirect := true } ⟨0, 0, 0⟩ listingSurroundings
        (Settings.authorizer { jobs := 1, whitelist := ["ls"] }).toCheck
        (.value (.object listing.recordFields)) {}).map (·.1.effects) =
        some [.consulted "ls", .opened "a", .spawning [Text.ofString "ls"] true,
          .wrote .stdout [104], .flushed .stdout, .reaped, .closed "a"] := by decide +kernel
    obtain ⟨⟨s', answer⟩, hrun, heffects⟩ := Option.map_eq_some_iff.mp hrun
    obtain ⟨tr, he, -, hs, -⟩ := (hgood listing rfl).1 s' (some answer) (hmoment s' answer hrun)
    have htr : tr = s'.effects := he.symm
    exact ⟨s', answer, tr, hrun, he, htr.trans heffects, hs⟩
  · exact ((payload_effects_staged { jobs := 1 } {} {} ⟨0, 0, 0⟩ listingSurroundings
      (.value .null) {}).2.1 _ rfl).1
  · obtain ⟨-, -, s', -, hrun, -⟩ := ((payload_effects_staged { jobs := 1 } {} {} ⟨0, 0, 0⟩
      listingSurroundings (.value (.object listing.recordFields)) {}).2.2 listing rfl).2
        (.refused "ls" []) rfl
    exact ⟨s', hrun⟩

end Run

end CommandRelay
