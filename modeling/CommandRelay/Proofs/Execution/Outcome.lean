import CommandRelay.Proofs.Execution.Reaping
import CommandRelay.Proofs.Execution.Transfer
import CommandRelay.Proofs.Relay.Course

/-!
# What a run comes to

A run whose targets are open can end in several ways at once: the cancellation may be asked for,
sinks may refuse output and a signal may end the child. `Evidence` is what there was to see of it,
and `Classified` says which answer the run gives on it, in every schedule (`outcome_classified`): a
stop for the cancellation comes before lost output, and lost output before the code of the child.
-/

namespace CommandRelay

namespace Run

/-- What there was to see of a run: what sinks raised, what the readers published of each channel,
the code of the child, if one was started, and what the console raised that the last notice was
shown on, if it raised something. -/
structure Evidence where
  refusals : List AccessFault := []
  published : Channel → List Event := fun _ => []
  code : Option Int := none
  unshown : Option AccessFault := none

/-- The notice that a relay which is done concludes its run with. There is none if a fault has
broken it off, if output was lost or if a signal has ended the child. -/
def closingNotice? (r : Relay) : Option Notice :=
  if r.broken.isSome then none
  else if r.stopped then some (.cancel r.session.cancellation.reason)
  else if r.lost.isSome ∨ r.child.code?.getD 0 < 0 then none
  else some (.exit (r.child.code?.getD 0))

/-- Whether a child is killed in a trace. -/
def HasKilled (tr : List Effect) : Prop :=
  ∃ group, .killed group ∈ tr

/-- How a run ends, and what there was to see of it: before there is a relay, or in some schedule of
its relay. -/
inductive Ends (x : Executor) (options : RunOptions) (consoles : Consoles) (w : Surroundings)
    (check : Check) (c : Command) (s : Session) :
    Evidence → Session → Except Failure RunResult → Prop
  | early {s' answer} (h : begin x options consoles w check c s = .ended s' answer) :
      Ends x options consoles w check c s {} s' answer
  | relayed {files r r'} (turns : List Relay.Turn)
      (h : begin x options consoles w check c s = .relaying files r)
      (hf : r.follow turns = some r') (hfin : r'.isFinished = true) :
      Ends x options consoles w check c s
        { refusals := r.refusals turns
          published := r.published turns
          code := r'.child.code?
          unshown := (closingNotice? r').bind (unshown? x consoles · c r'.session) }
        (complete x consoles w c files r').1 (complete x consoles w c files r').2

/-- What the answer of a run must be, on what there was to see of it and with the effects that it
has had since its targets were open. A run that is ended for the cancellation has a kill among its
effects; so has one that is ended by a fault which is no error of the system, but that fault is its
answer then. -/
structure Classified (x : Executor) (c : Command) (ev : Evidence) (tr : List Effect)
    (s' : Session) (answer : Except Failure RunResult) : Prop where
  success : ∀ res, answer = .ok res →
    (res.success = true ↔ res.code = some 0 ∧ res.cancelled = false)
  code : ∀ res, answer = .ok res → res.code = ev.code ∧
    (res.code = none ↔ ¬ HasSpawned tr) ∧ (res.code = none → res.cancelled = true)
  completed : ∀ res, answer = .ok res → res.cancelled = false →
    (∃ n, res.code = some n ∧ 0 ≤ n) ∧ ev.refusals = [] ∧
      ∀ ch, ev.published ch =
        (writesOn ch (tr.filterMap Effect.call?)).map (.chunk ch) ++ [.ended ch]
  cancelled : ∀ res, answer = .ok res → res.cancelled = true →
    s'.isCancelled = true ∧ (¬ HasSpawned tr ∨ .killed x.plan.grouped ∈ tr)
  lost : ∀ cause cmd, answer = .error (.streamWrite cause cmd) ↔
    (∃ e, .system e ∈ ev.refusals ∧ cause = .outputLost c.name e) ∧ cmd = some c ∧
      ¬ HasKilled tr
  signalled : ∀ name signal cmd, answer = .error (.execution (.signalled name signal) cmd) ↔
    (∃ n, ev.code = some n ∧ n < 0 ∧ signal = Signal.name n.natAbs) ∧ name = c.name ∧
      cmd = some c ∧ ev.refusals = [] ∧ ¬ HasKilled tr

/-! ## Effects that decide nothing -/

/-- An effect that neither calls sinks nor starts or kills a child. -/
def IsAside (e : Effect) : Prop :=
  e.call? = none ∧ (∀ argv own, e ≠ .spawning argv own) ∧ ∀ group, e ≠ .killed group

variable {x : Executor} {options : RunOptions} {consoles : Consoles} {w : Surroundings}
  {check : Check} {c : Command} {s s' : Session} {ev : Evidence} {tr more : List Effect}
  {answer : Except Failure RunResult}

theorem isAside_of_isCancelled {e : Effect} (h : e.IsCancelled) : IsAside e := by
  obtain ⟨reason, rfl⟩ := h
  exact ⟨rfl, nofun, nofun⟩

theorem isAside_of_isClosed {e : Effect} (h : e.IsClosed) : IsAside e := by
  obtain ⟨path, rfl⟩ := h
  exact ⟨rfl, nofun, nofun⟩

/-- Effects aside change nothing in the classification of an answer. -/
theorem Classified.append (h : Classified x c ev tr s answer) (hmore : ∀ e ∈ more, IsAside e)
    (hc : s'.cancellation = s.cancellation) : Classified x c ev (tr ++ more) s' answer := by
  have hspawned : HasSpawned (tr ++ more) ↔ HasSpawned tr := by
    refine ⟨fun ⟨argv, own, hmem⟩ => ⟨argv, own, ?_⟩, HasSpawned.append⟩
    exact (List.mem_append.mp hmem).resolve_right fun hm => (hmore _ hm).2.1 argv own rfl
  have hkilled (group : Bool) : .killed group ∈ tr ++ more ↔ .killed group ∈ tr := by
    refine ⟨fun hmem => ?_, List.mem_append_left _⟩
    exact (List.mem_append.mp hmem).resolve_right fun hm => (hmore _ hm).2.2 group rfl
  have hcalls : (tr ++ more).filterMap Effect.call? = tr.filterMap Effect.call? := by
    rw [List.filterMap_append, List.filterMap_eq_nil_iff.mpr fun e he => (hmore e he).1,
      List.append_nil]
  have hcancelled : s'.isCancelled = s.isCancelled := by
    rw [Session.isCancelled, hc, Session.isCancelled]
  refine ⟨h.success, ?_, ?_, ?_, ?_, ?_⟩
  · rw [hspawned]
    exact h.code
  · rw [hcalls]
    exact h.completed
  · rw [hspawned, hkilled, hcancelled]
    exact h.cancelled
  · simp only [HasKilled, hkilled]
    exact h.lost
  · simp only [HasKilled, hkilled]
    exact h.signalled

/-- The errors of closing files go into a result and change nothing else of it. -/
theorem Classified.finish (h : Classified x c ev tr s answer) (files : Redirects) :
    ∃ more, (finish w files s answer).1.effects = s.effects ++ more ∧
      Classified x c ev (tr ++ more) (finish w files s answer).1
        (finish w files s answer).2 := by
  have hcloses := finish_closes w files s answer
  obtain ⟨more, he, hmore⟩ := hcloses.effects
  have h' := h.append (fun e hmem => isAside_of_isClosed (hmore e hmem)) hcloses.cancellation
  refine ⟨more, he, ?_⟩
  unfold Run.finish at h' ⊢
  simp only at h' ⊢
  cases answer with
  | error f => exact h'
  | ok res =>
      refine ⟨?_, ?_, ?_, ?_, ?_, ?_⟩
      · rintro _ ⟨⟩
        exact h'.success res rfl
      · rintro _ ⟨⟩
        exact h'.code res rfl
      · rintro _ ⟨⟩
        exact h'.completed res rfl
      · rintro _ ⟨⟩
        exact h'.cancelled res rfl
      · intro cause cmd
        rw [← h'.lost cause cmd]
        exact ⟨nofun, nofun⟩
      · intro name signal cmd
        rw [← h'.signalled name signal cmd]
        exact ⟨nofun, nofun⟩

/-! ## The relay of a run -/

/-- An answer that is a failure, but neither lost output nor a signal. -/
theorem classified_of_failure {f : Failure} (hstream : ∀ cause cmd, f ≠ .streamWrite cause cmd)
    (hsignal : ∀ name signal cmd, f ≠ .execution (.signalled name signal) cmd)
    (hlost : ∀ e, .system e ∈ ev.refusals → HasKilled tr)
    (hcode : ∀ n, ev.code = some n → n < 0 → ev.refusals = [] → HasKilled tr) :
    Classified x c ev tr s (.error f) := by
  refine ⟨nofun, nofun, nofun, nofun, fun cause cmd => ?_, fun name signal cmd => ?_⟩
  · refine ⟨fun h => absurd (Except.error.inj h) (hstream cause cmd), ?_⟩
    rintro ⟨⟨e, he, -⟩, -, hkilled⟩
    exact absurd (hlost e he) hkilled
  · refine ⟨fun h => absurd (Except.error.inj h) (hsignal name signal cmd), ?_⟩
    rintro ⟨⟨n, hn, hneg, -⟩, -, -, hnil, hkilled⟩
    exact absurd (hcode n hn hneg hnil) hkilled

/-- Such a failure of a run of which there was nothing to see. -/
theorem classified_of_unstarted {f : Failure} (hstream : ∀ cause cmd, f ≠ .streamWrite cause cmd)
    (hsignal : ∀ name signal cmd, f ≠ .execution (.signalled name signal) cmd) :
    Classified x c {} tr s (.error f) :=
  classified_of_failure hstream hsignal (fun _ he => absurd he List.not_mem_nil) nofun

/-- A result of a run that was cancelled, before a child was started or by a kill. -/
theorem classified_of_cancelled {elapsed : String} (hcancelled : s.isCancelled = true)
    (hend : ev.code = none ∧ ev.refusals = [] ∧ ¬ HasSpawned tr ∨
      ev.code.isSome = true ∧ HasSpawned tr ∧ .killed x.plan.grouped ∈ tr) :
    Classified x c ev tr s (.ok (cancelledResult x c ev.code elapsed)) := by
  refine ⟨?_, ?_, ?_, ?_, fun cause cmd => ⟨nofun, ?_⟩, fun name signal cmd => ⟨nofun, ?_⟩⟩
  · rintro _ ⟨⟩
    exact ⟨nofun, fun h => nomatch h.2⟩
  · rintro _ ⟨⟩
    refine ⟨rfl, ?_, fun _ => rfl⟩
    rcases hend with ⟨hnone, -, hno⟩ | ⟨hsome, hspawned, -⟩
    · exact ⟨fun _ => hno, fun _ => hnone⟩
    · refine ⟨fun hnone => ?_, fun hno => absurd hspawned hno⟩
      rw [Option.isSome_iff_ne_none] at hsome
      exact absurd hnone hsome
  · rintro _ ⟨⟩
    exact nofun
  · rintro _ ⟨⟩
    exact fun _ => ⟨hcancelled, hend.imp (·.2.2) (·.2.2)⟩
  · rintro ⟨⟨e, he, -⟩, -, hkilled⟩
    rcases hend with ⟨-, hnil, -⟩ | ⟨-, -, hmem⟩
    · rw [hnil] at he
      cases he
    · exact absurd ⟨_, hmem⟩ hkilled
  · rintro ⟨⟨n, hn, -⟩, -, -, -, hkilled⟩
    rcases hend with ⟨hnone, -⟩ | ⟨-, -, hmem⟩
    · rw [hnone] at hn
      cases hn
    · exact absurd ⟨_, hmem⟩ hkilled

/-- The answer to lost output. -/
theorem classified_of_lost {e : SystemError} (hraised : ev.refusals = [.system e])
    (hkilled : ¬ HasKilled tr) :
    Classified x c ev tr s (.error (.streamWrite (.outputLost c.name e) (some c))) := by
  refine ⟨nofun, nofun, nofun, nofun, fun cause cmd => ?_, fun name signal cmd => ⟨nofun, ?_⟩⟩
  · rw [hraised]
    constructor
    · rintro ⟨⟩
      exact ⟨⟨e, List.mem_singleton_self _, rfl⟩, rfl, hkilled⟩
    · rintro ⟨⟨e', he, rfl⟩, rfl, -⟩
      obtain ⟨⟩ := List.mem_singleton.mp he
      rfl
  · rintro ⟨-, -, -, hnil, -⟩
    rw [hraised] at hnil
    cases hnil

/-- The answer to the death of a child by a signal. -/
theorem classified_of_signal {code : Int} (hcode : ev.code = some code) (hneg : code < 0)
    (hraised : ev.refusals = []) (hkilled : ¬ HasKilled tr) :
    Classified x c ev tr s
      (.error (.execution (.signalled c.name (Signal.name code.natAbs)) (some c))) := by
  refine ⟨nofun, nofun, nofun, nofun, fun cause cmd => ⟨nofun, ?_⟩, fun name signal cmd => ?_⟩
  · rintro ⟨⟨e, he, -⟩, -⟩
    rw [hraised] at he
    cases he
  · constructor
    · rintro ⟨⟩
      exact ⟨⟨code, hcode, hneg, rfl⟩, rfl, rfl, hraised, hkilled⟩
    · rintro ⟨⟨n, hn, -, rfl⟩, rfl, rfl, -⟩
      obtain rfl := Option.some.inj (hcode.symm.trans hn)
      rfl

/-- The result of a child that has come to its own end. -/
theorem classified_of_exit {res : RunResult} {code : Int} (hcode : ev.code = some code)
    (hpos : 0 ≤ code) (hraised : ev.refusals = []) (hspawned : HasSpawned tr)
    (hwritten : ∀ ch, ev.published ch =
      (writesOn ch (tr.filterMap Effect.call?)).map (.chunk ch) ++ [.ended ch])
    (hres : res.code = some code) (hsuccess : res.success = decide (code = 0))
    (hcancelled : res.cancelled = false) : Classified x c ev tr s (.ok res) := by
  refine ⟨?_, ?_, ?_, ?_, fun cause cmd => ⟨nofun, ?_⟩, fun name signal cmd => ⟨nofun, ?_⟩⟩
  · rintro _ ⟨⟩
    rw [hres, hsuccess, hcancelled]
    simp
  · rintro _ ⟨⟩
    rw [hres]
    exact ⟨hcode.symm, ⟨nofun, fun hno => absurd hspawned hno⟩, nofun⟩
  · rintro _ ⟨⟩ -
    exact ⟨⟨code, hres, hpos⟩, hraised, hwritten⟩
  · rintro _ ⟨⟩ htrue
    cases hcancelled.symm.trans htrue
  · rintro ⟨⟨e, he, -⟩, -⟩
    rw [hraised] at he
    cases he
  · rintro ⟨⟨n, hn, hneg, -⟩, -⟩
    obtain rfl := Option.some.inj (hcode.symm.trans hn)
    exact absurd hneg (by omega)

/-- What a relay that is done amounts to, with the effects that it has had. -/
theorem classified_conclude {r : Relay} {done : List Effect}
    (hcourse : Relay.Course done ev.refusals ev.published r) (hfin : r.phase = .finished)
    (hplan : r.plan.grouped = x.plan.grouped) (hcode : ev.code = r.child.code?)
    (hspawned : HasSpawned tr) (hkill : ∀ group, .killed group ∈ tr ↔ .killed group ∈ done)
    (hcalls : tr.filterMap Effect.call? = done.filterMap Effect.call?) :
    Classified x c ev tr (conclude x consoles w c r).1 (conclude x consoles w c r).2 := by
  obtain ⟨code, hc⟩ := Option.isSome_iff_exists.mp
    (hcourse.waited.exited (by rw [hfin]; rfl))
  have hevidence : ev.code = some code := hcode.trans hc
  have hraised := hcourse.faulted.raised
  have hnotKilled (hs : r.stopped = false) (hb : r.broken = none) : ¬ HasKilled tr :=
    fun ⟨group, hmem⟩ => hcourse.halted.notMem hs hb group ((hkill group).mp hmem)
  unfold conclude
  rw [hc, Option.getD_some]
  cases hb : r.broken with
  | some fault =>
      obtain ⟨hlost, hsystem, -⟩ := hcourse.faulted.broken fault hb
      rw [hlost, hb] at hraised
      refine classified_of_failure nofun nofun (fun e he => ?_) fun n _ _ hnil => ?_
      · rw [hraised] at he
        exact absurd (List.mem_singleton.mp he).symm (hsystem e)
      · rw [hraised] at hnil
        cases hnil
  | none =>
      rw [hb, Option.toList_none, List.append_nil] at hraised
      simp only
      cases hs : r.stopped with
      | true =>
          obtain ⟨hcancelled, hkilled⟩ := hcourse.halted.stopped hs
          have hmem : .killed x.plan.grouped ∈ tr := by
            rw [hkill, ← hplan]
            exact hkilled.resolve_left (by rw [hfin]; nofun)
          rw [if_pos rfl, ← hevidence]
          have hsame := cancellation_announce (c := c) x consoles
            (.cancel r.session.cancellation.reason)
            (record x .warning (.cancel r.session.cancellation.reason) c r.session)
          rcases hshown : announce x consoles (.cancel r.session.cancellation.reason) c
            (record x .warning (.cancel r.session.cancellation.reason) c r.session) with
            ⟨s₁, fault | ⟨⟩⟩
          · exact classified_of_failure nofun nofun (fun _ _ => ⟨_, hmem⟩)
              fun _ _ _ _ => ⟨_, hmem⟩
          · refine classified_of_cancelled ?_ (.inr ⟨by rw [hevidence]; rfl, hspawned, hmem⟩)
            rw [hshown] at hsame
            exact (congrArg Cancellation.fired hsame).trans hcancelled
      | false =>
          rw [if_neg Bool.false_ne_true]
          cases hlost : r.lost with
          | some e =>
              rw [hlost] at hraised
              exact classified_of_lost hraised (hnotKilled hs hb)
          | none =>
              rw [hlost] at hraised
              simp only
              split
              · rename_i hneg
                exact classified_of_signal hevidence hneg hraised (hnotKilled hs hb)
              · rename_i hpos
                split
                · refine classified_of_failure nofun nofun (fun e he => ?_) fun n hn hneg => ?_
                  · rw [hraised] at he
                    cases he
                  · obtain rfl := Option.some.inj (hevidence.symm.trans hn)
                    exact absurd hneg hpos
                · have hintact : r.Intact :=
                    ⟨by rw [hcourse.faulted.draining, hlost]; rfl, hb, hs⟩
                  refine classified_of_exit hevidence (Int.not_lt.mp hpos) hraised hspawned
                    (fun ch => ?_) rfl rfl rfl
                  rw [hcalls]
                  exact hcourse.written hintact (by rw [hfin]; rfl) ch

/-! ## The beginning of a run -/

theorem effects_spawn (x : Executor) (w : Surroundings) (c : Command) (s : Session) :
    ∃ more, (spawn x w c s).1.effects = s.effects ++ .spawning c.argv x.plan.grouped :: more ∧
      ∀ e ∈ more, e.IsCancelled := by
  obtain ⟨more, he, hmore⟩ :=
    (Session.stirs_cancelIf (s.emit (.spawning c.argv x.plan.grouped)) w.whileSpawning).effects
  refine ⟨more, ?_, hmore⟩
  rw [Session.emit, List.append_assoc] at he
  unfold spawn
  simp only
  split <;> exact he

/-- A child that cannot be started is a failure of its own kind. -/
theorem failure_of_spawn {f : Failure} (h : spawn x w c s = (s', .error f)) :
    (∃ e, f = .execution (.notStarted c.name e) (some c)) ∨ ∃ fault, f = .access fault := by
  unfold spawn at h
  simp only at h
  split at h
  · cases (Prod.mk.inj h).2
  · rename_i e _
    obtain rfl := Except.error.inj (Prod.mk.inj h).2
    exact .inl ⟨e, rfl⟩
  · rename_i fault _ _
    obtain rfl := Except.error.inj (Prod.mk.inj h).2
    exact .inr ⟨fault, rfl⟩

/-- A run that is over before there is a relay could not say that it starts, has been cancelled, or
could start no child. -/
theorem classified_of_ended {files : Redirects}
    (h : beginOpened x options consoles w c files s = .ended s' answer) :
    ∃ tr, s'.effects = s.effects ++ tr ∧ Classified x c {} tr s' answer := by
  have hbefore : (started x consoles c s).effects = s.effects := effects_announce ..
  have hfinish {s₁ : Session} {tr : List Effect} {answer : Except Failure RunResult}
      (he : s₁.effects = s.effects ++ tr) (h₁ : Classified x c {} tr s₁ answer) :
      ∃ tr, (finish w files s₁ answer).1.effects = s.effects ++ tr ∧
        Classified x c {} tr (finish w files s₁ answer).1 (finish w files s₁ answer).2 := by
    obtain ⟨more, hmore, h₂⟩ := h₁.finish (w := w) files
    exact ⟨tr ++ more, by rw [hmore, he, List.append_assoc], h₂⟩
  have hbegins := beginsOpened x options consoles w c files s
  rw [h] at hbegins
  cases hbegins with
  | unannounced =>
      refine @hfinish _ [] _ (hbefore.trans (List.append_nil _).symm) ?_
      exact classified_of_unstarted nofun nofun
  | cancelled _ hs hcancelled =>
      rw [hs] at hbefore
      refine @hfinish _ [] _ (hbefore.trans (List.append_nil _).symm) ?_
      refine classified_of_cancelled hcancelled (.inl ⟨rfl, rfl, ?_⟩)
      rintro ⟨argv, own, hmem⟩
      cases hmem
  | unlaunched _ _ hspawn =>
      obtain ⟨more, he, -⟩ := effects_spawn x w c (started x consoles c s)
      rw [hspawn, hbefore] at he
      refine hfinish he ?_
      rcases failure_of_spawn hspawn with ⟨e, rfl⟩ | ⟨fault, rfl⟩
      · exact classified_of_unstarted nofun nofun
      · exact classified_of_unstarted nofun nofun

/-- A relay begins when a child has been started, of which nothing has been seen yet. -/
theorem relaying_of_beginOpened {files files' : Redirects} {r : Relay}
    (h : beginOpened x options consoles w c files s = .relaying files' r) :
    ∃ more, r.session.effects = s.effects ++ .spawning c.argv x.plan.grouped :: more ∧
      (∀ e ∈ more, e.IsCancelled) ∧ r.plan.grouped = x.plan.grouped ∧
      Relay.Course [] [] (fun _ => []) r := by
  have hbegins := beginsOpened x options consoles w c files s
  rw [h] at hbegins
  cases hbegins with
  | @launched s₁ child _ _ hspawn =>
      have hbefore : (started x consoles c s).effects = s.effects := effects_announce ..
      obtain ⟨more, he, hmore⟩ := effects_spawn x w c (started x consoles c s)
      obtain ⟨asked, hasked, hcancelled⟩ :=
        (stirs_relay x consoles w options c files child s₁).effects
      rw [hspawn, hbefore] at he
      refine ⟨more ++ asked, ?_, fun e hmem => ?_, ?_, ?_⟩
      · rw [hasked, he, List.append_assoc]
        rfl
      · exact (List.mem_append.mp hmem).elim (hmore e) (hcancelled e)
      · rw [relay_plan]
      · refine (Relay.starts_listen ..).course fun ch => ?_
        have htree := relay_trees_get x options consoles w c files child s₁ ch
        exact ⟨_, htree⟩

/-- A run whose relay is done is classified by its course. -/
theorem classified_of_relayed {files : Redirects} {r r' : Relay} {turns : List Relay.Turn}
    (hasked : r.session.effects = s.effects ++ .spawning c.argv x.plan.grouped :: more)
    (hmore : ∀ e ∈ more, e.IsCancelled) (hplan : r.plan.grouped = x.plan.grouped)
    (hstart : Relay.Course [] [] (fun _ => []) r) (hf : r.follow turns = some r')
    (hfin : r'.isFinished = true) :
    ∃ tr, (complete x consoles w c files r').1.effects = s.effects ++ tr ∧
      Classified x c
        { refusals := r.refusals turns
          published := r.published turns
          code := r'.child.code?
          unshown := (closingNotice? r').bind (unshown? x consoles · c r'.session) } tr
        (complete x consoles w c files r').1 (complete x consoles w c files r').2 := by
  obtain ⟨done, hdone, hcourse⟩ := hstart.follow hf
  have hkill (group : Bool) : .killed group ∈ .spawning c.argv x.plan.grouped :: more ++ done ↔
      .killed group ∈ done := by
    refine ⟨fun hmem => ?_, List.mem_append_right _⟩
    rcases List.mem_append.mp hmem with hmem | hmem
    · rcases List.mem_cons.mp hmem with heq | hmem
      · cases heq
      · exact absurd rfl ((isAside_of_isCancelled (hmore _ hmem)).2.2 group)
    · exact hmem
  have hcalls : (.spawning c.argv x.plan.grouped :: more ++ done).filterMap Effect.call? =
      done.filterMap Effect.call? := by
    rw [List.filterMap_append, List.filterMap_cons_none rfl, Relay.call?_of_isCancelled hmore,
      List.nil_append]
  have hspawned : HasSpawned (.spawning c.argv x.plan.grouped :: more ++ done) :=
    ⟨_, _, List.mem_cons_self⟩
  have hgrouped : r'.plan.grouped = x.plan.grouped := by
    rw [(Relay.follow_advances hf).plan, hplan]
  have hconclude : Classified x c
      { refusals := r.refusals turns
        published := r.published turns
        code := r'.child.code?
        unshown := (closingNotice? r').bind (unshown? x consoles · c r'.session) }
      (.spawning c.argv x.plan.grouped :: more ++ done)
      (conclude x consoles w c r').1 (conclude x consoles w c r').2 :=
    classified_conclude hcourse (of_decide_eq_true hfin) hgrouped rfl hspawned hkill hcalls
  obtain ⟨closed, hclosed, hfinish⟩ := hconclude.finish (w := w) files
  refine ⟨_, ?_, hfinish⟩
  rw [effects_conclude, hdone, hasked, List.append_assoc, List.append_assoc] at hclosed
  rw [List.append_assoc]
  exact hclosed

/-! ## Outcomes -/

/-- What a run gives that has passed its check and opened its targets, it comes to in some schedule.
In every schedule, whatever the child writes and however it ends, whatever sinks raise and whenever
the cancellation is asked for, its answer is classified by what there was to see of it. -/
theorem outcome_classified {s₁ s₂ : Session} {files : Redirects}
    (hcheck : check ((s.emit (.consulted c.name)).cancelIf w.whileAuthorizing) c.name =
      (s₁, .ok ()))
    (hopen : Redirects.openTargets options.redirect w.fileFaults c s₁ = (s₂, .ok files)) :
    (∀ s' answer, run x options consoles w check c s = some (s', answer) →
      ∃ ev, Ends x options consoles w check c s ev s' answer) ∧
    ∀ ev s' answer, Ends x options consoles w check c s ev s' answer →
      ∃ tr, s'.effects = s₂.effects ++ tr ∧ Classified x c ev tr s' answer := by
  have hbegin : begin x options consoles w check c s =
      beginOpened x options consoles w c files s₂ := by
    unfold begin
    rw [hcheck]
    simp only
    rw [hopen]
  refine ⟨fun s' answer hrun => ?_, fun ev s' answer hends => ?_⟩
  · rw [run_eq_begin] at hrun
    cases hb : begin x options consoles w check c s with
    | ended s'' answer' =>
        rw [hb] at hrun
        obtain ⟨rfl, rfl⟩ := Prod.mk.inj (Option.some.inj hrun)
        exact ⟨_, .early hb⟩
    | relaying files' r =>
        rw [hb] at hrun
        obtain ⟨r', hsettle, hcomplete⟩ := Option.map_eq_some_iff.mp hrun
        obtain ⟨turns, hfollow, hfin⟩ := Relay.exists_follow_of_settle hsettle
        have hends := Ends.relayed turns hb hfollow hfin
        rw [hcomplete] at hends
        exact ⟨_, hends⟩
  · cases hends with
    | early h => exact classified_of_ended (hbegin ▸ h)
    | @relayed files' r r' turns h hf hfin =>
        rw [hbegin] at h
        obtain ⟨asked, hasked, hcancelled, hplan, hstart⟩ := relaying_of_beginOpened h
        exact classified_of_relayed hasked hcancelled hplan hstart hf hfin

/-- A session with a console that fails the first time it is written to. -/
def failing : Session where
  outlets :=
    { sinks := [.console (.recorded { plan := { failAt := some (1, .system .noSpace) } })] }

/-- A child that writes one byte and dies of a signal. -/
def dying : Surroundings where
  launch _ _ :=
    .ok
      { moves := [.output .stdout [104], .close .stdout .quiet, .close .stderr .quiet]
        exitCode := -15 }

/-- Why output was lost, if that is the answer. -/
def lostBy? : Except Failure RunResult → Option ExecutionCause
  | .error (.streamWrite cause _) => some cause
  | _ => none

theorem exists_of_lostBy? {cause : ExecutionCause} (h : lostBy? answer = some cause) :
    ∃ cmd, answer = .error (.streamWrite cause cmd) := by
  unfold lostBy? at h
  split at h
  · exact ⟨_, by rw [Option.some.inj h]⟩
  · cases h

/-- A sink fails and a signal ends the child: the answer is the lost output. -/
theorem outcome_classified_lost :
    ∃ s' answer ev tr,
      run {} { echo := true } ⟨0, 0, 0⟩ dying (fun s _ => (s, .ok ())) sleeping failing =
          some (s', answer) ∧
        lostBy? answer = some (.outputLost "sleep" .noSpace) ∧
        Ends {} { echo := true } ⟨0, 0, 0⟩ dying (fun s _ => (s, .ok ())) sleeping failing ev s'
          answer ∧
        s'.effects = .consulted "sleep" :: tr ∧ .system .noSpace ∈ ev.refusals ∧
        ¬ HasKilled tr := by
  have hrun : (run {} { echo := true } ⟨0, 0, 0⟩ dying (fun s _ => (s, .ok ())) sleeping
      failing).map (fun outcome => lostBy? outcome.2) =
        some (some (.outputLost "sleep" .noSpace)) := by
    decide +kernel
  obtain ⟨⟨s', answer⟩, hrun, hlost⟩ := Option.map_eq_some_iff.mp hrun
  obtain ⟨hends, hclassified⟩ := @outcome_classified {} { echo := true } ⟨0, 0, 0⟩ dying
    (fun s _ => (s, .ok ())) sleeping failing _ _ _ rfl rfl
  obtain ⟨ev, hend⟩ := hends s' answer hrun
  obtain ⟨tr, he, hc⟩ := hclassified ev s' answer hend
  obtain ⟨cmd, rfl⟩ := exists_of_lostBy? hlost
  obtain ⟨⟨e, hraised, hwhy⟩, -, hkilled⟩ := (hc.lost _ cmd).mp rfl
  obtain ⟨-, rfl⟩ := ExecutionCause.outputLost.inj hwhy
  exact ⟨s', _, ev, tr, hrun, hlost, hend, he, hraised, hkilled⟩

end Run

end CommandRelay
