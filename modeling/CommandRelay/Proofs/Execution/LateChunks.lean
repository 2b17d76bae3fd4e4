import CommandRelay.Proofs.Execution.Outcome
import CommandRelay.Proofs.Relay.Allowance

/-!
# Chunks after a request to cancel

A request to cancel may come in at any moment of a run: before the relay listens to it, while the
queue is full, so that the event which would wake the coordinator is dropped, or between any two
turns, also after output was lost. In every schedule at most one more chunk is written to the sinks
(`late_chunks_le_one`), and once the coordinator has stopped the copying for the cancellation, no
sink is called again.
-/

namespace CommandRelay

namespace Run

variable {x : Executor} {options : RunOptions} {consoles : Consoles} {w : Surroundings}
  {check : Check} {c : Command} {s s' s₁ s₂ : Session} {files files' : Redirects}
  {r r' : Relay}

/-! ## Before the relay -/

/-- Requests may come in while the child is started. -/
theorem stirs_spawn {child : Child} (h : spawn x w c s = (s', .ok child)) :
    (s.emit (.spawning c.argv x.plan.grouped)).Stirs s' := by
  unfold spawn at h
  simp only at h
  split at h
  · obtain ⟨rfl, -⟩ := Prod.mk.inj h
    exact Session.stirs_cancelIf _ _
  · cases (Prod.mk.inj h).2
  · cases (Prod.mk.inj h).2

theorem countP_isWrite_of_isClosed {closed : List Effect} (h : ∀ e ∈ closed, e.IsClosed) :
    closed.countP Effect.isWrite = 0 := by
  refine List.countP_eq_zero.mpr fun e he => ?_
  obtain ⟨path, rfl⟩ := h e he
  exact Bool.false_ne_true

/-- A run that is over before there is a relay has written nothing. -/
theorem no_write_of_ended {answer : Except Failure RunResult}
    (h : beginOpened x options consoles w c files s = .ended s' answer) :
    ∃ tr, s'.effects = s.effects ++ tr ∧ tr.countP Effect.isWrite = 0 := by
  have hbefore : (started x consoles c s).effects = s.effects := effects_announce ..
  have hfinish {s₁ : Session} {answer : Except Failure RunResult} (tr : List Effect)
      (he : s₁.effects = s.effects ++ tr) (hnone : tr.countP Effect.isWrite = 0) :
      ∃ tr, (finish w files s₁ answer).1.effects = s.effects ++ tr ∧
        tr.countP Effect.isWrite = 0 := by
    obtain ⟨closed, hclosed, hall⟩ := (finish_closes w files s₁ answer).effects
    refine ⟨tr ++ closed, by rw [hclosed, he, List.append_assoc], ?_⟩
    rw [List.countP_append, hnone, countP_isWrite_of_isClosed hall]
  have hbegins := beginsOpened x options consoles w c files s
  rw [h] at hbegins
  cases hbegins with
  | unannounced => exact hfinish [] (hbefore.trans (List.append_nil _).symm) rfl
  | cancelled _ hs =>
      rw [hs] at hbefore
      exact hfinish [] (hbefore.trans (List.append_nil _).symm) rfl
  | unlaunched _ _ hspawn =>
      obtain ⟨asked, he, hasked⟩ := effects_spawn x w c (started x consoles c s)
      rw [hspawn, hbefore] at he
      refine hfinish _ he ?_
      rw [List.countP_cons_of_neg Bool.false_ne_true]
      exact Effect.countP_isWrite_of_isCancelled hasked

/-- When the relay begins, nothing has been written, and a request that has come in by then is known
to the coordinator before it takes anything. -/
theorem cutOff_of_beginOpened
    (h : beginOpened x options consoles w c files s = .relaying files' r) :
    s.isCancelled = false ∧
      ∃ tr, r.session.effects = s.effects ++ tr ∧ tr.countP Effect.isWrite = 0 ∧
        Relay.CutOff tr r ∧ Relay.Course [] [] (fun _ => []) r := by
  obtain ⟨asked, he, hasked, -, hcourse⟩ := relaying_of_beginOpened h
  have hnone : (.spawning c.argv x.plan.grouped :: asked).countP Effect.isWrite = 0 := by
    rw [List.countP_cons_of_neg Bool.false_ne_true]
    exact Effect.countP_isWrite_of_isCancelled hasked
  have hbegins := beginsOpened x options consoles w c files s
  rw [h] at hbegins
  cases hbegins with
  | @launched s₁ child _ hgo hspawn =>
      have hstarted : (started x consoles c s).effects = s.effects := effects_announce ..
      have hstirs := (stirs_spawn hspawn).trans (stirs_relay x consoles w options c files child s₁)
      have hphase : (relay x options consoles w c files child s₁).phase = .checking :=
        (Relay.starts_listen ..).phase
      refine ⟨?_, _, he, hnone, ⟨fun reason hmem => ?_, fun reason _ => ?_⟩, hcourse⟩
      · have hsame : (started x consoles c s).cancellation = s.cancellation :=
          cancellation_announce ..
        rw [Session.isCancelled, ← hsame]
        exact hgo
      · refine Decidable.byContradiction fun hquiet => ?_
        have hsame := hstirs.quiet (Bool.eq_false_iff.mpr hquiet)
        rw [Session.emit, hstarted] at hsame
        have htr := List.append_cancel_left (hsame.symm.trans he)
        rw [← htr] at hmem
        cases List.mem_singleton.mp hmem
      · have hle := Effect.lateWrites_le (.spawning c.argv x.plan.grouped :: asked)
        rw [hnone] at hle
        rw [hphase]
        exact Nat.le_trans hle (Nat.zero_le 1)

/-! ## In every schedule -/

/-- A trace in which a request to cancel leaves room for one chunk at most; there is none if the
cancellation had been asked for before. -/
structure WritesLate (fired : Bool) (tr : List Effect) : Prop where
  early : fired = true → tr.countP Effect.isWrite = 0
  late : Effect.lateWrites tr ≤ 1

theorem WritesLate.append {fired : Bool} {tr closed : List Effect} (h : WritesLate fired tr)
    (hclosed : ∀ e ∈ closed, e.IsClosed) : WritesLate fired (tr ++ closed) := by
  have hnone := countP_isWrite_of_isClosed hclosed
  refine ⟨fun hfired => ?_, ?_⟩
  · rw [List.countP_append, h.early hfired, hnone]
  · have hle := Effect.lateWrites_append_le tr closed
    rw [hnone] at hle
    exact Nat.le_trans hle h.late

theorem writesLate_of_no_write {fired : Bool} {tr : List Effect}
    (h : tr.countP Effect.isWrite = 0) : WritesLate fired tr :=
  ⟨fun _ => h, Nat.le_trans (Nat.le_trans (Effect.lateWrites_le tr) (Nat.le_of_eq h)) (by decide)⟩

/-- Every moment of a relay of which the targets were opened. -/
theorem writesLate_of_follow {ts : List Relay.Turn}
    (h : beginOpened x options consoles w c files s = .relaying files' r)
    (hf : r.follow ts = some r') :
    ∃ tr, r'.session.effects = s.effects ++ tr ∧ WritesLate s.isCancelled tr := by
  obtain ⟨hgo, tr, he, -, hcut, -⟩ := cutOff_of_beginOpened h
  obtain ⟨more, he', hcut'⟩ := hcut.follow hf
  refine ⟨tr ++ more, by rw [he', he, List.append_assoc], fun hfired => ?_, hcut'.lateWrites_le⟩
  rw [hgo] at hfired
  cases hfired

theorem writesLate_of_reached {answer : Option (Except Failure RunResult)}
    (hbegin : begin x options consoles w check c s = beginOpened x options consoles w c files s₂)
    (h : Reached x options consoles w check c s s' answer) :
    ∃ tr, s'.effects = s₂.effects ++ tr ∧ WritesLate s₂.isCancelled tr := by
  cases h with
  | ended h =>
      obtain ⟨tr, he, hnone⟩ := no_write_of_ended (hbegin.symm.trans h)
      exact ⟨tr, he, writesLate_of_no_write hnone⟩
  | relaying turns h hf => exact writesLate_of_follow (hbegin.symm.trans h) hf
  | @done files' r r' turns h hf hfin =>
      obtain ⟨tr, he, hlate⟩ := writesLate_of_follow (hbegin.symm.trans h) hf
      obtain ⟨closed, hclosed, hall⟩ := (complete_closes x consoles w c files' r').effects
      exact ⟨tr ++ closed, by rw [hclosed, he, List.append_assoc], hlate.append hall⟩

/-- At most one chunk is written after the cancellation has been asked for, at whatever moment of a
run that is, in whatever schedule: none if the relay has not begun or the coordinator is not about
to take or to write one. The coordinator leaves the copying for a stop only once the cancellation
has been asked for, and once it has stopped, it calls no sink any more. -/
theorem late_chunks_le_one
    (hcheck : check ((s.emit (.consulted c.name)).cancelIf w.whileAuthorizing) c.name =
      (s₁, .ok ()))
    (hopen : Redirects.openTargets options.redirect w.fileFaults c s₁ = (s₂, .ok files)) :
    (∀ s' answer, Reached x options consoles w check c s s' answer →
      ∃ tr, s'.effects = s₂.effects ++ tr ∧
        (s₂.isCancelled = true → tr.countP Effect.isWrite = 0) ∧
        ∀ before reason after, tr = before ++ .cancelled reason :: after →
          after.countP Effect.isWrite ≤ 1) ∧
    ∀ files' r ts r', begin x options consoles w check c s = .relaying files' r →
      r.follow ts = some r' →
      (r.session.isCancelled = true → ∃ tr, r'.session.effects = r.session.effects ++ tr ∧
        tr.countP Effect.isWrite = 0) ∧
      (r'.session.isCancelled = true → ∀ later r'', r'.follow later = some r'' →
        ∃ more, r''.session.effects = r'.session.effects ++ more ∧
          more.countP Effect.isWrite ≤ r'.phase.allowance) ∧
      (∀ t next, r'.turn t = some next → r'.phase.isCopying = true → next.phase = .stopping →
        r'.session.isCancelled = true ∧ next.stopped = true) ∧
      (r'.stopped = true → r'.session.isCancelled = true ∧
        ∀ later r'', r'.follow later = some r'' →
          ∃ more, r''.session.effects = r'.session.effects ++ more ∧
            more.filterMap Effect.call? = []) := by
  have hbegin : begin x options consoles w check c s =
      beginOpened x options consoles w c files s₂ := begin_of_opened hcheck hopen
  constructor
  · intro s' answer hreached
    obtain ⟨tr, he, hlate⟩ := writesLate_of_reached hbegin hreached
    refine ⟨tr, he, hlate.early, ?_⟩
    rintro before reason after rfl
    exact Nat.le_trans (Effect.countP_le_lateWrites before after reason) hlate.late
  · intro files' r ts r' h hf
    obtain ⟨-, -, -, -, -, hcourse⟩ := cutOff_of_beginOpened (hbegin.symm.trans h)
    obtain ⟨tr, -, hcourse'⟩ := hcourse.follow hf
    have hstarts : r.Starts := starts_of_begin h
    refine ⟨fun hc => ?_, fun hc later r'' hlater => ?_, fun t next ht hcopy hstop => ?_,
      fun hs => ⟨(hcourse'.halted.stopped hs).1, fun later r'' hlater => ?_⟩⟩
    · obtain ⟨tr, he, hle⟩ := Relay.follow_allowance hc hf
      rw [hstarts.phase] at hle
      exact ⟨tr, he, Nat.le_zero.mp (Nat.le_trans (Nat.le_add_right ..) hle)⟩
    · obtain ⟨more, he, hle⟩ := Relay.follow_allowance hc hlater
      exact ⟨more, he, Nat.le_trans (Nat.le_add_right ..) hle⟩
    · exact Relay.stops_of_turn hcourse'.halted.asked ht hcopy hstop
    · have hleft : r'.phase.isCopying = false := by
        refine Relay.isCopying_of_stopped (fun hnone => ?_) hf hs
        rw [hstarts.stopped] at hnone
        cases hnone
      exact Relay.follow_no_call hleft hlater

/-! ## A request that is dropped -/

/-- Whether a run begins with a relay that a schedule leads to a property. -/
def Beginning.leads (b : Beginning) (ts : List Relay.Turn) (p : Relay → Relay → Prop)
    [∀ r r', Decidable (p r r')] : Bool :=
  match b with
  | .ended .. => false
  | .relaying _ r => (r.follow ts).any fun r' => p r r'

theorem Beginning.exists_of_leads {b : Beginning} {ts : List Relay.Turn}
    {p : Relay → Relay → Prop} [∀ r r', Decidable (p r r')] (h : b.leads ts p = true) :
    ∃ files r r', b = .relaying files r ∧ r.follow ts = some r' ∧ p r r' := by
  cases b with
  | ended => cases h
  | relaying files r =>
      obtain ⟨r', hf, hp⟩ := (Option.any_eq_true ..).mp h
      exact ⟨files, r, r', rfl, hf, of_decide_eq_true hp⟩

/-- The beginning of a run that echoes the two channels to one console, with a queue for one
event. -/
def crowded : Beginning :=
  begin narrow { echo := true } ⟨0, 0, 0⟩ (starting remarks) (fun s _ => (s, .ok ())) sleeping
    { outlets := { sinks := [.console (.recorded {})] } }

/-- A chunk fills the queue, the coordinator is about to take it, and a request comes in. -/
def untimely : List Relay.Turn :=
  [.child, .reader .stdout, .reader .stdout, .coordinator, .cancel "late", .coordinator,
    .coordinator, .coordinator, .coordinator]

/-- The full queue keeps out the event of the request; one chunk is written after it, and then the
coordinator stops. -/
theorem late_chunks_le_one_untimely :
    ∃ files r r', crowded = .relaying files r ∧ r.follow untimely = some r' ∧
      r'.session.effects = r.session.effects ++
        [.cancelled "late", .wrote .stdout [104, 10], .flushed .stdout] ∧
      r'.queue = [] ∧ r'.stopped = true ∧
      ∀ later r'', r'.follow later = some r'' →
        ∃ more, r''.session.effects = r'.session.effects ++ more ∧
          more.filterMap Effect.call? = [] := by
  have hrun : crowded.leads untimely fun r r' =>
      r'.session.effects = r.session.effects ++
        [.cancelled "late", .wrote .stdout [104, 10], .flushed .stdout] ∧
        r'.queue = [] ∧ r'.stopped = true := by
    decide +kernel
  obtain ⟨files, r, r', hb, hf, he, hq, hs⟩ := Beginning.exists_of_leads hrun
  obtain ⟨-, hrelay⟩ := @late_chunks_le_one narrow { echo := true } ⟨0, 0, 0⟩ (starting remarks)
    (fun s _ => (s, .ok ())) sleeping
    { outlets := { sinks := [.console (.recorded {})] } } _ _ _ rfl rfl
  obtain ⟨-, -, -, hstopped⟩ := hrelay files r untimely r' hb hf
  exact ⟨files, r, r', hb, hf, he, hq, hs, (hstopped hs).2⟩

end Run

end CommandRelay
