import CommandRelay.Proofs.Relay.Steps

/-!
# Exceptions, kills and the exit of a child

Besides the turns that are made, an exception can come up in the coordinator at any moment at which
it copies output, waits for the child or kills it (`interrupt`). `Reaps` is what holds of a relay
and of its effects whatever happens: the coordinator kills a child only as long as it has not seen
its exit, and it has seen the exit once it goes on to the end.

## Implementation notes

An exception that comes up between the exit of the child and the end of the wait finds the relay
about to discard what is left, so a relay can be interrupted there too.
-/

namespace CommandRelay

/-- Whether the exit of a child has been seen. -/
def Child.isReaped (c : Child) : Bool :=
  match c.life with
  | .reaped _ => true
  | .running | .exited _ => false

namespace Child

variable {c : Child}

theorem isReaped_of_life {c' : Child} (h : c'.life = c.life) : c'.isReaped = c.isReaped := by
  rw [isReaped, h, isReaped]

theorem isReaped_of_code? (h : c.code? = none) : c.isReaped = false := by
  cases hl : c.life <;> simp_all [code?, isReaped]

/-- To reap a child is to see its exit, if it has exited. -/
theorem reap_eq (h : c.code?.isSome = true) :
    c.reap.isReaped = true ∧ (c.isReaped = false →
      ∃ code, c.life = .exited code ∧ c.reap.life = .reaped code) := by
  cases hl : c.life <;> simp_all [code?, reap, isReaped]

/-- A kill may end a child, but does not see its exit. -/
theorem isReaped_kill (c : Child) : c.kill.1.isReaped = c.isReaped := by
  have hend (code : Int) : (c.endEarly code).isReaped = c.isReaped := by
    unfold endEarly
    cases hl : c.life <;> simp [isReaped, hl]
  unfold kill
  split
  · exact hend (-9)
  · split
    · exact hend c.exitCode
    · rfl

end Child

/-- Whether the coordinator goes on to the end. -/
def Phase.isWindingUp : Phase → Bool
  | .discarding _ | .joining .. | .finished => true
  | _ => false

/-- Whether the exit of the child may have been seen in a phase. -/
def Phase.isPast (p : Phase) : Prop :=
  p = .abandoning ∨ p.isWindingUp = true

/-- An effect that says nothing of the child. -/
def Effect.IsSilent (e : Effect) : Prop :=
  e ≠ .reaped ∧ ∀ group, e ≠ .killed group

theorem Effect.IsCancelled.isSilent {e : Effect} (h : e.IsCancelled) : e.IsSilent := by
  obtain ⟨reason, rfl⟩ := h
  exact ⟨nofun, nofun⟩

/-- No kill comes after the exit of the child has been seen. -/
def Effect.KillsFirst (tr : List Effect) : Prop :=
  tr.Pairwise fun e later => e = .reaped → ∀ group, later ≠ .killed group

theorem Effect.KillsFirst.append {tr more : List Effect} (h : KillsFirst tr)
    (hmore : ∀ e ∈ more, e.IsSilent) : KillsFirst (tr ++ more) := by
  unfold KillsFirst
  rw [List.pairwise_append]
  refine ⟨h, ?_, fun _ _ later hlater _ => (hmore later hlater).2⟩
  exact List.Pairwise.imp_of_mem (fun he _ _ hreaped => absurd hreaped (hmore _ he).1)
    (List.pairwise_of_forall fun _ _ => trivial)

namespace Relay

/-! ## Exceptions -/

/-- An exception comes up in the coordinator. One of the system is taken for lost output as long as
output is copied; any other one ends the relay. -/
def interrupt (r : Relay) (fault : AccessFault) : Option Relay :=
  if r.broken.isSome then none
  else
    match r.phase with
    | .checking | .taking | .writing .. | .flushing _ =>
      some (if r.draining then { r with broken := some fault, phase := .abandoning }
        else r.lose fault)
    | .waiting _ | .stopping | .reaping | .discarding _ =>
      some { r with broken := some fault, phase := .abandoning }
    | .abandoning | .joining .. | .finished => none

/-- What can happen to a relay: somebody makes a turn, or an exception comes up. -/
inductive Occurrence where
  | turn (t : Turn)
  | exception (fault : AccessFault)
  deriving DecidableEq, Repr

/-- A relay to which something happens, if it can. -/
def meet (r : Relay) : Occurrence → Option Relay
  | .turn t => r.turn t
  | .exception fault => r.interrupt fault

/-- A relay to which one thing after another happens. -/
def pursue (r : Relay) : List Occurrence → Option Relay
  | [] => some r
  | o :: os => (r.meet o).bind fun r => r.pursue os

/-- A schedule is what happens if no exception comes up. -/
theorem pursue_map_turn (r : Relay) (ts : List Turn) :
    r.pursue (ts.map .turn) = r.follow ts := by
  induction ts generalizing r with
  | nil => rfl
  | cons t ts ih =>
      have hrest (next : Relay) : next.pursue (ts.map .turn) = next.follow ts := ih next
      simp only [List.map_cons, pursue, follow, meet, hrest]

variable {r r₁ r' : Relay} {tr more : List Effect}

theorem lose_eq (r : Relay) (fault : AccessFault) :
    ((r.lose fault).phase = .checking ∨ (r.lose fault).phase = .abandoning) ∧
      (r.lose fault).child = r.child ∧
      (r.lose fault).session.effects = r.session.effects := by
  cases fault with
  | system e => exact ⟨.inl rfl, rfl, rfl⟩
  | unencodable | invalid | endless | unsupported => exact ⟨.inr rfl, rfl, rfl⟩

/-- An exception ends the relay, or is taken for lost output before any exit is seen. -/
theorem interrupt_eq_some {fault : AccessFault} (h : r.interrupt fault = some r₁) :
    r₁ = { r with broken := some fault, phase := .abandoning } ∨
      ¬ r.phase.isPast ∧ r₁ = r.lose fault := by
  unfold interrupt at h
  split at h
  · cases h
  · split at h
    case h_1 hp | h_2 hp | h_3 hp | h_4 hp =>
      obtain rfl := Option.some.inj h
      split
      · exact .inl rfl
      · exact .inr ⟨by simp [hp, Phase.isPast, Phase.isWindingUp], rfl⟩
    case h_5 | h_6 | h_7 | h_8 => exact .inl (Option.some.inj h).symm
    case h_9 | h_10 | h_11 => cases h

/-! ## Kills come before the exit is seen -/

/-- A relay that has had some effects since its child was started. -/
structure Reaps (tr : List Effect) (r : Relay) : Prop where
  order : Effect.KillsFirst tr
  reaped : .reaped ∈ tr ↔ r.child.isReaped = true
  past : r.child.isReaped = true → r.phase.isPast
  done : r.phase.isWindingUp = true → r.child.isReaped = true

/-- Nothing is said of the child, and the coordinator comes no closer to a kill. -/
theorem Reaps.move (h : Reaps tr r) (hmore : ∀ e ∈ more, e.IsSilent)
    (hchild : r₁.child.isReaped = r.child.isReaped)
    (hpast : r.child.isReaped = true → r.phase.isPast → r₁.phase.isPast)
    (hdone : r₁.phase.isWindingUp = true → r.phase.isWindingUp = true) :
    Reaps (tr ++ more) r₁ := by
  refine ⟨h.order.append hmore, ?_, ?_, ?_⟩
  · rw [List.mem_append, hchild, ← h.reaped]
    exact ⟨fun hmem => hmem.resolve_right fun he => (hmore _ he).1 rfl, .inl⟩
  · rw [hchild]
    exact fun hreaped => hpast hreaped (h.past hreaped)
  · rw [hchild]
    exact fun hp => h.done (hdone hp)

/-- A kill comes before the exit is seen. -/
theorem Reaps.kill {child : Child} {s : Session} {group : Bool} (h : Reaps tr r)
    (hp : r.phase = .stopping) (hchild : child.isReaped = r.child.isReaped) :
    Reaps (tr ++ [.killed group]) { r with child, session := s, phase := .reaping } := by
  have hlive : r.child.isReaped = false := by
    refine Bool.eq_false_iff.mpr fun hreaped => ?_
    have hpast := h.past hreaped
    rw [hp] at hpast
    simp [Phase.isPast, Phase.isWindingUp] at hpast
  have hnone : .reaped ∉ tr := by
    rw [h.reaped, hlive]
    exact Bool.false_ne_true
  refine ⟨?_, ?_, ?_, nofun⟩
  · unfold Effect.KillsFirst
    rw [List.pairwise_append]
    refine ⟨h.order, List.pairwise_singleton .., ?_⟩
    rintro e he later - rfl
    exact absurd he hnone
  · rw [List.mem_append, hchild, hlive]
    simp [hnone]
  · rw [hchild, hlive]
    exact nofun

/-- The exit is seen, and the coordinator goes on to the end. -/
theorem Reaps.reap {child : Child} {s : Session} {p : Phase} (h : Reaps tr r)
    (hchild : child.isReaped = true) (hp : p.isWindingUp = true) :
    Reaps (tr ++ [.reaped]) { r with child, session := s, phase := p } := by
  refine ⟨?_, ?_, fun _ => .inr hp, fun _ => hchild⟩
  · unfold Effect.KillsFirst
    rw [List.pairwise_append]
    refine ⟨h.order, List.pairwise_singleton .., ?_⟩
    rintro e - later hlater -
    obtain rfl := List.mem_singleton.mp hlater
    exact nofun
  · simp [hchild]

/-- A coordinator that has seen no exit and goes back to where it sees none. -/
theorem Reaps.step (h : Reaps tr r) (he : r₁.session.effects = r.session.effects ++ more)
    (hmore : ∀ e ∈ more, e.IsSilent) (hchild : r₁.child = r.child)
    (hpast : r.child.isReaped = true → r.phase.isPast → r₁.phase.isPast)
    (hdone : r₁.phase.isWindingUp = true → r.phase.isWindingUp = true) :
    ∃ more, r₁.session.effects = r.session.effects ++ more ∧ Reaps (tr ++ more) r₁ :=
  ⟨more, he, h.move hmore (by rw [hchild]) hpast hdone⟩

theorem Reaps.coordinates (h : Reaps tr r) (hc : r.Coordinates r₁) :
    ∃ more, r₁.session.effects = r.session.effects ++ more ∧ Reaps (tr ++ more) r₁ := by
  have hsilent (e : Effect) (he : e.IsSilent) : ∀ d ∈ [e], d.IsSilent := by
    simpa using he
  cases hc with
  | look hp | lookAgain hp | takeCancelled hp | takeEnd hp | takeChunk hp | dropChunk hp =>
      refine h.step (List.append_nil _).symm nofun rfl ?_ nofun
      simp [hp, Phase.isPast, Phase.isWindingUp]
  | wait hp =>
      refine h.step (List.append_nil _).symm nofun rfl ?_ nofun
      rcases hp with ⟨hp, -⟩ | ⟨hp, -⟩ <;> simp [hp, Phase.isPast, Phase.isWindingUp]
  | stop hp =>
      refine h.step (List.append_nil _).symm nofun rfl ?_ nofun
      rcases hp with ⟨hp, -⟩ | ⟨hp, -⟩ <;> simp [hp, Phase.isPast, Phase.isWindingUp]
  | write hp | flush hp =>
      refine h.step rfl (hsilent _ ⟨nofun, nofun⟩) rfl ?_ nofun
      simp [hp, Phase.isPast, Phase.isWindingUp]
  | @writeFault _ _ _ fault hp | @flushFault _ _ fault hp =>
      obtain ⟨hphase, hchild, he⟩ := lose_eq { r with session := r.session.answered _ _ } fault
      refine h.step he (hsilent _ ⟨nofun, nofun⟩) hchild ?_ ?_
      · simp [hp, Phase.isPast, Phase.isWindingUp]
      · rcases hphase with hphase | hphase <;> simp [hphase, Phase.isWindingUp]
  | abandon hp hcode =>
      refine h.step (List.append_nil _).symm nofun rfl (fun hreaped => ?_) nofun
      rw [Child.isReaped_of_code? hcode] at hreaped
      cases hreaped
  | kill hp hs => exact ⟨_, hs.effects, h.kill hp (Child.isReaped_kill _)⟩
  | reap hp hcode hs =>
      refine ⟨_, hs.effects, h.reap (Child.reap_eq hcode).1 ?_⟩
      split <;> rfl
  | discardEnd hp | discard hp =>
      exact h.step (List.append_nil _).symm nofun rfl (fun _ => id) id
  | discarded hp =>
      exact h.step (List.append_nil _).symm nofun rfl (fun _ _ => .inr rfl) fun _ => by rw [hp]; rfl
  | @join ch _ _ hp hs =>
      refine h.step hs.effects nofun rfl (fun _ _ => .inr ?_) fun _ => by rw [hp]; rfl
      cases ch <;> rfl

theorem isPast_elapse (time : Nat) (p : Phase) : (Phase.elapse time p).isPast ↔ p.isPast := by
  cases p <;> simp [Phase.elapse, Phase.isPast, Phase.isWindingUp]

theorem isWindingUp_elapse (time : Nat) (p : Phase) :
    (Phase.elapse time p).isWindingUp = p.isWindingUp := by
  cases p <;> rfl

theorem Surrounds.isReaped (hs : r.Surrounds r₁) : r₁.child.isReaped = r.child.isReaped := by
  rcases hs.life with hl | ⟨hl, hl'⟩
  · exact Child.isReaped_of_life hl
  · rw [Child.isReaped, hl', Child.isReaped, hl]

theorem Reaps.surrounds (h : Reaps tr r) (hs : r.Surrounds r₁) :
    ∃ more, r₁.session.effects = r.session.effects ++ more ∧ Reaps (tr ++ more) r₁ := by
  obtain ⟨more, he, hmore⟩ := hs.effects
  refine ⟨more, he, h.move (fun e hmem => (hmore e hmem).isSilent) hs.isReaped ?_ ?_⟩
  · rcases hs.phase with hp | ⟨time, hp⟩
    · rw [hp]
      exact fun _ => id
    · rw [hp, isPast_elapse]
      exact fun _ => id
  · rw [hs.phase_eq isWindingUp_elapse]
    exact id

theorem Reaps.interrupt {fault : AccessFault} (h : Reaps tr r)
    (hi : r.interrupt fault = some r₁) :
    ∃ more, r₁.session.effects = r.session.effects ++ more ∧ Reaps (tr ++ more) r₁ := by
  rcases interrupt_eq_some hi with rfl | ⟨hp, rfl⟩
  · exact h.step (List.append_nil _).symm nofun rfl (fun _ _ => .inl rfl) nofun
  · obtain ⟨hphase, hchild, he⟩ := lose_eq r fault
    refine h.step (he.trans (List.append_nil _).symm) nofun hchild (fun _ hpast => ?_) ?_
    · exact absurd hpast hp
    · rcases hphase with hphase | hphase <;> simp [hphase, Phase.isWindingUp]

theorem Reaps.meet {o : Occurrence} (h : Reaps tr r) (ho : r.meet o = some r₁) :
    ∃ more, r₁.session.effects = r.session.effects ++ more ∧ Reaps (tr ++ more) r₁ := by
  have hthen {r₂ r₃ : Relay} (h₂ : ∃ more, r₂.session.effects = r.session.effects ++ more ∧
      Reaps (tr ++ more) r₂) (hs : r₂.Surrounds r₃) :
      ∃ more, r₃.session.effects = r.session.effects ++ more ∧ Reaps (tr ++ more) r₃ := by
    obtain ⟨more, he, h₂⟩ := h₂
    obtain ⟨more', he', h₃⟩ := h₂.surrounds hs
    rw [List.append_assoc] at h₃
    exact ⟨more ++ more', by rw [he', he, List.append_assoc], h₃⟩
  cases o with
  | exception fault => exact h.interrupt ho
  | turn t =>
      rcases step_of_turn ho with ⟨-, r₂, hc, hs⟩ | ⟨r₂, ha, hs⟩
      · exact hthen (h.coordinates hc) hs.surrounds
      · exact hthen (h.surrounds ha.surrounds) hs.surrounds

/-- Whatever happens to a relay that has seen no exit yet, a kill comes before the exit is seen,
and the coordinator is not done before that. -/
theorem Reaps.pursue {os : List Occurrence} (h : Reaps tr r) (ho : r.pursue os = some r') :
    ∃ more, r'.session.effects = r.session.effects ++ more ∧ Reaps (tr ++ more) r' := by
  induction os generalizing r tr with
  | nil =>
      obtain rfl := Option.some.inj ho
      exact ⟨[], (List.append_nil _).symm, by rwa [List.append_nil]⟩
  | cons o os ih =>
      obtain ⟨next, hnext, hrest⟩ := Option.bind_eq_some_iff.mp ho
      obtain ⟨more, he, h₁⟩ := h.meet hnext
      obtain ⟨more', he', h₂⟩ := ih h₁ hrest
      rw [List.append_assoc] at h₂
      exact ⟨more ++ more', by rw [he', he, List.append_assoc], h₂⟩

/-- Whatever the coordinator does to a child, it sees only an exit that there has been. -/
theorem Coordinates.life (hc : r.Coordinates r₁) (hlive : r.child.isReaped = false)
    (hreaped : r₁.child.isReaped = true) :
    ∃ code, r.child.life = .exited code ∧ r₁.child.life = .reaped code := by
  have hsame (hchild : r₁.child.isReaped = r.child.isReaped) : False := by
    rw [hchild, hlive] at hreaped
    cases hreaped
  cases hc with
  | reap hp hcode => exact (Child.reap_eq hcode).2 hlive
  | kill => exact (hsame (Child.isReaped_kill _)).elim
  | @writeFault _ _ _ fault | @flushFault _ _ fault =>
      exact (hsame (congrArg Child.isReaped (lose_eq _ fault).2.1)).elim
  | _ => exact (hsame rfl).elim

/-- Only the coordinator sees the exit of a child, and only one that there has been. -/
theorem life_of_meet {o : Occurrence} (ho : r.meet o = some r') (hlive : r.child.isReaped = false)
    (hreaped : r'.child.isReaped = true) :
    o = .turn .coordinator ∧
      ∃ code, r.child.life = .exited code ∧ r'.child.life = .reaped code := by
  cases o with
  | exception fault =>
      have hchild : r'.child = r.child := by
        rcases interrupt_eq_some ho with rfl | ⟨-, rfl⟩
        · rfl
        · exact (lose_eq r fault).2.1
      rw [hchild, hlive] at hreaped
      cases hreaped
  | turn t =>
      rcases step_of_turn ho with ⟨rfl, r₂, hc, hs⟩ | ⟨r₂, ha, hs⟩
      · have hchild : r'.child = r₂.child := by rw [hs.rest]
        rw [hchild] at hreaped ⊢
        exact ⟨rfl, hc.life hlive hreaped⟩
      · rw [hs.surrounds.isReaped, ha.surrounds.isReaped, hlive] at hreaped
        cases hreaped

end Relay

end CommandRelay
