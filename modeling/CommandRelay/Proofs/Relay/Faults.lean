import CommandRelay.Proofs.Relay.Conveyance
import CommandRelay.Proofs.Sink.Refusal

/-!
# What sinks raise in a relay

The first fault that a sink raises settles how the coordinator goes on, and it calls no sink after
that. An error of the system has what is left drained, and any other fault ends the relay.
`Faulted` says so of a relay and of the faults that its sinks have raised so far.
-/

namespace CommandRelay

/-- Whether the coordinator may be in a phase once a fault has ended the relay. -/
def Phase.isBreakingOff : Phase → Bool
  | .abandoning | .stopping | .reaping | .finished => true
  | _ => false

namespace Relay

/-- What the sinks raise that the coordinator calls in its next turn. -/
def refused? (r : Relay) : Option AccessFault :=
  r.phase.call?.bind fun (ch, call) =>
    Outlets.firstRefusal? call (r.trees.get ch).leaves r.session.outlets

variable {r r₁ : Relay} {faults : List AccessFault}

/-- What sinks have raised: an error of the system has the rest drained, any other fault has ended
the relay, and after either nothing is written any more. -/
structure Faulted (faults : List AccessFault) (r : Relay) : Prop where
  raised : faults = (r.lost.map .system).toList ++ r.broken.toList
  draining : r.draining = r.lost.isSome
  silent : faults ≠ [] → r.phase.call? = none
  broken : ∀ fault, r.broken = some fault →
    r.lost = none ∧ (∀ e, fault ≠ .system e) ∧ r.phase.isBreakingOff = true

/-- As long as the coordinator writes, nothing has been raised. -/
theorem Faulted.eq_nil (h : Faulted faults r) (hcall : r.phase.call? ≠ none) :
    faults = [] ∧ r.lost = none ∧ r.broken = none := by
  have hnil : faults = [] := Decidable.byContradiction fun hne => hcall (h.silent hne)
  have hparts := h.raised
  rw [hnil] at hparts
  obtain ⟨hlost, hbroken⟩ := List.append_eq_nil_iff.mp hparts.symm
  exact ⟨hnil, by simpa using hlost, by simpa using hbroken⟩

theorem call?_elapse (time : Nat) (p : Phase) : (Phase.elapse time p).call? = p.call? := by
  cases p <;> rfl

theorem isBreakingOff_elapse (time : Nat) (p : Phase) :
    (Phase.elapse time p).isBreakingOff = p.isBreakingOff := by
  cases p <;> rfl

theorem Faulted.surrounds (h : Faulted faults r) (hs : r.Surrounds r₁) : Faulted faults r₁ where
  raised := by rw [hs.lost, hs.broken]; exact h.raised
  draining := by rw [hs.draining, hs.lost]; exact h.draining
  silent := by rw [hs.phase_eq call?_elapse]; exact h.silent
  broken := by rw [hs.broken, hs.lost, hs.phase_eq isBreakingOff_elapse]; exact h.broken

/-- A sink has raised something, which settles how the relay goes on. -/
theorem Faulted.lose {fault : AccessFault} {s : Session} (h : Faulted faults r)
    (hcall : r.phase.call? ≠ none) :
    Faulted (faults ++ [fault]) (({ r with session := s } : Relay).lose fault) := by
  obtain ⟨rfl, hlost, hbroken⟩ := h.eq_nil hcall
  cases fault with
  | system e =>
      exact ⟨by simp [Relay.lose, hbroken], rfl, fun _ => rfl, fun fault hf => by
        cases hbroken.symm.trans hf⟩
  | unencodable | invalid | endless | unsupported =>
      refine ⟨by simp [Relay.lose, hlost], h.draining, fun _ => rfl, fun fault hf => ?_⟩
      obtain rfl := Option.some.inj hf
      refine ⟨hlost, fun e he => ?_, rfl⟩
      cases he

/-- Nothing is raised, and the coordinator does not begin to write after a fault. -/
theorem Faulted.step (h : Faulted faults r) (hr : r.refused? = none) (hl : r₁.lost = r.lost)
    (hb : r₁.broken = r.broken) (hd : r₁.draining = r.draining)
    (hcall : faults ≠ [] → r₁.phase.call? = none)
    (hphase : r.broken.isSome = true → r.phase.isBreakingOff = true →
      r₁.phase.isBreakingOff = true) :
    Faulted (faults ++ r.refused?.toList) r₁ := by
  rw [hr, Option.toList_none, List.append_nil]
  refine ⟨by rw [hl, hb]; exact h.raised, by rw [hd, hl]; exact h.draining, hcall, ?_⟩
  intro fault hf
  rw [hb] at hf
  obtain ⟨hlost, hsystem, hp⟩ := h.broken fault hf
  exact ⟨hl.trans hlost, hsystem, hphase (by rw [hf]; rfl) hp⟩

theorem refused?_of_writing {ch : Channel} {data : Bytes} {fault : AccessFault}
    (hrow : ∀ ch, (r.trees.get ch).IsRow) (hp : r.phase = .writing ch data) :
    r.refused? = some fault ↔
      ((r.trees.get ch).write data r.session.outlets).2 = .error fault := by
  rw [(hrow ch).write_eq_error_iff, refused?, hp]
  rfl

theorem refused?_of_flushing {ch : Channel} {fault : AccessFault}
    (hrow : ∀ ch, (r.trees.get ch).IsRow) (hp : r.phase = .flushing ch) :
    r.refused? = some fault ↔ ((r.trees.get ch).flush r.session.outlets).2 = .error fault := by
  rw [(hrow ch).flush_eq_error_iff, refused?, hp]
  rfl

theorem Faulted.coordinates (h : Faulted faults r) (hrow : ∀ ch, (r.trees.get ch).IsRow)
    (hc : r.Coordinates r₁) : Faulted (faults ++ r.refused?.toList) r₁ := by
  have hcalm (hcall : r.phase.call? = none) : r.refused? = none := by
    rw [refused?, hcall]
    rfl
  cases hc with
  | look hp | lookAgain hp | takeEnd hp | dropChunk hp | takeCancelled hp =>
      exact h.step (hcalm (by rw [hp]; rfl)) rfl rfl rfl (fun _ => rfl) (by rw [hp]; nofun)
  | wait hp | stop hp =>
      rcases hp with ⟨hp, -⟩ | ⟨hp, -⟩ <;>
        exact h.step (hcalm (by rw [hp]; rfl)) rfl rfl rfl (fun _ => rfl) (by rw [hp]; nofun)
  | takeChunk hp hq hd =>
      refine h.step (hcalm (by rw [hp]; rfl)) rfl rfl rfl (fun hne => ?_) (by rw [hp]; nofun)
      -- Nothing is lost, and what breaks a relay off leaves no event to be taken.
      have hlost : r.lost = none := by simpa [hd] using h.draining
      have hbroken : r.broken = none := by
        refine Option.eq_none_iff_forall_ne_some.mpr fun fault hf => ?_
        have hbreaking := (h.broken fault hf).2.2
        rw [hp] at hbreaking
        cases hbreaking
      rw [h.raised, hlost, hbroken] at hne
      exact absurd rfl hne
  | write hp hw =>
      have hnone : r.refused? = none := Option.eq_none_iff_forall_ne_some.mpr fun fault hf => by
        rw [refused?_of_writing hrow hp, hw] at hf
        cases hf
      have hnil := (h.eq_nil (by rw [hp]; nofun)).1
      exact h.step hnone rfl rfl rfl (fun hne => absurd hnil hne) (by rw [hp]; nofun)
  | flush hp hf =>
      have hnone : r.refused? = none := Option.eq_none_iff_forall_ne_some.mpr fun fault hr => by
        rw [refused?_of_flushing hrow hp, hf] at hr
        cases hr
      have hnil := (h.eq_nil (by rw [hp]; nofun)).1
      exact h.step hnone rfl rfl rfl (fun hne => absurd hnil hne) (by rw [hp]; nofun)
  | @writeFault _ _ _ fault hp hw =>
      have hfault : r.refused? = some fault := (refused?_of_writing hrow hp).mpr (by rw [hw])
      rw [hfault]
      exact h.lose (by rw [hp]; nofun)
  | @flushFault _ _ fault hp hf =>
      have hfault : r.refused? = some fault := (refused?_of_flushing hrow hp).mpr (by rw [hf])
      rw [hfault]
      exact h.lose (by rw [hp]; nofun)
  | abandon hp | kill hp =>
      exact h.step (hcalm (by rw [hp]; rfl)) rfl rfl rfl (fun _ => rfl) fun _ _ => rfl
  | reap hp =>
      have hcall : r.phase.call? = none := by
        rcases hp with hp | hp | ⟨left, hp⟩ <;> rw [hp] <;> rfl
      refine h.step (hcalm hcall) rfl rfl rfl (fun _ => ?_) fun hb _ => ?_
      · split <;> rfl
      · rw [if_pos hb]
        rfl
  | discardEnd hp | discard hp =>
      exact h.step (hcalm (by rw [hp]; rfl)) rfl rfl rfl (fun _ => by rw [hp]; rfl) (by simp [hp])
  | discarded hp =>
      exact h.step (hcalm (by rw [hp]; rfl)) rfl rfl rfl (fun _ => rfl) (by rw [hp]; nofun)
  | @join ch _ _ hp =>
      refine h.step (hcalm (by rw [hp]; rfl)) rfl rfl rfl (fun _ => ?_) (by rw [hp]; nofun)
      cases ch <;> rfl

end Relay

end CommandRelay
