import CommandRelay.Proofs.Relay.Stir

/-!
# What no turn of a relay takes back

Whoever moves in a relay, its plan and its sinks stay, a cancellation that was asked for stays
asked for, output that was lost stays lost, and the effects that it has are those of a relay: it
writes, flushes, kills and reaps, and requests to cancel come in. `turn_advances` says so of one
turn and `follow_advances` of a schedule.
-/

namespace CommandRelay

/-- An effect that a relay can have. -/
def Effect.IsOfRelay : Effect → Prop
  | .wrote .. | .flushed _ | .cancelled _ | .killed _ | .reaped => True
  | .consulted _ | .opened _ | .spawning .. | .closed _ => False

theorem Effect.IsCancelled.isOfRelay {e : Effect} (h : e.IsCancelled) : e.IsOfRelay := by
  obtain ⟨reason, rfl⟩ := h
  trivial

namespace Relay

/-- A relay that has come from another one by turns, as far as nothing is taken back. -/
structure Advances (r r' : Relay) : Prop where
  plan : r'.plan = r.plan
  trees : r'.trees = r.trees
  effects : r.session.Grows Effect.IsOfRelay r'.session
  cancelled : r.session.isCancelled = true → r'.session.isCancelled = true
  lost : r.lost.isSome = true → r'.lost.isSome = true
  broken : r.broken.isSome = true → r'.broken.isSome = true

variable {r r' r'' : Relay}

theorem Advances.refl (r : Relay) : r.Advances r :=
  ⟨rfl, rfl, .refl _, id, id, id⟩

theorem Advances.trans (h : r.Advances r') (h' : r'.Advances r'') : r.Advances r'' where
  plan := h'.plan.trans h.plan
  trees := h'.trees.trans h.trees
  effects := h.effects.trans h'.effects
  cancelled := h'.cancelled ∘ h.cancelled
  lost := h'.lost ∘ h.lost
  broken := h'.broken ∘ h.broken

theorem Stirs.advances (h : r.Stirs r') : r.Advances r' where
  plan := by rw [h.rest]
  trees := by rw [h.rest]
  effects := h.session.effects.mono fun _ => Effect.IsCancelled.isOfRelay
  cancelled := h.session.cancelled
  lost := by rw [h.rest]; exact id
  broken := by rw [h.rest]; exact id

/-- Whatever happens to a relay besides, it advances if its plan, its sinks, its faults and the
effects and the cancellation of its session stay. -/
theorem advances_of_eq (hp : r'.plan = r.plan) (ht : r'.trees = r.trees)
    (he : r'.session.effects = r.session.effects)
    (hc : r'.session.cancellation = r.session.cancellation) (hl : r'.lost = r.lost)
    (hb : r'.broken = r.broken) : r.Advances r' where
  plan := hp
  trees := ht
  effects := .of_eq he
  cancelled := by unfold Session.isCancelled; rw [hc]; exact id
  lost := by rw [hl]; exact id
  broken := by rw [hb]; exact id

theorem emit_advances (r : Relay) {e : Effect} (he : e.IsOfRelay) :
    r.Advances { r with session := r.session.emit e } :=
  ⟨rfl, rfl, Session.grows_emit he, id, id, id⟩

theorem withOutlets_advances (r : Relay) (o : Outlets) : r.Advances (r.withOutlets o) := by
  have h : r.Advances { r with session := { r.session with outlets := { o with alarms := [] } } } :=
    advances_of_eq rfl rfl rfl rfl rfl rfl
  exact h.trans (stirs_withOutlets r o).advances

theorem beginWait_advances (r : Relay) : r.Advances r.beginWait := by
  have h : r.Advances { r with waits := r.waits + 1, phase := .waiting (max 1 r.plan.poll) } :=
    advances_of_eq rfl rfl rfl rfl rfl rfl
  exact h.trans (stirs_beginWait r).advances

theorem lose_advances (r : Relay) (fault : AccessFault) : r.Advances (r.lose fault) := by
  cases fault with
  | system e => exact ⟨rfl, rfl, .of_eq rfl, id, fun _ => rfl, id⟩
  | unencodable | invalid | endless | unsupported =>
      exact ⟨rfl, rfl, .of_eq rfl, id, id, fun _ => rfl⟩

theorem write_advances (r : Relay) (ch : Channel) (data : Bytes) :
    r.Advances (r.write ch data) := by
  have hw := (emit_advances r (e := .wrote ch data) trivial).trans
    (withOutlets_advances _ ((r.trees.get ch).write data r.session.outlets).1)
  unfold write
  rcases hres : (r.trees.get ch).write data r.session.outlets with ⟨o, fault | n⟩
  · rw [hres] at hw
    exact hw.trans (lose_advances _ fault)
  · rw [hres] at hw
    exact hw.trans (advances_of_eq rfl rfl rfl rfl rfl rfl)

theorem flush_advances (r : Relay) (ch : Channel) : r.Advances (r.flush ch) := by
  have hw := (emit_advances r (e := .flushed ch) trivial).trans
    (withOutlets_advances _ ((r.trees.get ch).flush r.session.outlets).1)
  unfold flush
  rcases hres : (r.trees.get ch).flush r.session.outlets with ⟨o, fault | n⟩
  · rw [hres] at hw
    exact hw.trans (lose_advances _ fault)
  · rw [hres] at hw
    exact hw.trans (advances_of_eq rfl rfl rfl rfl rfl rfl)

theorem kill_advances (r : Relay) : r.Advances r.kill := by
  refine (emit_advances r (e := .killed r.plan.grouped) trivial).trans ?_
  unfold kill
  rcases r.child.kill with ⟨child, _ | e⟩
  · exact advances_of_eq rfl rfl rfl rfl rfl rfl
  · cases he : e.isNoSuchProcess <;> simp only [he] <;>
      exact advances_of_eq rfl rfl rfl rfl rfl rfl

theorem reap_advances (r : Relay) : r.Advances r.reap :=
  ((emit_advances r (e := .reaped) trivial).trans (stirs_ignore _).advances).trans
    (advances_of_eq rfl rfl rfl rfl rfl rfl)

theorem join_advances {ch : Channel} {left : Nat} (h : r.join ch left = some r') :
    r.Advances r' := by
  unfold join at h
  simp only at h
  split at h
  · split at h <;> obtain rfl := Option.some.inj h <;> exact advances_of_eq rfl rfl rfl rfl rfl rfl
  · split at h
    · obtain rfl := Option.some.inj h
      exact advances_of_eq rfl rfl rfl rfl rfl rfl
    · cases h

theorem take_advances (h : r.take = some r') : r.Advances r' := by
  unfold take at h
  split at h
  · split at h
    · obtain rfl := Option.some.inj h
      exact advances_of_eq rfl rfl rfl rfl rfl rfl
    · cases h
  all_goals
    obtain rfl := Option.some.inj h
    exact advances_of_eq rfl rfl rfl rfl rfl rfl

theorem moveCoordinator_advances (h : r.moveCoordinator = some r') : r.Advances r' := by
  have hphase (p : Phase) : r.Advances { r with phase := p } :=
    advances_of_eq rfl rfl rfl rfl rfl rfl
  have hstop : r.Advances r.stop := advances_of_eq rfl rfl rfl rfl rfl rfl
  unfold moveCoordinator at h
  split at h
  case h_1 =>
    split at h
    · exact Option.some.inj h ▸ beginWait_advances r
    · split at h
      · exact Option.some.inj h ▸ hstop
      · exact Option.some.inj h ▸ hphase _
  case h_2 => exact take_advances h
  case h_3 => exact Option.some.inj h ▸ write_advances r _ _
  case h_4 => exact Option.some.inj h ▸ flush_advances r _
  case h_5 =>
    split at h
    · exact Option.some.inj h ▸ reap_advances r
    · split at h
      · split at h
        · exact Option.some.inj h ▸ hstop
        · exact Option.some.inj h ▸ beginWait_advances r
      · cases h
  case h_6 =>
    split at h
    · exact Option.some.inj h ▸ reap_advances r
    · exact Option.some.inj h ▸ hphase _
  case h_7 => exact Option.some.inj h ▸ kill_advances r
  case h_8 =>
    split at h
    · exact Option.some.inj h ▸ reap_advances r
    · cases h
  case h_9 =>
    split at h
    · exact Option.some.inj h ▸ hphase _
    · split at h
      · cases h
      all_goals
        obtain rfl := Option.some.inj h
        exact advances_of_eq rfl rfl rfl rfl rfl rfl
  case h_10 => exact join_advances h
  case h_11 => cases h

theorem moveReader_advances {ch : Channel} (h : r.moveReader ch = some r') : r.Advances r' := by
  unfold moveReader at h
  simp only at h
  split at h
  · split at h
    · obtain rfl := Option.some.inj h
      exact advances_of_eq rfl rfl rfl rfl rfl rfl
    · cases h
  · split at h
    · cases h
    · obtain ⟨f, -, rfl⟩ := Option.map_eq_some_iff.mp h
      exact advances_of_eq rfl rfl rfl rfl rfl rfl

theorem moveChild_advances (h : r.moveChild = some r') : r.Advances r' := by
  have hstay (child : Child) (feeds : PerChannel Feed) :
      r.Advances { r with child := child, feeds := feeds } :=
    advances_of_eq rfl rfl rfl rfl rfl rfl
  unfold moveChild at h
  split at h
  case h_1 => exact Option.some.inj h ▸ hstay _ _
  case h_2 => cases h
  case h_3 => exact Option.some.inj h ▸ hstay _ _
  case h_4 => exact Option.some.inj h ▸ hstay _ _
  case h_5 =>
    obtain rfl := Option.some.inj h
    exact advances_of_eq rfl rfl rfl rfl rfl rfl
  case h_6 =>
    simp only at h
    split at h
    · exact Option.some.inj h ▸ hstay _ _
    · split at h
      · exact Option.some.inj h ▸ hstay _ _
      · cases h
  case h_7 => exact Option.some.inj h ▸ hstay _ _
  case h_8 => exact Option.some.inj h ▸ hstay _ _
  case h_9 => cases h

theorem passTime_advances (h : r.passTime = some r') : r.Advances r' := by
  unfold passTime at h
  split at h
  · rename_i t _
    obtain rfl := Option.some.inj h
    have ht : r.Advances { r with
        session := { r.session with timers := r.session.timers.erase t } } :=
      advances_of_eq rfl rfl rfl rfl rfl rfl
    exact ht.trans (stirs_cancel _ t.reason).advances
  · split at h
    · cases h
    · obtain rfl := Option.some.inj h
      exact advances_of_eq rfl rfl rfl rfl rfl rfl

theorem turn_advances {t : Turn} (h : r.turn t = some r') : r.Advances r' := by
  cases t with
  | coordinator => exact moveCoordinator_advances h
  | reader ch => exact moveReader_advances h
  | child => exact moveChild_advances h
  | time => exact passTime_advances h
  | cancel reason => exact Option.some.inj h ▸ (stirs_cancel r reason).advances

/-- Whatever the schedule, nothing is taken back. -/
theorem follow_advances {ts : List Turn} (h : r.follow ts = some r') : r.Advances r' := by
  induction ts generalizing r with
  | nil => exact Option.some.inj h ▸ .refl r
  | cons t rest ih =>
      obtain ⟨next, ht, hrest⟩ := Option.bind_eq_some_iff.mp h
      exact (turn_advances ht).trans (ih hrest)

end Relay

end CommandRelay
