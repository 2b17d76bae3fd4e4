import CommandRelay.Proofs.Relay.Course

/-!
# What may still be written after a request to cancel

Between two looks at the cancellation the coordinator takes at most one event, so a request that
comes in at any moment leaves it at most one chunk to write: the one that it is writing or about to
take (`Phase.allowance`). A turn after the request writes as much as it takes off the allowance
(`spends_of_turn`), and so does a schedule (`follow_allowance`). `CutOff` says the same of a trace
in which the request stands, and that a coordinator which has stopped the child copies no more.

## Implementation notes

A turn has its own effects first and the requests that it sets off after them, so a request that
comes in during a write stands behind the chunk in the trace. That the coordinator is about to take
an event counts as a chunk, for it may be one.
-/

namespace CommandRelay

/-- Whether an effect writes a chunk. -/
def Effect.isWrite : Effect → Bool
  | .wrote .. => true
  | _ => false

/-- How many chunks the coordinator may still write before it looks at the cancellation. -/
def Phase.allowance : Phase → Nat
  | .taking | .writing .. => 1
  | _ => 0

theorem Phase.allowance_le_one (p : Phase) : p.allowance ≤ 1 := by
  cases p <;> simp [allowance]

theorem Effect.countP_isWrite_of_isCancelled {asked : List Effect}
    (h : ∀ e ∈ asked, e.IsCancelled) : asked.countP Effect.isWrite = 0 := by
  refine List.countP_eq_zero.mpr fun e he => ?_
  obtain ⟨reason, rfl⟩ := h e he
  exact Bool.false_ne_true

namespace Effect

variable {tr more : List Effect} {reason : Text}

/-- How many chunks are written behind the first request to cancel. -/
def lateWrites : List Effect → Nat
  | [] => 0
  | .cancelled _ :: rest => rest.countP isWrite
  | _ :: rest => lateWrites rest

theorem lateWrites_cons {e : Effect} (h : ∀ reason, e ≠ .cancelled reason) (rest : List Effect) :
    lateWrites (e :: rest) = lateWrites rest := by
  cases e with
  | cancelled reason => exact absurd rfl (h reason)
  | _ => rfl

theorem lateWrites_append_of_notMem (h : ∀ reason, .cancelled reason ∉ tr) :
    lateWrites (tr ++ more) = lateWrites more := by
  induction tr with
  | nil => rfl
  | cons e tr ih =>
      rw [List.cons_append, lateWrites_cons fun reason he => h reason (he ▸ List.mem_cons_self)]
      exact ih fun reason hmem => h reason (List.mem_cons_of_mem e hmem)

theorem lateWrites_append_of_mem (h : .cancelled reason ∈ tr) :
    lateWrites (tr ++ more) = lateWrites tr + more.countP isWrite := by
  induction tr with
  | nil => cases h
  | cons e tr ih =>
      cases e with
      | cancelled reason' => exact List.countP_append
      | _ => exact ih ((List.mem_cons.mp h).resolve_left nofun)

theorem lateWrites_le (tr : List Effect) : lateWrites tr ≤ tr.countP isWrite := by
  induction tr with
  | nil => exact Nat.le_refl 0
  | cons e tr ih =>
      cases e with
      | cancelled reason => exact Nat.le_refl _
      | _ => exact Nat.le_trans ih (List.sublist_cons_self ..).countP_le

theorem lateWrites_append_le (tr more : List Effect) :
    lateWrites (tr ++ more) ≤ lateWrites tr + more.countP isWrite := by
  by_cases h : ∃ reason, .cancelled reason ∈ tr
  · obtain ⟨reason, hmem⟩ := h
    exact Nat.le_of_eq (lateWrites_append_of_mem hmem)
  · rw [lateWrites_append_of_notMem fun reason hmem => h ⟨reason, hmem⟩]
    exact Nat.le_trans (lateWrites_le more) (Nat.le_add_left ..)

/-- Behind any request there are no more chunks than behind the first one. -/
theorem countP_le_lateWrites (before after : List Effect) (reason : Text) :
    after.countP isWrite ≤ lateWrites (before ++ .cancelled reason :: after) := by
  induction before with
  | nil => exact Nat.le_refl _
  | cons e before ih =>
      cases e with
      | cancelled reason' =>
          exact ((List.sublist_cons_self (.cancelled reason) after).trans
            (List.sublist_append_right before _)).countP_le
      | _ => exact ih

end Effect

namespace Relay

variable {r r₁ r' : Relay} {t : Turn} {ts : List Turn} {tr own asked : List Effect}

theorem allowance_elapse (time : Nat) (p : Phase) :
    (Phase.elapse time p).allowance = p.allowance := by
  cases p <;> rfl

/-- What a turn does: the effects of the one whose turn it is, and the requests to cancel that it
sets off. -/
structure Spends (own asked : List Effect) (r r' : Relay) : Prop where
  effects : r'.session.effects = r.session.effects ++ (own ++ asked)
  deeds : ∀ reason, .cancelled reason ∉ own
  requests : ∀ e ∈ asked, e.IsCancelled
  fired : asked ≠ [] → r'.session.isCancelled = true
  cancelled : r.session.isCancelled = true → r'.session.isCancelled = true
  allowance : r.session.isCancelled = true →
    own.countP Effect.isWrite + r'.phase.allowance ≤ r.phase.allowance
  left : r.phase.isCopying = false → own.filterMap Effect.call? = [] ∧ r'.phase.isCopying = false

/-- Nothing but the phase of the coordinator changes. -/
theorem spends_of_eq (he : r₁.session.effects = r.session.effects)
    (hc : r₁.session.isCancelled = r.session.isCancelled)
    (ha : r.session.isCancelled = true → r₁.phase.allowance ≤ r.phase.allowance)
    (hl : r.phase.isCopying = false → r₁.phase.isCopying = false) : Spends [] [] r r₁ where
  effects := by simp [he]
  deeds := by simp
  requests := by simp
  fired := by simp
  cancelled := by simp [hc]
  allowance := by simpa using ha
  left := by simpa using hl

/-- The coordinator has one effect, which is no request. -/
theorem spends_of_emit {e : Effect} (he : r₁.session.effects = r.session.effects ++ [e])
    (hc : r₁.session.isCancelled = r.session.isCancelled) (hne : ∀ reason, e ≠ .cancelled reason)
    (ha : [e].countP Effect.isWrite + r₁.phase.allowance ≤ r.phase.allowance)
    (hl : r.phase.isCopying = false → e.call? = none ∧ r₁.phase.isCopying = false) :
    Spends [e] [] r r₁ where
  effects := by simpa using he
  deeds := by simpa using fun reason h => hne reason h.symm
  requests := by simp
  fired := by simp
  cancelled := by simp [hc]
  allowance := fun _ => ha
  left := by
    intro h
    obtain ⟨hcall, hphase⟩ := hl h
    exact ⟨by simp [hcall], hphase⟩

theorem spends_lose {e : Effect} {fault : AccessFault} {s : Session}
    (he : s.effects = r.session.effects ++ [e]) (hc : s.isCancelled = r.session.isCancelled)
    (hne : ∀ reason, e ≠ .cancelled reason)
    (ha : [e].countP Effect.isWrite ≤ r.phase.allowance) (hcopy : r.phase.isCopying = true) :
    Spends [e] [] r (({ r with session := s } : Relay).lose fault) := by
  have hleft (h : r.phase.isCopying = false) : False := by
    rw [hcopy] at h
    cases h
  cases fault with
  | system e' => exact spends_of_emit he hc hne ha fun h => (hleft h).elim
  | unencodable | invalid | endless | unsupported =>
      exact spends_of_emit he hc hne ha fun h => (hleft h).elim

theorem Coordinates.spends (hc : r.Coordinates r₁) : ∃ own, Spends own [] r r₁ := by
  cases hc with
  | look hp ho hc =>
      refine ⟨_, spends_of_eq rfl rfl (fun h => ?_) (by rw [hp]; nofun)⟩
      rw [hc] at h
      cases h
  | lookAgain hp | takeEnd hp | dropChunk hp | takeCancelled hp =>
      exact ⟨_, spends_of_eq rfl rfl (fun _ => Nat.zero_le _) (by rw [hp]; nofun)⟩
  | takeChunk hp =>
      exact ⟨_, spends_of_eq rfl rfl (fun _ => by rw [hp]; exact Nat.le_refl 1) (by rw [hp]; nofun)⟩
  | wait | stop | abandon | discarded =>
      exact ⟨_, spends_of_eq rfl rfl (fun _ => Nat.zero_le _) fun _ => rfl⟩
  | discardEnd | discard => exact ⟨_, spends_of_eq rfl rfl (fun _ => Nat.le_refl _) id⟩
  | write hp =>
      exact ⟨_, spends_of_emit rfl rfl nofun (by rw [hp]; exact Nat.le_refl 1) (by rw [hp]; nofun)⟩
  | flush hp =>
      exact ⟨_, spends_of_emit rfl rfl nofun (Nat.zero_le _) (by rw [hp]; nofun)⟩
  | writeFault hp =>
      exact ⟨_, spends_lose rfl rfl nofun (by rw [hp]; exact Nat.le_refl 1) (by rw [hp]; rfl)⟩
  | flushFault hp =>
      exact ⟨_, spends_lose rfl rfl nofun (Nat.zero_le _) (by rw [hp]; rfl)⟩
  | kill hp hs =>
      exact ⟨_, spends_of_emit hs.effects hs.cancelled nofun (Nat.zero_le _) fun _ => ⟨rfl, rfl⟩⟩
  | reap hp _ hs =>
      refine ⟨_, spends_of_emit hs.effects hs.cancelled nofun ?_ fun _ => ⟨rfl, ?_⟩⟩
      · split <;> exact Nat.zero_le _
      · split <;> rfl
  | @join ch _ _ hp hs =>
      refine ⟨_, spends_of_eq (hs.effects.trans (List.append_nil _)) hs.cancelled (fun _ => ?_)
        fun _ => ?_⟩
      · cases ch <;> exact Nat.zero_le _
      · cases ch <;> rfl

theorem Attends.spends (ha : r.Attends t r₁) : Spends [] [] r r₁ := by
  have hs := ha.surrounds
  refine spends_of_eq ?_ ?_ (fun _ => ?_) fun h => ?_
  · cases ha <;> rfl
  · cases ha <;> rfl
  · exact Nat.le_of_eq (hs.phase_eq allowance_elapse)
  · rwa [hs.phase_eq isCopying_elapse]

/-- Requests come in after what a turn does besides. -/
theorem Spends.stirs (h : Spends own [] r r₁) (hs : r₁.Stirs r') :
    ∃ asked, Spends own asked r r' := by
  obtain ⟨asked, he, hasked⟩ := hs.session.effects
  have hphase : r'.phase = r₁.phase := by rw [hs.rest]
  refine ⟨asked, ?_, h.deeds, hasked, fun hne => ?_, ?_, ?_, ?_⟩
  · rw [he, h.effects, List.append_nil, List.append_assoc]
  · refine Decidable.byContradiction fun hquiet => hne ?_
    have hsame := hs.session.quiet (Bool.eq_false_iff.mpr hquiet)
    exact List.self_eq_append_right.mp (hsame.symm.trans he)
  · exact fun hc => hs.session.cancelled (h.cancelled hc)
  · rw [hphase]
    exact h.allowance
  · rw [hphase]
    exact h.left

theorem spends_of_turn (ht : r.turn t = some r') : ∃ own asked, Spends own asked r r' := by
  cases step_of_turn ht with
  | inl hstep =>
      obtain ⟨-, r₁, hc, hs⟩ := hstep
      obtain ⟨own, h⟩ := hc.spends
      exact ⟨own, h.stirs hs⟩
  | inr hstep =>
      obtain ⟨r₁, ha, hs⟩ := hstep
      exact ⟨[], ha.spends.stirs hs⟩

theorem Spends.countP_isWrite (h : Spends own asked r r') :
    (own ++ asked).countP Effect.isWrite = own.countP Effect.isWrite := by
  rw [List.countP_append, Effect.countP_isWrite_of_isCancelled h.requests, Nat.add_zero]

/-- Once the cancellation has been asked for, a schedule writes what it takes off the allowance. -/
theorem follow_allowance (hc : r.session.isCancelled = true) (hf : r.follow ts = some r') :
    ∃ more, r'.session.effects = r.session.effects ++ more ∧
      more.countP Effect.isWrite + r'.phase.allowance ≤ r.phase.allowance := by
  induction ts generalizing r with
  | nil =>
      obtain rfl := Option.some.inj hf
      exact ⟨[], by simp, by simp⟩
  | cons t ts ih =>
      obtain ⟨next, ht, hrest⟩ := follow_cons_eq_some_iff.mp hf
      obtain ⟨own, asked, h⟩ := spends_of_turn ht
      obtain ⟨more, he, hmore⟩ := ih (h.cancelled hc) hrest
      refine ⟨own ++ asked ++ more, ?_, ?_⟩
      · rw [he, h.effects, List.append_assoc]
      · have hturn := h.allowance hc
        rw [List.countP_append, h.countP_isWrite]
        omega

/-- Once the coordinator has left the copying, no sink is called any more. -/
theorem follow_no_call (hleft : r.phase.isCopying = false) (hf : r.follow ts = some r') :
    ∃ more, r'.session.effects = r.session.effects ++ more ∧
      more.filterMap Effect.call? = [] := by
  induction ts generalizing r with
  | nil =>
      obtain rfl := Option.some.inj hf
      exact ⟨[], by simp, rfl⟩
  | cons t ts ih =>
      obtain ⟨next, ht, hrest⟩ := follow_cons_eq_some_iff.mp hf
      obtain ⟨own, asked, h⟩ := spends_of_turn ht
      obtain ⟨hown, hnext⟩ := h.left hleft
      obtain ⟨more, he, hmore⟩ := ih hnext hrest
      refine ⟨own ++ asked ++ more, ?_, ?_⟩
      · rw [he, h.effects, List.append_assoc]
      · rw [List.filterMap_append, List.filterMap_append, hown, hmore,
          call?_of_isCancelled h.requests]
        rfl

/-! ## Traces -/

/-- A relay that has had some effects since it started: behind the first request to cancel there is
at most one chunk, also counting the one that may still be written. -/
structure CutOff (tr : List Effect) (r : Relay) : Prop where
  asked : ∀ reason, .cancelled reason ∈ tr → r.session.isCancelled = true
  bound : ∀ reason, .cancelled reason ∈ tr → Effect.lateWrites tr + r.phase.allowance ≤ 1

theorem CutOff.lateWrites_le (h : CutOff tr r) : Effect.lateWrites tr ≤ 1 := by
  by_cases hasked : ∃ reason, .cancelled reason ∈ tr
  · obtain ⟨reason, hmem⟩ := hasked
    exact Nat.le_trans (Nat.le_add_right ..) (h.bound reason hmem)
  · have hnone : Effect.lateWrites (tr ++ []) = Effect.lateWrites [] :=
      Effect.lateWrites_append_of_notMem fun reason hmem => hasked ⟨reason, hmem⟩
    rw [List.append_nil] at hnone
    exact hnone ▸ Nat.zero_le 1

theorem CutOff.turn (h : CutOff tr r) (ht : r.turn t = some r') :
    ∃ more, r'.session.effects = r.session.effects ++ more ∧ CutOff (tr ++ more) r' := by
  obtain ⟨own, asked, hs⟩ := spends_of_turn ht
  refine ⟨own ++ asked, hs.effects, fun reason hmem => ?_, fun reason _ => ?_⟩
  · rw [List.mem_append, List.mem_append] at hmem
    rcases hmem with hmem | hmem | hmem
    · exact hs.cancelled (h.asked reason hmem)
    · exact absurd hmem (hs.deeds reason)
    · exact hs.fired (List.ne_nil_of_mem hmem)
  · by_cases hbefore : ∃ reason, .cancelled reason ∈ tr
    · obtain ⟨reason, hmem⟩ := hbefore
      have hbound := h.bound reason hmem
      have hturn := hs.allowance (h.asked reason hmem)
      rw [Effect.lateWrites_append_of_mem hmem, hs.countP_isWrite]
      omega
    · -- The first request comes in at the end of this turn, behind all that the turn does.
      have hnone : ∀ reason, .cancelled reason ∉ tr := fun reason hmem => hbefore ⟨reason, hmem⟩
      have hlate : Effect.lateWrites asked = 0 := by
        have hle := Effect.lateWrites_le asked
        rw [Effect.countP_isWrite_of_isCancelled hs.requests] at hle
        exact Nat.le_zero.mp hle
      rw [Effect.lateWrites_append_of_notMem hnone, Effect.lateWrites_append_of_notMem hs.deeds,
        hlate, Nat.zero_add]
      exact r'.phase.allowance_le_one

theorem CutOff.follow (h : CutOff tr r) (hf : r.follow ts = some r') :
    ∃ more, r'.session.effects = r.session.effects ++ more ∧ CutOff (tr ++ more) r' := by
  induction ts generalizing r tr with
  | nil =>
      obtain rfl := Option.some.inj hf
      exact ⟨[], by simp, by simpa using h⟩
  | cons t ts ih =>
      obtain ⟨next, ht, hrest⟩ := follow_cons_eq_some_iff.mp hf
      obtain ⟨more, he, hnext⟩ := h.turn ht
      obtain ⟨more', he', hlast⟩ := ih hnext hrest
      rw [List.append_assoc] at hlast
      exact ⟨more ++ more', by rw [he', he, List.append_assoc], hlast⟩

/-! ## The end of the copying -/

/-- The coordinator leaves the copying for a stop only if the cancellation has been asked for. -/
theorem Coordinates.stops (hasked : .cancelled ∈ r.queue → r.session.isCancelled = true)
    (hc : r.Coordinates r₁) (hcopy : r.phase.isCopying = true) (hstop : r₁.phase = .stopping) :
    r.session.isCancelled = true ∧ r₁.stopped = true := by
  cases hc with
  | stop hp hc => exact ⟨hc, rfl⟩
  | takeCancelled hp hq => exact ⟨hasked (hq ▸ List.mem_cons_self), rfl⟩
  | abandon hp =>
      rw [hp] at hcopy
      cases hcopy
  | reap hp =>
      split at hstop <;> cases hstop
  | @join ch _ _ hp =>
      cases ch <;> cases hstop
  | @writeFault _ _ _ fault | @flushFault _ _ fault =>
      cases fault <;> cases hstop
  | discardEnd hp | discard hp =>
      rw [hp] at hstop
      cases hstop
  | _ => cases hstop

/-- Whoever moves, the copying is left for a stop only if the cancellation has been asked for. -/
theorem stops_of_turn (hasked : .cancelled ∈ r.queue → r.session.isCancelled = true)
    (ht : r.turn t = some r') (hcopy : r.phase.isCopying = true) (hstop : r'.phase = .stopping) :
    r.session.isCancelled = true ∧ r'.stopped = true := by
  cases step_of_turn ht with
  | inl hstep =>
      obtain ⟨-, r₁, hc, hs⟩ := hstep
      have hphase : r'.phase = r₁.phase := by rw [hs.rest]
      have hstopped : r'.stopped = r₁.stopped := by rw [hs.rest]
      rw [hstopped]
      exact hc.stops hasked hcopy (hphase.symm.trans hstop)
  | inr hstep =>
      obtain ⟨r₁, ha, hs⟩ := hstep
      rw [← ha.surrounds.phase_eq isCopying_elapse, ← hs.surrounds.phase_eq isCopying_elapse,
        hstop] at hcopy
      cases hcopy

/-- A coordinator stops the child by leaving the copying. -/
theorem Coordinates.isCopying_of_stopped (hc : r.Coordinates r₁)
    (h : r.stopped = true → r.phase.isCopying = false) (hs : r₁.stopped = true) :
    r₁.phase.isCopying = false := by
  obtain ⟨own, hspends⟩ := hc.spends
  cases hc with
  | stop | takeCancelled => rfl
  | @writeFault _ _ _ fault | @flushFault _ _ fault =>
      cases fault <;> exact (hspends.left (h hs)).2
  | _ => exact (hspends.left (h hs)).2

theorem isCopying_of_stopped (h : r.stopped = true → r.phase.isCopying = false)
    (hf : r.follow ts = some r') : r'.stopped = true → r'.phase.isCopying = false := by
  induction ts generalizing r with
  | nil =>
      obtain rfl := Option.some.inj hf
      exact h
  | cons t ts ih =>
      obtain ⟨next, ht, hrest⟩ := follow_cons_eq_some_iff.mp hf
      refine ih (fun hs => ?_) hrest
      cases step_of_turn ht with
      | inl hstep =>
          obtain ⟨-, r₁, hc, hstirs⟩ := hstep
          rw [hstirs.surrounds.phase_eq isCopying_elapse]
          exact hc.isCopying_of_stopped h (hstirs.surrounds.stopped ▸ hs)
      | inr hstep =>
          obtain ⟨r₁, ha, hstirs⟩ := hstep
          rw [hstirs.surrounds.phase_eq isCopying_elapse, ha.surrounds.phase_eq isCopying_elapse]
          rw [hstirs.surrounds.stopped, ha.surrounds.stopped] at hs
          exact h hs

end Relay

end CommandRelay
