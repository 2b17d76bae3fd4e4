import CommandRelay.Execution.Relay

/-!
# Requests to cancel

A request to cancel can come at any moment, several of them at once. All that they do to a session
is that it notes the first of them, and all that they do to a relay besides is that an event may
wake the coordinator. `Stirs` says this of two relays, and the operations in which requests come in
are shown to do no more than that.
-/

namespace CommandRelay

/-! ## Sessions that grow -/

namespace Session

/-- A session that has had further effects, each of them of a certain kind. -/
def Grows (p : Effect → Prop) (s s' : Session) : Prop :=
  ∃ more, s'.effects = s.effects ++ more ∧ ∀ e ∈ more, p e

variable {p q : Effect → Prop} {s s' s'' : Session}

theorem Grows.of_eq (h : s'.effects = s.effects) : s.Grows p s' :=
  ⟨[], by rw [h, List.append_nil], fun e he => absurd he List.not_mem_nil⟩

theorem Grows.refl (s : Session) : s.Grows p s :=
  .of_eq rfl

theorem Grows.trans (h : s.Grows p s') (h' : s'.Grows p s'') : s.Grows p s'' := by
  obtain ⟨more, he, hm⟩ := h
  obtain ⟨more', he', hm'⟩ := h'
  refine ⟨more ++ more', by rw [he', he, List.append_assoc], fun e hmem => ?_⟩
  rcases List.mem_append.mp hmem with hmem | hmem
  · exact hm e hmem
  · exact hm' e hmem

theorem Grows.mono (h : s.Grows p s') (hpq : ∀ e, p e → q e) : s.Grows q s' := by
  obtain ⟨more, he, hm⟩ := h
  exact ⟨more, he, fun e hmem => hpq e (hm e hmem)⟩

theorem grows_emit {e : Effect} (h : p e) : s.Grows p (s.emit e) :=
  ⟨[e], rfl, fun _ he => List.mem_singleton.mp he ▸ h⟩

end Session

/-- The effect of a request to cancel that counts. -/
def Effect.IsCancelled (e : Effect) : Prop :=
  ∃ reason, e = .cancelled reason

/-! ## Requests at a session -/

/-- A session in which requests to cancel may have come in, and timers for them. -/
structure Session.Stirs (s s' : Session) : Prop where
  outlets : s'.outlets = s.outlets
  lines : s'.lines = s.lines
  effects : s.Grows Effect.IsCancelled s'
  cancelled : s.isCancelled = true → s'.isCancelled = true
  quiet : s'.isCancelled = false → s'.effects = s.effects

namespace Session

variable {s s' s'' : Session}

theorem Stirs.refl (s : Session) : s.Stirs s :=
  ⟨rfl, rfl, .refl s, id, fun _ => rfl⟩

/-- What is not cancelled afterwards was not cancelled before. -/
theorem Stirs.notCancelled (h : s.Stirs s') (hs : s'.isCancelled = false) :
    s.isCancelled = false := by
  cases hc : s.isCancelled with
  | false => rfl
  | true => exact absurd (h.cancelled hc) (by simp [hs])

theorem Stirs.trans (h : s.Stirs s') (h' : s'.Stirs s'') : s.Stirs s'' where
  outlets := h'.outlets.trans h.outlets
  lines := h'.lines.trans h.lines
  effects := h.effects.trans h'.effects
  cancelled := fun hs => h'.cancelled (h.cancelled hs)
  quiet := fun hs => (h'.quiet hs).trans (h.quiet (h'.notCancelled hs))

theorem isCancelled_cancel (s : Session) (reason : Text) : (s.cancel reason).1.isCancelled := by
  cases h : s.cancellation.fired <;> simp [cancel, Cancellation.cancel, isCancelled, h]

theorem effects_cancel (s : Session) (reason : Text) :
    (s.cancel reason).1.effects =
      s.effects ++ if s.isCancelled then [] else [.cancelled reason] := by
  cases h : s.cancellation.fired <;> simp [cancel, Cancellation.cancel, isCancelled, h, emit]

theorem stirs_cancel (s : Session) (reason : Text) : s.Stirs (s.cancel reason).1 where
  outlets := by cases h : s.isCancelled <;> simp [cancel, h, emit]
  lines := by cases h : s.isCancelled <;> simp [cancel, h, emit]
  effects := by
    refine ⟨_, effects_cancel s reason, fun e he => ?_⟩
    split at he
    · exact absurd he List.not_mem_nil
    · exact ⟨reason, List.mem_singleton.mp he⟩
  cancelled := fun _ => isCancelled_cancel s reason
  quiet := fun hs => by rw [isCancelled_cancel] at hs; cases hs

theorem stirs_cancelIf (s : Session) (reason : Option Text) : s.Stirs (s.cancelIf reason) := by
  cases reason with
  | none => exact .refl s
  | some reason => exact stirs_cancel s reason

end Session

/-! ## Requests at a relay -/

/-- A relay at which requests to cancel may have come in: only its session has taken notice, and
the queue may hold events that wake the coordinator. -/
structure Relay.Stirs (r r' : Relay) : Prop where
  session : r.session.Stirs r'.session
  queue : ∃ n, r'.queue = r.queue ++ List.replicate n .cancelled
  quiet : r'.session.isCancelled = false → r'.queue = r.queue
  rest : r' = { r with session := r'.session, queue := r'.queue }

namespace Relay

variable {r r' r'' : Relay}

theorem Stirs.refl (r : Relay) : r.Stirs r :=
  ⟨.refl _, ⟨0, (List.append_nil _).symm⟩, fun _ => rfl, rfl⟩

theorem Stirs.trans (h : r.Stirs r') (h' : r'.Stirs r'') : r.Stirs r'' where
  session := h.session.trans h'.session
  queue := by
    obtain ⟨n, hn⟩ := h.queue
    obtain ⟨m, hm⟩ := h'.queue
    exact ⟨n + m, by rw [hm, hn, List.append_assoc, List.replicate_append_replicate]⟩
  quiet := fun hs => (h'.quiet hs).trans (h.quiet (h'.session.notCancelled hs))
  rest := by rw [h'.rest, h.rest]

/-- Stirring only the session, as long as nobody has to be woken. -/
theorem stirs_of_session {s : Session} (h : r.session.Stirs s) :
    r.Stirs { r with session := s } :=
  ⟨h, ⟨0, (List.append_nil _).symm⟩, fun _ => rfl, rfl⟩

theorem wake_eq (r : Relay) :
    ∃ n, r.wake = { r with queue := r.queue ++ List.replicate n .cancelled } := by
  unfold wake
  split
  · exact ⟨1, rfl⟩
  · exact ⟨0, by simp⟩

theorem foldl_wake_eq (calls : List Unit) (r : Relay) :
    ∃ n, calls.foldl (fun r _ => r.wake) r =
      { r with queue := r.queue ++ List.replicate n .cancelled } := by
  induction calls generalizing r with
  | nil => exact ⟨0, by simp⟩
  | cons call rest ih =>
      obtain ⟨n, hn⟩ := wake_eq r
      obtain ⟨m, hm⟩ := ih r.wake
      refine ⟨n + m, ?_⟩
      rw [List.foldl_cons, hm, hn, ← List.replicate_append_replicate, List.append_assoc]

theorem stirs_cancel (r : Relay) (reason : Text) : r.Stirs (r.cancel reason) := by
  obtain ⟨n, hn⟩ := foldl_wake_eq (r.session.cancel reason).2
    { r with session := (r.session.cancel reason).1 }
  have hc : r.cancel reason = { r with
      session := (r.session.cancel reason).1
      queue := r.queue ++ List.replicate n .cancelled } := hn
  rw [hc]
  refine ⟨Session.stirs_cancel _ reason, ⟨n, rfl⟩, fun hs => ?_, rfl⟩
  rw [Session.isCancelled_cancel] at hs
  cases hs

theorem isCancelled_cancel (r : Relay) (reason : Text) :
    (r.cancel reason).session.isCancelled = true := by
  obtain ⟨n, hn⟩ := foldl_wake_eq (r.session.cancel reason).2
    { r with session := (r.session.cancel reason).1 }
  have hc : (r.cancel reason).session = (r.session.cancel reason).1 := congrArg Relay.session hn
  rw [hc]
  exact Session.isCancelled_cancel r.session reason

theorem stirs_foldl_cancel (alarms : List (Nat × Text)) (r : Relay) :
    r.Stirs (alarms.foldl (fun r a => r.cancel a.2) r) := by
  induction alarms generalizing r with
  | nil => exact .refl r
  | cons a rest ih => exact (stirs_cancel r a.2).trans (ih _)

theorem stirs_sound (r : Relay) (a : Alarm) : r.Stirs (r.sound a) := by
  unfold sound
  split
  · exact stirs_cancel r a.reason
  · exact stirs_of_session ⟨rfl, rfl, .of_eq rfl, id, fun _ => rfl⟩

theorem stirs_foldl_sound (alarms : List Alarm) (r : Relay) :
    r.Stirs (alarms.foldl sound r) := by
  induction alarms generalizing r with
  | nil => exact .refl r
  | cons a rest ih => exact (stirs_sound r a).trans (ih _)

theorem stirs_listen (r : Relay) : r.Stirs r.listen := by
  cases hf : r.session.cancellation.fired with
  | false =>
      have hl : r.listen = { r with session := { r.session with
          cancellation := { r.session.cancellation with
            callbacks := r.session.cancellation.callbacks ++ [()] } } } := by
        simp [listen, Cancellation.add, hf]
      rw [hl]
      exact stirs_of_session ⟨rfl, rfl, .of_eq rfl, id, fun _ => rfl⟩
  | true =>
      have hl : r.listen = r.wake := by
        simp [listen, Cancellation.add, hf]
      obtain ⟨n, hn⟩ := wake_eq r
      rw [hl, hn]
      refine ⟨.refl _, ⟨n, rfl⟩, fun hs => ?_, rfl⟩
      exact absurd (hs.symm.trans hf) (by decide)

theorem stirs_ignore (r : Relay) : r.Stirs r.ignore :=
  stirs_of_session ⟨rfl, rfl, .of_eq rfl, id, fun _ => rfl⟩

/-- Sinks that were written or flushed take the place of the old ones; then alarms sound. -/
theorem stirs_withOutlets (r : Relay) (o : Outlets) :
    ({ r with session := { r.session with outlets := { o with alarms := [] } } } : Relay).Stirs
      (r.withOutlets o) :=
  stirs_foldl_sound o.alarms _

/-- A wait begins, and the requests come in that are due then. -/
theorem stirs_beginWait (r : Relay) :
    ({ r with waits := r.waits + 1, phase := .waiting (max 1 r.plan.poll) } : Relay).Stirs
      r.beginWait :=
  stirs_foldl_cancel _ _

end Relay

end CommandRelay
