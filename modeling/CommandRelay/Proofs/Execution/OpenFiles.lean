import CommandRelay.Proofs.Execution.Reaping
import CommandRelay.Proofs.Sink.Handles

/-!
# Open files

While a relay is at work, nothing that happens opens or closes a file, neither a turn nor an
exception in the coordinator. `Session.Holds` says so of two sessions, and `Relay.holds_of_pursue`
shows it of everything that can happen to a relay.
-/

namespace CommandRelay

/-- The path that is opened in an effect. -/
def Effect.opened? : Effect → Option Text
  | .opened path => some path
  | _ => none

/-- The path that is closed in an effect. -/
def Effect.closed? : Effect → Option Text
  | .closed path => some path
  | _ => none

/-- An effect that neither opens nor closes a file. -/
def Effect.SparesFiles (e : Effect) : Prop :=
  e.opened? = none ∧ e.closed? = none

/-! ## What happens while files are open -/

namespace Session

/-- A session that has gone on, but opened and closed no file. -/
structure Holds (s s' : Session) : Prop where
  handles : s'.outlets.handles = s.outlets.handles
  effects : s.Grows Effect.SparesFiles s'

variable {s s' s'' : Session}

theorem Holds.refl (s : Session) : s.Holds s :=
  ⟨rfl, .refl s⟩

theorem Holds.trans (h : s.Holds s') (h' : s'.Holds s'') : s.Holds s'' :=
  ⟨h'.handles.trans h.handles, h.effects.trans h'.effects⟩

theorem holds_of_eq (ho : s'.outlets.handles = s.outlets.handles)
    (he : s'.effects = s.effects) : s.Holds s' :=
  ⟨ho, .of_eq he⟩

theorem Stirs.holds (h : s.Stirs s') : s.Holds s' where
  handles := by rw [h.outlets]
  effects := by
    refine h.effects.mono ?_
    rintro e ⟨reason, rfl⟩
    exact ⟨rfl, rfl⟩

/-- Effects that have come in since, none of which is one of files. -/
theorem holds_of_append (more : List Effect) (ho : s'.outlets.handles = s.outlets.handles)
    (he : s'.effects = s.effects ++ more) (hmore : ∀ e ∈ more, e.SparesFiles) : s.Holds s' :=
  ⟨ho, more, he, hmore⟩

theorem Records.holds {effects : List Effect} (h : s.Records effects s')
    (heffects : ∀ e ∈ effects, e.SparesFiles) : s.Holds s' :=
  holds_of_append effects (by rw [h.outlets]) h.effects heffects

end Session

namespace Relay

variable {r r₁ r' : Relay}

theorem outlets_lose (r : Relay) (fault : AccessFault) :
    (r.lose fault).session.outlets = r.session.outlets := by
  cases fault <;> rfl

theorem holds_lose (r : Relay) (fault : AccessFault) : r.session.Holds (r.lose fault).session :=
  Session.holds_of_eq (by rw [outlets_lose]) (lose_eq r fault).2.2

theorem Coordinates.holds (h : r.Coordinates r₁) : r.session.Holds r₁.session := by
  have hwritten {ch : Channel} {data : Bytes} {o : Outlets} {answer : Except AccessFault Int}
      (hw : (r.trees.get ch).write data r.session.outlets = (o, answer)) :
      r.session.Holds (r.session.answered (.wrote ch data) o) := by
    refine Session.holds_of_append [.wrote ch data] ?_ rfl ?_
    · have hhandles := (r.trees.get ch).handles_write data r.session.outlets
      rw [hw] at hhandles
      exact hhandles
    · simp [Effect.SparesFiles, Effect.opened?, Effect.closed?]
  have hflushed {ch : Channel} {o : Outlets} {answer : Except AccessFault Unit}
      (hf : (r.trees.get ch).flush r.session.outlets = (o, answer)) :
      r.session.Holds (r.session.answered (.flushed ch) o) := by
    refine Session.holds_of_append [.flushed ch] ?_ rfl ?_
    · have hhandles := (r.trees.get ch).handles_flush r.session.outlets
      rw [hf] at hhandles
      exact hhandles
    · simp [Effect.SparesFiles, Effect.opened?, Effect.closed?]
  cases h with
  | look | lookAgain | wait | stop | takeCancelled | takeEnd | takeChunk | dropChunk | abandon
  | discardEnd | discard | discarded => exact .refl _
  | write _ hw => exact hwritten hw
  | writeFault _ hw =>
      exact (hwritten hw).trans (holds_lose { r with session := r.session.answered _ _ } _)
  | flush _ hf => exact hflushed hf
  | flushFault _ hf =>
      exact (hflushed hf).trans (holds_lose { r with session := r.session.answered _ _ } _)
  | kill _ hs | reap _ _ hs =>
      exact hs.holds (by simp [Effect.SparesFiles, Effect.opened?, Effect.closed?])
  | join _ hs => exact hs.holds nofun

theorem Attends.holds {t : Turn} (h : r.Attends t r₁) : r.session.Holds r₁.session := by
  cases h with
  | publish | read | exit | output | close | request => exact .refl _
  | aside | elapse | due => exact Session.holds_of_eq rfl rfl

/-- Whatever happens to a relay, no file is opened or closed. -/
theorem holds_of_meet {o : Occurrence} (ho : r.meet o = some r') :
    r.session.Holds r'.session := by
  cases o with
  | exception fault =>
      rcases interrupt_eq_some ho with rfl | ⟨-, rfl⟩
      · exact .refl _
      · exact holds_lose r fault
  | turn t =>
      rcases step_of_turn ho with ⟨-, r₂, hc, hs⟩ | ⟨r₂, ha, hs⟩
      · exact hc.holds.trans hs.session.holds
      · exact ha.holds.trans hs.session.holds

theorem holds_of_pursue {os : List Occurrence} (ho : r.pursue os = some r') :
    r.session.Holds r'.session := by
  induction os generalizing r with
  | nil =>
      obtain rfl := Option.some.inj ho
      exact .refl _
  | cons o os ih =>
      obtain ⟨next, hnext, hrest⟩ := Option.bind_eq_some_iff.mp ho
      exact (holds_of_meet hnext).trans (ih hrest)

end Relay

end CommandRelay
