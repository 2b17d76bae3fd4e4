import CommandRelay.Command.Notice
import CommandRelay.Execution.Run
import CommandRelay.Proofs.Sink.Likeness
import Mathlib.Data.List.Forall2

/-!
# Relays that are alike

A command is compared with the same command without its targets: notices name the targets, and
nothing else that a relay does depends on them. `Contrast.Sessions` says of two sessions that they
differ in the texts of notices only, and `Contrast.Relays` says it of two relays that are in the
same state otherwise. Every turn that can be made on one side can be made on the other, and keeps
the relays alike (`Contrast.Relays.turn`), so they stay in step along every schedule.
-/

namespace CommandRelay

/-- A command that is compared with itself without targets: who runs it, where notices are shown,
and the lines that each side begins with. -/
structure Contrast where
  executor : Executor
  notices : Nat
  command : Command
  lines : List Line
  lines' : List Line

namespace Contrast

variable (k : Contrast)

/-- The texts of one notice, as they are noted. -/
def Notes (t t' : Text) : Prop :=
  ∃ n : Notice, t = n.text k.command k.executor.asRoot ∧
    t' = n.text k.command.withoutTargets k.executor.asRoot

/-- The texts of one notice, as they are shown on a console. -/
def Shows (t t' : Text) : Prop :=
  ∃ style n, k.executor.style = some style ∧
    t = style.render k.executor.terminal n k.command k.executor.asRoot ++ "\n" ∧
    t' = style.render k.executor.terminal n k.command.withoutTargets k.executor.asRoot ++ "\n"

/-- Lines that are the same, or that note the same notice. -/
structure SameLine (l l' : Line) : Prop where
  level : l'.level = l.level
  text : l'.text = l.text ∨ k.Notes l.text l'.text

/-- Sessions that differ in the texts of notices only. -/
structure Sessions (s s' : Session) : Prop where
  outlets : s.outlets.Alike k.Shows k.notices s'.outlets
  cancellation : s'.cancellation = s.cancellation
  timers : s'.timers = s.timers
  effects : s'.effects = s.effects
  lines : ∃ more more', s.lines = k.lines ++ more ∧ s'.lines = k.lines' ++ more' ∧
    List.Forall₂ k.SameLine more more'

variable {k} {s s' : Session}

/-! ## Sessions -/

namespace Sessions

theorem isCancelled_eq (h : k.Sessions s s') : s'.isCancelled = s.isCancelled := by
  rw [Session.isCancelled, Session.isCancelled, h.cancellation]

/-- If no notices are shown, the sinks are the same. -/
theorem sinks_eq (h : k.Sessions s s') (hstyle : k.executor.style = none) :
    s'.outlets.sinks = s.outlets.sinks := by
  refine h.outlets.sinks_eq ?_
  rintro _ _ ⟨style, n, hsome, -⟩
  rw [hstyle] at hsome
  cases hsome

theorem withOutlets {o o' : Outlets} (h : k.Sessions s s') (ho : o.Alike k.Shows k.notices o') :
    k.Sessions { s with outlets := o } { s' with outlets := o' } :=
  ⟨ho, h.cancellation, h.timers, h.effects, h.lines⟩

theorem withTimers (h : k.Sessions s s') (timers : List Timer) :
    k.Sessions { s with timers } { s' with timers } :=
  ⟨h.outlets, h.cancellation, rfl, h.effects, h.lines⟩

theorem withCancellation (h : k.Sessions s s') (cancellation : Cancellation Unit) :
    k.Sessions { s with cancellation } { s' with cancellation } :=
  ⟨h.outlets, rfl, h.timers, h.effects, h.lines⟩

theorem emit (h : k.Sessions s s') (e : Effect) : k.Sessions (s.emit e) (s'.emit e) :=
  ⟨h.outlets, h.cancellation, h.timers, congrArg (· ++ [e]) h.effects, h.lines⟩

theorem concat {l l' : Line} (h : k.Sessions s s') (hl : k.SameLine l l') :
    k.Sessions { s with lines := s.lines ++ [l] } { s' with lines := s'.lines ++ [l'] } := by
  refine ⟨h.outlets, h.cancellation, h.timers, h.effects, ?_⟩
  obtain ⟨more, more', hs, hs', hmore⟩ := h.lines
  refine ⟨more ++ [l], more' ++ [l'], by simp [hs], by simp [hs'], ?_⟩
  exact List.rel_append hmore (.cons hl .nil)

theorem note (h : k.Sessions s s') (level : Level) (text : Text) :
    k.Sessions (s.note level text) (s'.note level text) :=
  h.concat ⟨rfl, .inl rfl⟩

/-- Notices are noted on both sides, each with its own text. -/
theorem record (h : k.Sessions s s') (level : Level) (n : Notice) :
    k.Sessions (Run.record k.executor level n k.command s)
      (Run.record k.executor level n k.command.withoutTargets s') :=
  h.concat ⟨rfl, .inr ⟨n, rfl, rfl⟩⟩

/-- They are shown on both sides, or on neither; what refuses one refuses the other. -/
theorem announce {consoles : Consoles} (h : k.Sessions s s')
    (hconsoles : consoles.notices = k.notices) (n : Notice) :
    k.Sessions (Run.announce k.executor consoles n k.command s).1
        (Run.announce k.executor consoles n k.command.withoutTargets s').1 ∧
      (Run.announce k.executor consoles n k.command.withoutTargets s').2 =
        (Run.announce k.executor consoles n k.command s).2 := by
  unfold Run.announce
  split
  · rename_i style hstyle
    rw [hconsoles]
    have hcall := h.outlets.display ⟨style, n, hstyle, rfl, rfl⟩
    exact ⟨h.withOutlets hcall.outlets, hcall.answer⟩
  · exact ⟨h, rfl⟩

/-- So a notice that has been noted has one answer. -/
theorem exists_announced {consoles : Consoles} (h : k.Sessions s s')
    (hconsoles : consoles.notices = k.notices) (level : Level) (n : Notice) :
    ∃ s₁ s₁' answer, k.Sessions s₁ s₁' ∧
      Run.announce k.executor consoles n k.command
        (Run.record k.executor level n k.command s) = (s₁, answer) ∧
      Run.announce k.executor consoles n k.command.withoutTargets
        (Run.record k.executor level n k.command.withoutTargets s') = (s₁', answer) := by
  obtain ⟨hsession, hanswer⟩ := (h.record level n).announce hconsoles n
  exact ⟨_, _, _, hsession, rfl, Prod.ext rfl hanswer⟩

theorem cancel (h : k.Sessions s s') (reason : Text) :
    k.Sessions (s.cancel reason).1 (s'.cancel reason).1 ∧
      (s'.cancel reason).2 = (s.cancel reason).2 := by
  unfold Session.cancel
  rw [h.isCancelled_eq, h.cancellation]
  refine ⟨?_, rfl⟩
  simp only
  split
  · exact h.withCancellation _
  · exact (h.emit _).withCancellation _

theorem cancelIf (h : k.Sessions s s') (reason : Option Text) :
    k.Sessions (s.cancelIf reason) (s'.cancelIf reason) := by
  cases reason with
  | none => exact h
  | some reason => exact (h.cancel reason).1

end Sessions

/-! ## Relays -/

/-- Relays that are in the same state, with sessions that are alike. -/
def Relays (k : Contrast) (r r' : Relay) : Prop :=
  ∃ s', r' = { r with session := s' } ∧ k.Sessions r.session s'

namespace Relays

variable {r r' : Relay}

theorem foldl {α : Type} {f : Relay → α → Relay}
    (hf : ∀ {r r'} (a : α), k.Relays r r' → k.Relays (f r a) (f r' a)) (h : k.Relays r r')
    (as : List α) : k.Relays (as.foldl f r) (as.foldl f r') := by
  induction as generalizing r r' with
  | nil => exact h
  | cons a as ih => exact ih (hf a h)

theorem wake (h : k.Relays r r') : k.Relays r.wake r'.wake := by
  obtain ⟨s', rfl, hs⟩ := h
  unfold Relay.wake
  simp only
  split
  · exact ⟨s', rfl, hs⟩
  · exact ⟨s', rfl, hs⟩

theorem cancel (h : k.Relays r r') (reason : Text) :
    k.Relays (r.cancel reason) (r'.cancel reason) := by
  obtain ⟨s', rfl, hs⟩ := h
  obtain ⟨hsession, hcalls⟩ := hs.cancel reason
  unfold Relay.cancel
  simp only [hcalls]
  refine foldl (fun _ => wake) ⟨_, rfl, ?_⟩ _
  exact hsession

theorem listen (h : k.Relays r r') : k.Relays r.listen r'.listen := by
  obtain ⟨s', rfl, hs⟩ := h
  unfold Relay.listen
  simp only [hs.cancellation]
  refine foldl (fun _ => wake) ⟨_, rfl, ?_⟩ _
  exact hs.withCancellation _

theorem ignore (h : k.Relays r r') : k.Relays r.ignore r'.ignore := by
  obtain ⟨s', rfl, hs⟩ := h
  unfold Relay.ignore
  simp only [hs.cancellation]
  exact ⟨_, rfl, hs.withCancellation _⟩

theorem sound (h : k.Relays r r') (a : Alarm) : k.Relays (r.sound a) (r'.sound a) := by
  unfold Relay.sound
  split
  · exact h.cancel a.reason
  · obtain ⟨s', rfl, hs⟩ := h
    simp only [hs.timers]
    exact ⟨_, rfl, hs.withTimers _⟩

theorem withOutlets {o o' : Outlets} (h : k.Relays r r')
    (ho : o.Alike k.Shows k.notices o') : k.Relays (r.withOutlets o) (r'.withOutlets o') := by
  obtain ⟨s', rfl, hs⟩ := h
  unfold Relay.withOutlets
  rw [ho.alarms]
  refine foldl (fun a h => h.sound a) ⟨_, rfl, ?_⟩ _
  exact hs.withOutlets (ho.withAlarms [])

theorem beginWait (h : k.Relays r r') : k.Relays r.beginWait r'.beginWait := by
  obtain ⟨s', rfl, hs⟩ := h
  unfold Relay.beginWait
  simp only
  refine foldl (fun (a : Nat × Text) h => h.cancel a.2) ?_ _
  exact ⟨s', rfl, hs⟩

theorem lose (h : k.Relays r r') (fault : AccessFault) :
    k.Relays (r.lose fault) (r'.lose fault) := by
  obtain ⟨s', rfl, hs⟩ := h
  cases fault with
  | system e => exact ⟨_, rfl, hs.note .error _⟩
  | _ => exact ⟨s', rfl, hs⟩

theorem elapse (h : k.Relays r r') (time : Nat) :
    k.Relays (r.elapse time) (r'.elapse time) := by
  obtain ⟨s', rfl, hs⟩ := h
  unfold Relay.elapse
  simp only [hs.timers]
  refine ⟨_, rfl, ?_⟩
  exact hs.withTimers _

/-- Time passes on both sides, or on neither. -/
theorem passTime (h : k.Relays r r') : Option.Rel k.Relays r.passTime r'.passTime := by
  obtain ⟨s', rfl, hs⟩ := h
  have hdelays : ({ r with session := s' } : Relay).delays = r.delays := by
    simp only [Relay.delays, hs.timers]
  unfold Relay.passTime
  rw [hdelays]
  simp only [hs.timers]
  split
  · refine .some (cancel ⟨_, rfl, ?_⟩ _)
    exact hs.withTimers _
  · split
    · exact .none
    · exact .some (elapse ⟨s', rfl, hs⟩ _)

/-- The child moves alike. -/
theorem moveChild (h : k.Relays r r') : Option.Rel k.Relays r.moveChild r'.moveChild := by
  obtain ⟨s', rfl, hs⟩ := h
  unfold Relay.moveChild
  simp only [hs.outlets.disk]
  split
  · exact .some ⟨s', rfl, hs⟩
  · exact .none
  · exact .some ⟨s', rfl, hs⟩
  · exact .some ⟨s', rfl, hs⟩
  · exact .some ⟨_, rfl, hs.withOutlets (hs.outlets.withDisk _)⟩
  · split
    · exact .some ⟨s', rfl, hs⟩
    · split
      · exact .some ⟨s', rfl, hs⟩
      · exact .none
  · exact .some ⟨s', rfl, hs⟩
  · exact .some ⟨s', rfl, hs⟩
  · exact .none

/-- So do the readers. -/
theorem moveReader (h : k.Relays r r') (ch : Channel) :
    Option.Rel k.Relays (r.moveReader ch) (r'.moveReader ch) := by
  obtain ⟨s', rfl, hs⟩ := h
  unfold Relay.moveReader
  simp only
  split
  · split
    · exact .some ⟨s', rfl, hs⟩
    · exact .none
  · split
    · exact .none
    · cases (r.feeds.get ch).read ch (r.child.closing.get ch) with
      | none => exact .none
      | some f => exact .some ⟨s', rfl, hs⟩

/-! ### The coordinator -/

theorem take (h : k.Relays r r') : Option.Rel k.Relays r.take r'.take := by
  obtain ⟨s', rfl, hs⟩ := h
  unfold Relay.take
  simp only [hs.isCancelled_eq]
  split
  · split
    · exact .some ⟨s', rfl, hs⟩
    · exact .none
  · exact .some ⟨s', rfl, hs⟩
  · exact .some ⟨s', rfl, hs⟩
  · exact .some ⟨s', rfl, hs⟩

/-- The coordinator has called sinks that are alike. -/
theorem called {o o' : Outlets} (h : k.Relays r r') (ho : o.Alike k.Shows k.notices o')
    (e : Effect) :
    k.Relays (({ r with session := r.session.emit e } : Relay).withOutlets o)
      (({ r' with session := r'.session.emit e } : Relay).withOutlets o') := by
  obtain ⟨s', rfl, hs⟩ := h
  exact withOutlets ⟨_, rfl, hs.emit e⟩ ho

theorem withPhase (h : k.Relays r r') (phase : Phase) :
    k.Relays { r with phase } { r' with phase } := by
  obtain ⟨s', rfl, hs⟩ := h
  exact ⟨s', rfl, hs⟩

theorem write (h : k.Relays r r') (ch : Channel) (data : Bytes) :
    k.Relays (r.write ch data) (r'.write ch data) := by
  obtain ⟨s', rfl, hs⟩ := h
  obtain ⟨hout, hanswer⟩ := (r.trees.get ch).write_alike data hs.outlets
  have hcalled := called ⟨s', rfl, hs⟩ hout (.wrote ch data)
  unfold Relay.write
  simp only
  generalize (r.trees.get ch).write data r.session.outlets = p at hanswer hcalled ⊢
  generalize (r.trees.get ch).write data s'.outlets = p' at hanswer hcalled ⊢
  rcases p with ⟨o, answer⟩
  rcases p' with ⟨o', answer'⟩
  obtain rfl : answer' = answer := hanswer
  cases answer' with
  | ok n => exact hcalled.withPhase _
  | error fault => exact hcalled.lose fault

theorem flush (h : k.Relays r r') (ch : Channel) :
    k.Relays (r.flush ch) (r'.flush ch) := by
  obtain ⟨s', rfl, hs⟩ := h
  obtain ⟨hout, hanswer⟩ := (r.trees.get ch).flush_alike hs.outlets
  have hcalled := called ⟨s', rfl, hs⟩ hout (.flushed ch)
  unfold Relay.flush
  simp only
  generalize (r.trees.get ch).flush r.session.outlets = p at hanswer hcalled ⊢
  generalize (r.trees.get ch).flush s'.outlets = p' at hanswer hcalled ⊢
  rcases p with ⟨o, answer⟩
  rcases p' with ⟨o', answer'⟩
  obtain rfl : answer' = answer := hanswer
  cases answer' with
  | ok _ => exact hcalled.withPhase _
  | error fault => exact hcalled.lose fault

theorem kill (h : k.Relays r r') : k.Relays r.kill r'.kill := by
  obtain ⟨s', rfl, hs⟩ := h
  unfold Relay.kill
  simp only
  refine ⟨_, rfl, ?_⟩
  simp only
  split
  · exact hs.emit _
  · split
    · exact (hs.emit _).note _ _
    · exact (hs.emit _).note _ _

theorem reap (h : k.Relays r r') : k.Relays r.reap r'.reap := by
  obtain ⟨s', rfl, hs⟩ := h
  have hignored : k.Relays
      (Relay.ignore { r with child := r.child.reap, session := r.session.emit .reaped })
      (Relay.ignore { r with child := r.child.reap, session := s'.emit .reaped }) :=
    ignore ⟨_, rfl, hs.emit .reaped⟩
  obtain ⟨s₁, hr, hs₁⟩ := hignored
  unfold Relay.reap
  simp only [hr]
  exact ⟨s₁, rfl, hs₁⟩

theorem join (h : k.Relays r r') (ch : Channel) (left : Nat) :
    Option.Rel k.Relays (r.join ch left) (r'.join ch left) := by
  obtain ⟨s', rfl, hs⟩ := h
  unfold Relay.join
  simp only
  split
  · split
    · exact .some ⟨s', rfl, hs⟩
    · exact .some ⟨_, rfl, hs.note _ _⟩
  · split
    · exact .some ⟨_, rfl, hs.note _ _⟩
    · exact .none

/-- The coordinator moves alike. -/
theorem moveCoordinator (h : k.Relays r r') :
    Option.Rel k.Relays r.moveCoordinator r'.moveCoordinator := by
  have hr := h
  obtain ⟨s', rfl, hs⟩ := h
  unfold Relay.moveCoordinator
  simp only [hs.isCancelled_eq]
  split
  · split
    · exact .some hr.beginWait
    · split
      · exact .some ⟨s', rfl, hs⟩
      · exact .some ⟨s', rfl, hs⟩
  · exact hr.take
  · exact .some (hr.write _ _)
  · exact .some (hr.flush _)
  · split
    · exact .some hr.reap
    · split
      · split
        · exact .some ⟨s', rfl, hs⟩
        · exact .some hr.beginWait
      · exact .none
  · split
    · exact .some hr.reap
    · exact .some ⟨s', rfl, hs⟩
  · exact .some hr.kill
  · split
    · exact .some hr.reap
    · exact .none
  · split
    · exact .some ⟨s', rfl, hs⟩
    · split
      · exact .none
      · exact .some ⟨s', rfl, hs⟩
      · exact .some ⟨s', rfl, hs⟩
  · exact hr.join _ _
  · exact .none

/-! ### Schedules -/

/-- Whoever moves on one side moves on the other, to the same effect. -/
theorem turn (h : k.Relays r r') (t : Relay.Turn) :
    Option.Rel k.Relays (r.turn t) (r'.turn t) := by
  cases t with
  | coordinator => exact h.moveCoordinator
  | reader ch => exact h.moveReader ch
  | child => exact h.moveChild
  | time => exact h.passTime
  | cancel reason => exact .some (h.cancel reason)

/-- A schedule leads both sides on, or neither. -/
theorem follow (h : k.Relays r r') (turns : List Relay.Turn) :
    Option.Rel k.Relays (r.follow turns) (r'.follow turns) := by
  induction turns generalizing r r' with
  | nil => exact .some h
  | cons t ts ih =>
      have hturn := h.turn t
      unfold Relay.follow
      generalize r.turn t = a at hturn ⊢
      generalize r'.turn t = b at hturn ⊢
      cases hturn with
      | none => exact .none
      | some hnext => exact ih hnext

theorem isFinished_eq (h : k.Relays r r') : r'.isFinished = r.isFinished := by
  obtain ⟨s', rfl, -⟩ := h
  rfl

theorem advance (h : k.Relays r r') : Option.Rel k.Relays r.advance r'.advance := by
  unfold Relay.advance
  induction Relay.order with
  | nil => exact .none
  | cons t ts ih =>
      have hturn := h.turn t
      rw [List.findSome?_cons, List.findSome?_cons]
      generalize r.turn t = a at hturn ⊢
      generalize r'.turn t = b at hturn ⊢
      cases hturn with
      | none => exact ih
      | some hnext => exact .some hnext

theorem settleWithin (h : k.Relays r r') (n : Nat) :
    Option.Rel k.Relays (r.settleWithin n) (r'.settleWithin n) := by
  induction n generalizing r r' with
  | zero => exact .none
  | succ n ih =>
      unfold Relay.settleWithin
      rw [h.isFinished_eq]
      split
      · exact .some h
      · have hadvance := h.advance
        generalize r.advance = a at hadvance ⊢
        generalize r'.advance = b at hadvance ⊢
        cases hadvance with
        | none => exact .none
        | some hnext => exact ih hnext

/-- To settle takes both sides as many turns. -/
theorem settle (h : k.Relays r r') : Option.Rel k.Relays r.settle r'.settle := by
  have hbound : r'.turnBound = r.turnBound := by
    obtain ⟨s', rfl, hs⟩ := h
    simp only [Relay.turnBound, hs.timers]
  unfold Relay.settle
  rw [hbound]
  exact h.settleWithin _

end Relays

end Contrast

end CommandRelay
