import CommandRelay.Proofs.Relay.Quiet

/-!
# What a turn can do

`Coordinates` lists what the coordinator can do in a turn and `Attends` what the others can, and
`step_of_turn` derives both lists once from the turns. Requests to cancel that a turn brings about,
by alarms or by a timer, come in after the rest (`Stirs`). To the coordinator all that is not its
own looks alike: the child may exit, time passes and requests come in (`Surrounds`). So what a
relay keeps in every schedule is kept by what the coordinator does, and by what surrounds it.
-/

namespace CommandRelay

namespace Session

/-- A session after a call to sinks, of which the alarms are yet to sound. -/
def answered (s : Session) (e : Effect) (o : Outlets) : Session :=
  { s.emit e with outlets := { o with alarms := [] } }

/-- A session that has had some more effects, and has noted lines or forgotten callbacks. -/
structure Records (effects : List Effect) (s s' : Session) : Prop where
  effects : s'.effects = s.effects ++ effects
  cancelled : s'.isCancelled = s.isCancelled
  outlets : s'.outlets = s.outlets

end Session

namespace Relay

/-- What the coordinator does in a turn. -/
inductive Coordinates (r : Relay) : Relay → Prop
  | look (hp : r.phase = .checking) (ho : r.openChannels ≠ [])
      (hc : r.session.isCancelled = false) : Coordinates r { r with phase := .taking }
  | lookAgain (hp : r.phase = .taking) (hq : r.queue = [])
      (hc : r.session.isCancelled = true) : Coordinates r { r with phase := .checking }
  | wait (hp : r.phase = .checking ∧ r.openChannels = [] ∨
        r.phase = .waiting 0 ∧ r.child.code? = none ∧ r.session.isCancelled = false) :
      Coordinates r { r with waits := r.waits + 1, phase := .waiting (max 1 r.plan.poll) }
  | stop (hp : r.phase = .checking ∧ r.openChannels ≠ [] ∨
        r.phase = .waiting 0 ∧ r.child.code? = none)
      (hc : r.session.isCancelled = true) :
      Coordinates r { r with stopped := true, phase := .stopping }
  | takeCancelled {queue} (hp : r.phase = .taking) (hq : r.queue = .cancelled :: queue) :
      Coordinates r { r with queue, stopped := true, phase := .stopping }
  | takeEnd {ch queue} (hp : r.phase = .taking) (hq : r.queue = .ended ch :: queue) :
      Coordinates r { r with
        queue, openChannels := r.openChannels.erase ch, phase := .checking }
  | takeChunk {ch data queue} (hp : r.phase = .taking) (hq : r.queue = .chunk ch data :: queue)
      (hd : r.draining = false) : Coordinates r { r with queue, phase := .writing ch data }
  | dropChunk {ch data queue} (hp : r.phase = .taking) (hq : r.queue = .chunk ch data :: queue)
      (hd : r.draining = true) : Coordinates r { r with queue, phase := .checking }
  | write {ch data o n} (hp : r.phase = .writing ch data)
      (hw : (r.trees.get ch).write data r.session.outlets = (o, .ok n)) :
      Coordinates r { r with
        session := r.session.answered (.wrote ch data) o, phase := .flushing ch }
  | writeFault {ch data o fault} (hp : r.phase = .writing ch data)
      (hw : (r.trees.get ch).write data r.session.outlets = (o, .error fault)) :
      Coordinates r
        (lose { r with session := r.session.answered (.wrote ch data) o } fault)
  | flush {ch o} (hp : r.phase = .flushing ch)
      (hf : (r.trees.get ch).flush r.session.outlets = (o, .ok ())) :
      Coordinates r { r with session := r.session.answered (.flushed ch) o, phase := .checking }
  | flushFault {ch o fault} (hp : r.phase = .flushing ch)
      (hf : (r.trees.get ch).flush r.session.outlets = (o, .error fault)) :
      Coordinates r (lose { r with session := r.session.answered (.flushed ch) o } fault)
  | abandon (hp : r.phase = .abandoning) (hc : r.child.code? = none) :
      Coordinates r { r with phase := .stopping }
  | kill {s} (hp : r.phase = .stopping)
      (hs : r.session.Records [.killed r.plan.grouped] s) :
      Coordinates r { r with child := r.child.kill.1, session := s, phase := .reaping }
  | reap {s} (hp : r.phase = .abandoning ∨ r.phase = .reaping ∨ ∃ left, r.phase = .waiting left)
      (hc : r.child.code?.isSome = true) (hs : r.session.Records [.reaped] s) :
      Coordinates r { r with
        child := r.child.reap
        session := s
        phase := if r.broken.isSome then .finished else .discarding r.plan.patience }
  | discardEnd {left ch queue} (hp : r.phase = .discarding left) (ho : r.openChannels ≠ [])
      (hq : r.queue = .ended ch :: queue) :
      Coordinates r { r with queue, openChannels := r.openChannels.erase ch }
  | discard {left e queue} (hp : r.phase = .discarding left) (ho : r.openChannels ≠ [])
      (hq : r.queue = e :: queue) (he : ∀ ch, e ≠ .ended ch) : Coordinates r { r with queue }
  | discarded {left} (hp : r.phase = .discarding left) (ho : r.openChannels = [] ∨ left = 0) :
      Coordinates r { r with phase := .joining .stdout r.plan.patience }
  | join {ch left s} (hp : r.phase = .joining ch left) (hs : r.session.Records [] s) :
      Coordinates r { r with session := s, phase := r.afterJoin ch }

/-- What the others do in a turn. -/
inductive Attends (r : Relay) : Turn → Relay → Prop
  | publish {ch e outbox} (ho : (r.feeds.get ch).outbox = e :: outbox)
      (hroom : r.queue.length < r.plan.capacity) :
      Attends r (.reader ch) { r with
        queue := r.queue ++ [e]
        feeds := r.feeds.set ch { r.feeds.get ch with outbox } }
  | read {ch f} (ho : (r.feeds.get ch).outbox = []) (hf : (r.feeds.get ch).finished = false)
      (hr : (r.feeds.get ch).read ch (r.child.closing.get ch) = some f) :
      Attends r (.reader ch) { r with feeds := r.feeds.set ch f }
  | exit {moves} (hl : r.child.life = .running)
      (hm : r.child.moves = [] ∧ moves = [] ∨ r.child.moves = .exit :: moves) :
      Attends r .child { r with
        child := { r.child with moves, life := .exited r.child.exitCode } }
  | aside {m moves disk} (hm : r.child.moves = m :: moves)
      (hside : m.IsAside ∨ ∃ ch, m = .output ch [])
      (hd : disk = r.session.outlets.disk ∨
        ∃ change, m = .edit change ∧ disk = r.session.outlets.disk.apply change) :
      Attends r .child { r with
        child := { r.child with moves }
        session := { r.session with outlets := { r.session.outlets with disk } } }
  | output {ch data rest} (hm : r.child.moves = .output ch data :: rest) (hd : data ≠ [])
      (hroom : (r.feeds.get ch).hasRoom (data.take Stream.readSize) = true) :
      Attends r .child { r with
        child := { r.child with moves := Move.leftover ch data rest }
        feeds := r.feeds.set ch { r.feeds.get ch with
          pipe := (r.feeds.get ch).pipe ++ [data.take Stream.readSize] } }
  | close {ch ending rest} (hm : r.child.moves = .close ch ending :: rest) :
      Attends r .child { r with
        child := { r.child with moves := rest }
        feeds := r.feeds.set ch ((r.feeds.get ch).close ending) }
  | elapse {time} : Attends r .time (r.elapse time)
  | due {t} (ht : t ∈ r.session.timers) :
      Attends r .time { r with session := { r.session with timers := r.session.timers.erase t } }
  | request {reason} : Attends r (.cancel reason) r

variable {r r₁ r' r'' : Relay}

/-! ## Requests that come in after the rest -/

theorem Stirs.phase (h : r.Stirs r') (p : Phase) :
    ({ r with phase := p } : Relay).Stirs { r' with phase := p } :=
  ⟨h.session, h.queue, h.quiet, by rw [h.rest]⟩

theorem Stirs.lose (h : r.Stirs r') (fault : AccessFault) :
    (r.lose fault).Stirs (r'.lose fault) := by
  have hplan : r'.plan = r.plan := by rw [h.rest]
  cases fault with
  | system e =>
      have hs := h.session
      refine ⟨⟨hs.outlets, ?_, hs.effects, hs.cancelled, hs.quiet⟩, h.queue, h.quiet, ?_⟩
      · simp only [Relay.lose, Session.note, hs.lines, hplan]
      · rw [h.rest]
        rfl
  | unencodable | invalid | endless | unsupported =>
      exact ⟨h.session, h.queue, h.quiet, by rw [h.rest]; rfl⟩

/-! ## The turns of the coordinator -/

theorem coordinates_of_take (hp : r.phase = .taking) (h : r.take = some r') :
    r.Coordinates r' := by
  unfold take at h
  split at h
  · rename_i hq
    split at h
    · rename_i hc
      exact Option.some.inj h ▸ .lookAgain hp hq hc
    · cases h
  · rename_i hq
    exact Option.some.inj h ▸ .takeCancelled hp hq
  · rename_i hq
    exact Option.some.inj h ▸ .takeEnd hp hq
  · rename_i hq
    obtain rfl := Option.some.inj h
    by_cases hd : r.draining = true
    · rw [if_pos hd]
      exact .dropChunk hp hq hd
    · rw [if_neg hd]
      exact .takeChunk hp hq (Bool.eq_false_iff.mpr hd)

theorem coordinates_write {ch : Channel} {data : Bytes} (hp : r.phase = .writing ch data) :
    ∃ r₁, r.Coordinates r₁ ∧ r₁.Stirs (r.write ch data) := by
  have hstirs := stirs_withOutlets { r with session := r.session.emit (.wrote ch data) }
    ((r.trees.get ch).write data r.session.outlets).1
  unfold write
  rcases hw : (r.trees.get ch).write data r.session.outlets with ⟨o, fault | n⟩
  · rw [hw] at hstirs
    exact ⟨_, .writeFault hp hw, hstirs.lose fault⟩
  · rw [hw] at hstirs
    exact ⟨_, .write hp hw, hstirs.phase _⟩

theorem coordinates_flush {ch : Channel} (hp : r.phase = .flushing ch) :
    ∃ r₁, r.Coordinates r₁ ∧ r₁.Stirs (r.flush ch) := by
  have hstirs := stirs_withOutlets { r with session := r.session.emit (.flushed ch) }
    ((r.trees.get ch).flush r.session.outlets).1
  unfold flush
  rcases hf : (r.trees.get ch).flush r.session.outlets with ⟨o, fault | _⟩
  · rw [hf] at hstirs
    exact ⟨_, .flushFault hp hf, hstirs.lose fault⟩
  · rw [hf] at hstirs
    exact ⟨_, .flush hp hf, hstirs.phase _⟩

theorem coordinates_kill (hp : r.phase = .stopping) : r.Coordinates r.kill := by
  have hkill (s : Session) (hs : r.session.Records [.killed r.plan.grouped] s) :
      r.Coordinates { r with child := r.child.kill.1, session := s, phase := .reaping } :=
    .kill hp hs
  unfold kill
  rcases hk : r.child.kill with ⟨child, _ | e⟩
  · rw [hk] at hkill
    exact hkill _ ⟨rfl, rfl, rfl⟩
  · rw [hk] at hkill
    cases he : e.isNoSuchProcess <;> simp only [he] <;> exact hkill _ ⟨rfl, rfl, rfl⟩

theorem coordinates_reap
    (hp : r.phase = .abandoning ∨ r.phase = .reaping ∨ ∃ left, r.phase = .waiting left)
    (hc : r.child.code?.isSome = true) : r.Coordinates r.reap :=
  .reap hp hc ⟨rfl, rfl, rfl⟩

theorem coordinates_of_join {ch : Channel} {left : Nat} (hp : r.phase = .joining ch left)
    (h : r.join ch left = some r') : r.Coordinates r' := by
  have hjoin (s : Session) (hs : r.session.Records [] s) :
      r.Coordinates { r with session := s, phase := r.afterJoin ch } := .join hp hs
  unfold join at h
  simp only at h
  split at h
  · split at h <;> obtain rfl := Option.some.inj h <;>
      exact hjoin _ ⟨(List.append_nil _).symm, rfl, rfl⟩
  · split at h
    · obtain rfl := Option.some.inj h
      exact hjoin _ ⟨(List.append_nil _).symm, rfl, rfl⟩
    · cases h

theorem coordinates_of_moveCoordinator (h : r.moveCoordinator = some r') :
    ∃ r₁, r.Coordinates r₁ ∧ r₁.Stirs r' := by
  have halone {r₁ : Relay} (hstep : r.Coordinates r₁) : ∃ r₂, r.Coordinates r₂ ∧ r₂.Stirs r₁ :=
    ⟨r₁, hstep, .refl r₁⟩
  unfold moveCoordinator at h
  split at h
  case h_1 hp =>
    split at h
    · rename_i ho
      obtain rfl := Option.some.inj h
      exact ⟨_, .wait (.inl ⟨hp, ho⟩), stirs_beginWait r⟩
    · rename_i ho
      split at h
      · rename_i hc
        obtain rfl := Option.some.inj h
        exact halone (.stop (.inl ⟨hp, ho⟩) hc)
      · rename_i hc
        obtain rfl := Option.some.inj h
        exact halone (.look hp ho (Bool.eq_false_iff.mpr hc))
  case h_2 hp => exact halone (coordinates_of_take hp h)
  case h_3 hp =>
    obtain rfl := Option.some.inj h
    exact coordinates_write hp
  case h_4 hp =>
    obtain rfl := Option.some.inj h
    exact coordinates_flush hp
  case h_5 left hp =>
    split at h
    · rename_i hc
      obtain rfl := Option.some.inj h
      exact halone (coordinates_reap (.inr (.inr ⟨left, hp⟩)) hc)
    · rename_i hrunning
      split at h
      · rename_i hleft
        subst hleft
        have hcode := Option.not_isSome_iff_eq_none.mp hrunning
        split at h
        · rename_i hc
          obtain rfl := Option.some.inj h
          exact halone (.stop (.inr ⟨hp, hcode⟩) hc)
        · rename_i hc
          obtain rfl := Option.some.inj h
          exact ⟨_, .wait (.inr ⟨hp, hcode, Bool.eq_false_iff.mpr hc⟩), stirs_beginWait r⟩
      · cases h
  case h_6 hp =>
    split at h
    · rename_i hc
      obtain rfl := Option.some.inj h
      exact halone (coordinates_reap (.inl hp) hc)
    · rename_i hc
      obtain rfl := Option.some.inj h
      exact halone (.abandon hp (Option.not_isSome_iff_eq_none.mp hc))
  case h_7 hp =>
    obtain rfl := Option.some.inj h
    exact halone (coordinates_kill hp)
  case h_8 hp =>
    split at h
    · rename_i hc
      obtain rfl := Option.some.inj h
      exact halone (coordinates_reap (.inr (.inl hp)) hc)
    · cases h
  case h_9 left hp =>
    split at h
    · rename_i ho
      obtain rfl := Option.some.inj h
      exact halone (.discarded hp ho)
    · rename_i ho
      have hopen : r.openChannels ≠ [] := fun hnil => ho (.inl hnil)
      split at h
      · cases h
      · rename_i hq
        obtain rfl := Option.some.inj h
        exact halone (.discardEnd hp hopen hq)
      · rename_i hne hq
        obtain rfl := Option.some.inj h
        exact halone (.discard hp hopen hq hne)
  case h_10 ch left hp => exact halone (coordinates_of_join hp h)
  case h_11 => cases h

/-! ## The turns of the others -/

theorem attends_of_moveReader {ch : Channel} (h : r.moveReader ch = some r') :
    r.Attends (.reader ch) r' := by
  unfold moveReader at h
  simp only at h
  split at h
  · rename_i ho
    split at h
    · rename_i hroom
      exact Option.some.inj h ▸ .publish ho hroom
    · cases h
  · rename_i ho
    split at h
    · cases h
    · rename_i hfin
      obtain ⟨f, hf, rfl⟩ := Option.map_eq_some_iff.mp h
      exact .read ho (Bool.eq_false_iff.mpr hfin) hf

theorem attends_of_moveChild (h : r.moveChild = some r') : r.Attends .child r' := by
  unfold moveChild at h
  split at h
  case h_1 hl hm =>
    obtain rfl := Option.some.inj h
    exact .exit hl (.inl ⟨hm, hm⟩)
  case h_2 => cases h
  case h_3 moves hl hm =>
    obtain rfl := Option.some.inj h
    exact .exit hl (.inr hm)
  case h_4 moves hm _ =>
    obtain rfl := Option.some.inj h
    exact .aside hm (.inl trivial) (.inl rfl)
  case h_5 change moves hm =>
    obtain rfl := Option.some.inj h
    exact .aside hm (.inl trivial) (.inr ⟨change, rfl, rfl⟩)
  case h_6 ch data rest hm =>
    simp only at h
    split at h
    · rename_i hpiece
      obtain rfl : data = [] := (List.take_eq_nil_iff.mp hpiece).resolve_left (by decide)
      obtain rfl := Option.some.inj h
      exact .aside hm (.inr ⟨ch, rfl⟩) (.inl rfl)
    · rename_i hpiece
      split at h
      · rename_i hroom
        obtain rfl := Option.some.inj h
        refine .output hm ?_ hroom
        rintro rfl
        exact hpiece List.take_nil
      · cases h
  case h_7 ch ending moves hm =>
    obtain rfl := Option.some.inj h
    exact .close hm
  case h_8 moves hm =>
    obtain rfl := Option.some.inj h
    exact .aside hm (.inl trivial) (.inl rfl)
  case h_9 => cases h

theorem attends_of_passTime (h : r.passTime = some r') :
    ∃ r₁, r.Attends .time r₁ ∧ r₁.Stirs r' := by
  unfold passTime at h
  split at h
  · rename_i t ht
    obtain rfl := Option.some.inj h
    exact ⟨_, .due (List.mem_of_find?_eq_some ht), stirs_cancel _ t.reason⟩
  · split at h
    · cases h
    · obtain rfl := Option.some.inj h
      exact ⟨_, .elapse, .refl _⟩

/-- A turn is a step of whose turn it is, and then requests to cancel come in. -/
theorem step_of_turn {t : Turn} (h : r.turn t = some r') :
    (t = .coordinator ∧ ∃ r₁, r.Coordinates r₁ ∧ r₁.Stirs r') ∨
      ∃ r₁, r.Attends t r₁ ∧ r₁.Stirs r' := by
  cases t with
  | coordinator => exact .inl ⟨rfl, coordinates_of_moveCoordinator h⟩
  | reader ch => exact .inr ⟨r', attends_of_moveReader h, .refl r'⟩
  | child => exact .inr ⟨r', attends_of_moveChild h, .refl r'⟩
  | time => exact .inr (attends_of_passTime h)
  | cancel reason =>
      obtain rfl := Option.some.inj h
      exact .inr ⟨r, .request, stirs_cancel r reason⟩

/-! ## What surrounds the coordinator -/

/-- A relay in which the coordinator has made no turn: the child may have exited, time may have
passed, and requests to cancel may have come in. -/
structure Surrounds (r r' : Relay) : Prop where
  plan : r'.plan = r.plan
  phase : r'.phase = r.phase ∨ ∃ time, r'.phase = Phase.elapse time r.phase
  openChannels : r'.openChannels = r.openChannels
  life : r'.child.life = r.child.life ∨
    r.child.life = .running ∧ r'.child.life = .exited r.child.exitCode
  draining : r'.draining = r.draining
  lost : r'.lost = r.lost
  broken : r'.broken = r.broken
  stopped : r'.stopped = r.stopped
  effects : r.session.Grows Effect.IsCancelled r'.session
  cancelled : r.session.isCancelled = true → r'.session.isCancelled = true

theorem Stirs.surrounds (h : r.Stirs r') : r.Surrounds r' := by
  have hs := h.session
  rw [h.rest]
  exact ⟨rfl, .inl rfl, rfl, .inl rfl, rfl, rfl, rfl, rfl, hs.effects, hs.cancelled⟩

theorem Attends.surrounds {t : Turn} (h : r.Attends t r') : r.Surrounds r' := by
  cases h with
  | exit hl =>
      exact ⟨rfl, .inl rfl, rfl, .inr ⟨hl, rfl⟩, rfl, rfl, rfl, rfl, .refl _, id⟩
  | @elapse time =>
      have hlife : (r.child.elapse time).life = r.child.life := by
        unfold Child.elapse
        split <;> rfl
      exact ⟨rfl, .inr ⟨time, rfl⟩, rfl, .inl hlife, rfl, rfl, rfl, rfl, .of_eq rfl, id⟩
  | publish | read | aside | output | close | due | request =>
      exact ⟨rfl, .inl rfl, rfl, .inl rfl, rfl, rfl, rfl, rfl, .of_eq rfl, id⟩

/-- What a phase keeps when time passes, a phase keeps that surrounds the coordinator. -/
theorem Surrounds.phase_eq {α : Type} (hs : r.Surrounds r₁) {f : Phase → α}
    (hf : ∀ time p, f (Phase.elapse time p) = f p) : f r₁.phase = f r.phase := by
  rcases hs.phase with hp | ⟨time, hp⟩
  · rw [hp]
  · rw [hp, hf]

/-- A relay of which nobody has made a turn yet; requests to cancel may have come in. -/
structure Starts (r : Relay) : Prop where
  feeds : ∀ ch, r.feeds.get ch = {}
  queue : ∃ n, r.queue = List.replicate n .cancelled
  quiet : r.session.isCancelled = false → r.queue = []
  openChannels : r.openChannels = Channel.all
  phase : r.phase = .checking
  draining : r.draining = false
  lost : r.lost = none
  broken : r.broken = none
  stopped : r.stopped = false

/-- A relay starts with what it is set up with. -/
theorem starts_listen (plan : RelayPlan) (child : Child) (trees : PerChannel SinkTree)
    (s : Session) (alarms : List (Nat × Text)) :
    (listen { plan, child, trees, session := s, waitAlarms := alarms }).Starts := by
  have hs := stirs_listen { plan, child, trees, session := s, waitAlarms := alarms }
  obtain ⟨n, hn⟩ := hs.queue
  have hquiet := hs.quiet
  rw [hs.rest]
  refine ⟨fun ch => ?_, ⟨n, hn⟩, hquiet, rfl, rfl, rfl, rfl, rfl, rfl⟩
  cases ch <;> rfl

end Relay

end CommandRelay
