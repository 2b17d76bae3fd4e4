import CommandRelay.Proofs.Execution.Moments
import CommandRelay.Proofs.Relay.Turns
import CommandRelay.Proofs.Sink.Delivery
import CommandRelay.Proofs.Stream.Published

/-!
# Turns of an undisturbed relay

A relay is undisturbed as long as nobody asked for the cancellation and no sink has failed. Since
no turn takes such a thing back, an undisturbed relay was so all along. `Quiet` lists what a turn
can do then, and `quiet_of_turn` derives it once from the turns, so that whatever is said about
undisturbed relays is said by going through that list.
-/

namespace CommandRelay

/-- The call to the sinks of a channel that an effect stands for. -/
def Effect.call? : Effect → Option (Channel × Sink.Call)
  | .wrote ch data => some (ch, .write data)
  | .flushed ch => some (ch, .flush)
  | _ => none

/-- The calls to sinks, in order. -/
def Session.calls (s : Session) : List (Channel × Sink.Call) :=
  s.effects.filterMap Effect.call?

namespace Move

/-- Moves that put out the same as others, though they may pause or change the disk less. -/
structure Resembles (moves moves' : List Move) : Prop where
  reads : ∀ ch, reads ch moves' = reads ch moves
  orderly : ∀ ch, Orderly ch moves → Orderly ch moves'
  silent : ∀ ch, Silent ch moves → Silent ch moves'
  edits : ∀ change, .edit change ∈ moves' → .edit change ∈ moves

theorem Resembles.refl (moves : List Move) : Resembles moves moves :=
  ⟨fun _ => rfl, fun _ => id, fun _ => id, fun _ => id⟩

theorem Silent.tail {ch : Channel} {m : Move} {rest : List Move} (h : Silent ch (m :: rest)) :
    Silent ch rest :=
  fun data hmem => h data (List.mem_cons_of_mem _ hmem)

/-- A move that neither writes on a channel nor ends one. -/
def IsAside : Move → Prop
  | .edit _ | .exit | .pause _ => True
  | .output .. | .close .. => False

theorem resembles_tail {m : Move} (hm : m.IsAside) (rest : List Move) :
    Resembles (m :: rest) rest := by
  refine ⟨fun ch => ?_, fun ch h => ?_, fun _ => Silent.tail, fun _ => List.mem_cons_of_mem _⟩
  · cases m with
    | edit | exit | pause => rfl
    | output | close => exact hm.elim
  · cases m with
    | edit | exit | pause => exact h
    | output | close => exact hm.elim

theorem resembles_output_nil (ch : Channel) (rest : List Move) :
    Resembles (.output ch [] :: rest) rest := by
  refine ⟨fun ch' => ?_, fun _ => id, fun _ => Silent.tail, fun _ => List.mem_cons_of_mem _⟩
  rw [Move.reads, Stream.Source.pieces_nil, List.nil_append, ite_self]

theorem resembles_elapse (c : Child) (time : Nat) :
    Resembles c.moves (c.elapse time).moves := by
  unfold Child.elapse
  split
  · rename_i t rest hm
    rw [hm]
    refine ⟨fun _ => rfl, fun _ => id, fun ch hs data hmem => ?_, fun change hmem => ?_⟩
    · rcases List.mem_cons.mp hmem with heq | hmem
      · cases heq
      · exact hs.tail data hmem
    · rcases List.mem_cons.mp hmem with heq | hmem
      · cases heq
      · exact List.mem_cons_of_mem _ hmem
  · exact .refl _

/-- What is left of moves once the first piece of the output in front has been put out. -/
def leftover (ch : Channel) (data : Bytes) (rest : List Move) : List Move :=
  if data.drop Stream.readSize = [] then rest
  else .output ch (data.drop Stream.readSize) :: rest

end Move

/-! ## Undisturbed relays -/

/-- What the coordinator has in hand: nothing, a chunk to write, or one that it has written and not
flushed yet. -/
inductive Hand where
  | empty
  | chunk (channel : Channel) (data : Bytes)
  | written (channel : Channel)
  deriving DecidableEq, Repr

/-- What the coordinator has in hand in a phase. -/
def Phase.hand : Phase → Hand
  | .writing ch data => .chunk ch data
  | .flushing ch => .written ch
  | _ => .empty

/-- Whether the coordinator may be in a phase while the given channels are open, if nothing has
disturbed it: it takes an event only if some channel is open, and leaves the copying only if none
is. -/
def Phase.Suits : Phase → List Channel → Prop
  | .taking, openChannels => openChannels ≠ []
  | .checking, _ | .writing .., _ | .flushing _, _ => True
  | .waiting _, openChannels | .discarding _, openChannels | .joining .., openChannels
  | .finished, openChannels => openChannels = []
  | .abandoning, _ | .stopping, _ | .reaping, _ => False

/-- A channel that a child ends, unless it has ended it already. -/
def Feed.close (f : Feed) (ending : Stream.Ending) : Feed :=
  if f.ended.isNone then { f with ended := some ending } else f

theorem Feed.outbox_close (f : Feed) (ending : Stream.Ending) :
    (f.close ending).outbox = f.outbox := by
  unfold Feed.close
  split <;> rfl

/-- What a read of a reader comes to: chunks of a piece, or the last ones and the end marker. -/
theorem Feed.read_eq_some {f f' : Feed} {ch : Channel} {closing : Option SystemError}
    (h : f.read ch closing = some f') :
    (∃ piece pipe, f.pipe = piece :: pipe ∧ f' = { f with
      pipe
      reader := (f.reader.feed piece).2
      outbox := (f.reader.feed piece).1.map (.chunk ch) }) ∨
    ∃ ending, f.pipe = [] ∧ f.ended = some ending ∧ f' = { f with
      outbox := (f.reader.conclude closing ending).1.map (.chunk ch) ++ [.ended ch]
      finished := true
      error := (f.reader.conclude closing ending).2 } := by
  unfold Feed.read at h
  split at h
  · rename_i piece pipe hpipe
    exact .inl ⟨piece, pipe, hpipe, (Option.some.inj h).symm⟩
  · rename_i ending hpipe hended
    exact .inr ⟨ending, hpipe, hended, (Option.some.inj h).symm⟩
  · cases h

namespace Relay

/-- A relay that nobody has asked to cancel and of which no sink has failed. -/
structure Undisturbed (r : Relay) : Prop where
  notCancelled : r.session.isCancelled = false
  notLost : r.lost = none
  notBroken : r.broken = none

/-- A relay that nothing has disturbed: nothing but the output of the child is on its way. -/
structure Calm (r : Relay) : Prop where
  phase : r.phase.Suits r.openChannels
  draining : r.draining = false
  queue : .cancelled ∉ r.queue
  outbox : ∀ ch, .cancelled ∉ (r.feeds.get ch).outbox
  nodup : r.openChannels.Nodup

/-- A relay that has changed, but not in what is on its way from the child to the sinks. -/
structure Idles (r r' : Relay) : Prop where
  feeds : r'.feeds = r.feeds
  queue : r'.queue = r.queue
  openChannels : r'.openChannels = r.openChannels
  trees : r'.trees = r.trees
  draining : r'.draining = r.draining
  phase : r'.phase.Suits r.openChannels
  hand : r'.phase.hand = r.phase.hand
  moves : Move.Resembles r.child.moves r'.child.moves
  calls : r'.session.calls = r.session.calls
  sinks : r'.session.outlets.sinks = r.session.outlets.sinks
  disk : r'.session.outlets.disk = r.session.outlets.disk ∨
    ∃ change, .edit change ∈ r.child.moves ∧
      r'.session.outlets.disk = r.session.outlets.disk.apply change

/-- What a turn can do in an undisturbed relay, with the calls to sinks that it makes. -/
inductive Quiet (r : Relay) : List (Channel × Sink.Call) → Relay → Prop
  | idle {r'} (h : r.Idles r') : Quiet r [] r'
  | output {ch data rest} (hm : r.child.moves = .output ch data :: rest) (hd : data ≠ []) :
      Quiet r [] { r with
        child := { r.child with moves := Move.leftover ch data rest }
        feeds := r.feeds.set ch { r.feeds.get ch with
          pipe := (r.feeds.get ch).pipe ++ [data.take Stream.readSize] } }
  | close {ch ending rest} (hm : r.child.moves = .close ch ending :: rest) :
      Quiet r [] { r with
        child := { r.child with moves := rest }
        feeds := r.feeds.set ch ((r.feeds.get ch).close ending) }
  | read {ch f} (closing : Option SystemError) (ho : (r.feeds.get ch).outbox = [])
      (hf : (r.feeds.get ch).finished = false) (hr : (r.feeds.get ch).read ch closing = some f) :
      Quiet r [] { r with feeds := r.feeds.set ch f }
  | publish {ch e outbox} (ho : (r.feeds.get ch).outbox = e :: outbox) :
      Quiet r [] { r with
        queue := r.queue ++ [e]
        feeds := r.feeds.set ch { r.feeds.get ch with outbox } }
  | takeChunk {ch data queue} (hp : r.phase = .taking) (hq : r.queue = .chunk ch data :: queue) :
      Quiet r [] { r with queue, phase := .writing ch data }
  | takeEnd {ch queue} (hp : r.phase = .taking) (hq : r.queue = .ended ch :: queue) :
      Quiet r [] { r with queue, openChannels := r.openChannels.erase ch, phase := .checking }
  | write {ch data s o n} (hp : r.phase = .writing ch data)
      (hw : (r.trees.get ch).write data r.session.outlets = (o, .ok n))
      (he : s.effects = r.session.effects ++ [.wrote ch data])
      (ho : s.outlets = { o with alarms := [] }) :
      Quiet r [(ch, .write data)] { r with phase := .flushing ch, session := s }
  | flush {ch s o} (hp : r.phase = .flushing ch)
      (hf : (r.trees.get ch).flush r.session.outlets = (o, .ok ()))
      (he : s.effects = r.session.effects ++ [.flushed ch])
      (ho : s.outlets = { o with alarms := [] }) :
      Quiet r [(ch, .flush)] { r with phase := .checking, session := s }

variable {r r' : Relay}

/-- No turn makes a relay undisturbed again. -/
theorem Undisturbed.of_advances (hu : r'.Undisturbed) (h : r.Advances r') : r.Undisturbed where
  notCancelled := by
    cases hc : r.session.isCancelled with
    | false => rfl
    | true => exact absurd (h.cancelled hc) (by simp [hu.notCancelled])
  notLost := by
    cases hl : r.lost with
    | none => rfl
    | some e =>
        have hs := h.lost (by rw [hl]; rfl)
        rw [hu.notLost] at hs
        cases hs
  notBroken := by
    cases hb : r.broken with
    | none => rfl
    | some e =>
        have hs := h.broken (by rw [hb]; rfl)
        rw [hu.notBroken] at hs
        cases hs

/-! ## Turns that idle -/

/-- A change of the phase, of the child or of what is noted. -/
theorem idles_of_eq {phase : Phase} {child : Child} {waits : Nat} {s : Session}
    (hphase : phase.Suits r.openChannels)
    (hhand : phase.hand = r.phase.hand) (hm : Move.Resembles r.child.moves child.moves)
    (hc : s.calls = r.session.calls) (ho : s.outlets = r.session.outlets) :
    r.Idles { r with phase, child, waits, session := s } :=
  ⟨rfl, rfl, rfl, rfl, rfl, hphase, hhand, hm, hc, by rw [ho], .inl (by rw [ho])⟩

/-- Where nobody has asked for the cancellation, requests do nothing. -/
theorem Idles.stirs {r₁ : Relay} (h : r.Idles r₁) (hs : r₁.Stirs r')
    (hu : r'.session.isCancelled = false) : r.Idles r' := by
  have hcalls : r'.session.calls = r₁.session.calls := by
    rw [Session.calls, hs.session.quiet hu, Session.calls]
  have hq := hs.quiet hu
  have ho := hs.session.outlets
  rw [hs.rest]
  exact ⟨h.feeds, hq.trans h.queue, h.openChannels, h.trees, h.draining, h.phase, h.hand, h.moves,
    hcalls.trans h.calls, (congrArg _ ho).trans h.sinks, by rw [ho]; exact h.disk⟩

theorem idles_of_phase {phase : Phase}
    (hphase : phase.Suits r.openChannels)
    (hhand : phase.hand = r.phase.hand) : r.Idles { r with phase } :=
  ⟨rfl, rfl, rfl, rfl, rfl, hphase, hhand, .refl _, rfl, rfl, .inl rfl⟩

/-! ## The turns -/

theorem quiet_of_moveChild (hc : r.Calm) (h : r.moveChild = some r') : r.Quiet [] r' := by
  have hidle (child : Child) (hm : Move.Resembles r.child.moves child.moves) :
      r.Quiet [] { r with child } :=
    .idle (idles_of_eq hc.phase rfl hm rfl rfl)
  unfold moveChild at h
  split at h
  case h_1 => exact Option.some.inj h ▸ hidle _ (.refl _)
  case h_2 => cases h
  case h_3 moves _ hm =>
    exact Option.some.inj h ▸ hidle _ (hm ▸ Move.resembles_tail (m := .exit) trivial moves)
  case h_4 moves hm _ =>
    exact Option.some.inj h ▸ hidle _ (hm ▸ Move.resembles_tail (m := .exit) trivial moves)
  case h_5 change moves hm =>
    obtain rfl := Option.some.inj h
    have hmoves := Move.resembles_tail (m := .edit change) trivial moves
    refine .idle ⟨rfl, rfl, rfl, rfl, rfl, hc.phase, rfl, hm ▸ hmoves, rfl, rfl,
      .inr ⟨change, ?_, rfl⟩⟩
    rw [hm]
    exact List.mem_cons_self
  case h_6 ch data rest hm =>
    simp only at h
    split at h
    · rename_i hpiece
      obtain rfl : data = [] := (List.take_eq_nil_iff.mp hpiece).resolve_left (by decide)
      exact Option.some.inj h ▸ hidle _ (hm ▸ Move.resembles_output_nil ch rest)
    · rename_i hpiece
      split at h
      · obtain rfl := Option.some.inj h
        refine .output hm ?_
        rintro rfl
        exact hpiece List.take_nil
      · cases h
  case h_7 ch ending moves hm => exact Option.some.inj h ▸ .close hm
  case h_8 moves hm =>
    have hmoves := Move.resembles_tail (m := .pause (some 0)) trivial moves
    exact Option.some.inj h ▸ hidle _ (hm ▸ hmoves)
  case h_9 => cases h

theorem quiet_of_moveReader {ch : Channel} (h : r.moveReader ch = some r') : r.Quiet [] r' := by
  unfold moveReader at h
  simp only at h
  split at h
  · rename_i e outbox ho
    split at h
    · exact Option.some.inj h ▸ .publish ho
    · cases h
  · rename_i ho
    split at h
    · cases h
    · rename_i hfin
      obtain ⟨f, hf, rfl⟩ := Option.map_eq_some_iff.mp h
      exact .read _ ho (Bool.eq_false_iff.mpr hfin) hf

theorem suits_elapse (time : Nat) {p : Phase} {openChannels : List Channel}
    (h : p.Suits openChannels) : (Phase.elapse time p).Suits openChannels := by
  cases p <;> exact h

theorem hand_elapse (time : Nat) (p : Phase) : (Phase.elapse time p).hand = p.hand := by
  cases p <;> rfl

theorem quiet_of_passTime (hc : r.Calm) (h : r.passTime = some r')
    (hu : r'.session.isCancelled = false) : r.Quiet [] r' := by
  unfold passTime at h
  split at h
  · obtain rfl := Option.some.inj h
    rw [isCancelled_cancel] at hu
    cases hu
  · split at h
    · cases h
    · obtain rfl := Option.some.inj h
      exact .idle (idles_of_eq (suits_elapse _ hc.phase) (hand_elapse ..)
        (Move.resembles_elapse ..) rfl rfl)

theorem quiet_of_take (hc : r.Calm) (hp : r.phase = .taking) (h : r.take = some r')
    (hu : r'.session.isCancelled = false) : r.Quiet [] r' := by
  unfold take at h
  split at h
  · split at h
    · rename_i hcancelled
      obtain rfl := Option.some.inj h
      exact absurd (hcancelled.symm.trans hu) (by decide)
    · cases h
  · rename_i hq
    exact absurd (hq ▸ List.mem_cons_self) hc.queue
  · rename_i ch queue hq
    exact Option.some.inj h ▸ .takeEnd hp hq
  · rename_i ch data queue hq
    have hphase : (if r.draining then .checking else .writing ch data) = Phase.writing ch data := by
      rw [hc.draining]
      rfl
    rw [hphase] at h
    exact Option.some.inj h ▸ .takeChunk hp hq

theorem write_eq_or (r : Relay) (ch : Channel) (data : Bytes) :
    (∃ o fault, (r.trees.get ch).write data r.session.outlets = (o, .error fault) ∧
      r.write ch data = ({ r with session := r.session.emit (.wrote ch data) }.withOutlets o).lose
        fault) ∨
    ∃ o n, (r.trees.get ch).write data r.session.outlets = (o, .ok n) ∧
      r.write ch data = { ({ r with session := r.session.emit (.wrote ch data) }.withOutlets o) with
        phase := .flushing ch } := by
  unfold write
  rcases (r.trees.get ch).write data r.session.outlets with ⟨o, fault | n⟩
  · exact .inl ⟨o, fault, rfl, rfl⟩
  · exact .inr ⟨o, n, rfl, rfl⟩

theorem flush_eq_or (r : Relay) (ch : Channel) :
    (∃ o fault, (r.trees.get ch).flush r.session.outlets = (o, .error fault) ∧
      r.flush ch = ({ r with session := r.session.emit (.flushed ch) }.withOutlets o).lose fault) ∨
    ∃ o, (r.trees.get ch).flush r.session.outlets = (o, .ok ()) ∧
      r.flush ch = { ({ r with session := r.session.emit (.flushed ch) }.withOutlets o) with
        phase := .checking } := by
  unfold flush
  rcases (r.trees.get ch).flush r.session.outlets with ⟨o, fault | ⟨⟩⟩
  · exact .inl ⟨o, fault, rfl, rfl⟩
  · exact .inr ⟨o, rfl, rfl⟩

/-- A relay that has lost output is disturbed. -/
theorem not_undisturbed_lose (r : Relay) (fault : AccessFault) : ¬ (r.lose fault).Undisturbed := by
  intro hu
  cases fault with
  | system e => cases hu.notLost
  | unencodable | invalid | endless | unsupported => cases hu.notBroken

/-- Where no alarm sounds, only the outlets are replaced. -/
theorem withOutlets_eq (r : Relay) {o : Outlets}
    (hu : (r.withOutlets o).session.isCancelled = false) :
    r.withOutlets o = { r with session := (r.withOutlets o).session } ∧
      (r.withOutlets o).session.effects = r.session.effects ∧
      (r.withOutlets o).session.outlets = { o with alarms := [] } := by
  have hs := stirs_withOutlets r o
  refine ⟨?_, hs.session.quiet hu, hs.session.outlets⟩
  have hrest := hs.rest
  rw [hs.quiet hu] at hrest
  exact hrest

theorem quiet_of_write {ch : Channel} {data : Bytes} (hp : r.phase = .writing ch data)
    (hu : (r.write ch data).Undisturbed) : r.Quiet [(ch, .write data)] (r.write ch data) := by
  rcases write_eq_or r ch data with ⟨o, fault, -, heq⟩ | ⟨o, n, hw, heq⟩
  · rw [heq] at hu
    exact absurd hu (not_undisturbed_lose _ fault)
  · rw [heq] at hu ⊢
    obtain ⟨hrest, he, ho⟩ := withOutlets_eq _ hu.notCancelled
    rw [hrest]
    exact .write hp hw he ho

theorem quiet_of_flush {ch : Channel} (hp : r.phase = .flushing ch)
    (hu : (r.flush ch).Undisturbed) : r.Quiet [(ch, .flush)] (r.flush ch) := by
  rcases flush_eq_or r ch with ⟨o, fault, -, heq⟩ | ⟨o, hf, heq⟩
  · rw [heq] at hu
    exact absurd hu (not_undisturbed_lose _ fault)
  · rw [heq] at hu ⊢
    obtain ⟨hrest, he, ho⟩ := withOutlets_eq _ hu.notCancelled
    rw [hrest]
    exact .flush hp hf he ho

/-- The coordinator begins to wait once all channels have ended, or goes on waiting. -/
theorem quiet_of_beginWait (ho : r.openChannels = []) (hp : r.phase.hand = .empty)
    (hu : r.beginWait.session.isCancelled = false) : r.Quiet [] r.beginWait := by
  have hbase : r.Idles { r with waits := r.waits + 1, phase := .waiting (max 1 r.plan.poll) } :=
    idles_of_eq ho hp.symm (.refl _) rfl rfl
  exact .idle (hbase.stirs (stirs_beginWait r) hu)

theorem quiet_of_reap (ho : r.openChannels = []) (hp : r.phase.hand = .empty)
    (hb : r.broken = none) : r.Quiet [] r.reap := by
  have hphase : r.reap.phase = .discarding r.plan.patience := by
    unfold reap
    simp [ignore, hb]
  have hmoves : r.reap.child.moves = r.child.moves := by
    unfold reap ignore Child.reap
    simp only
    split <;> rfl
  refine .idle ⟨rfl, rfl, rfl, rfl, rfl, ?_, ?_, ?_, ?_, rfl, .inl rfl⟩
  · rw [hphase]
    exact ho
  · rw [hphase, hp]
    rfl
  · rw [hmoves]
    exact .refl _
  · exact List.filterMap_append.trans (List.append_nil _)

theorem quiet_of_join {ch : Channel} {left : Nat} (ho : r.openChannels = [])
    (hp : r.phase.hand = .empty) (h : r.join ch left = some r') : r.Quiet [] r' := by
  have hnext (s : Session) (hc : s.calls = r.session.calls)
      (hs : s.outlets = r.session.outlets) :
      r.Quiet [] { r with session := s, phase := r.afterJoin ch } := by
    refine .idle (idles_of_eq ?_ ?_ (.refl _) hc hs)
    · cases ch <;> exact ho
    · rw [hp]
      cases ch <;> rfl
  unfold join at h
  simp only at h
  split at h
  · split at h <;> exact Option.some.inj h ▸ hnext _ rfl rfl
  · split at h
    · exact Option.some.inj h ▸ hnext _ rfl rfl
    · cases h

theorem quiet_of_moveCoordinator (hc : r.Calm) (hr : r.Undisturbed)
    (h : r.moveCoordinator = some r') (hu : r'.Undisturbed) : ∃ calls, r.Quiet calls r' := by
  have hphase := hc.phase
  unfold moveCoordinator at h
  split at h <;> rename_i hp <;> rw [hp] at hphase
  case h_1 =>
    have hhand : r.phase.hand = .empty := by rw [hp]; rfl
    split at h
    · rename_i ho
      obtain rfl := Option.some.inj h
      exact ⟨[], quiet_of_beginWait ho hhand hu.notCancelled⟩
    · rename_i ho
      rw [hr.notCancelled] at h
      exact Option.some.inj h ▸ ⟨[], .idle (idles_of_phase ho hhand.symm)⟩
  case h_2 => exact ⟨[], quiet_of_take hc hp h hu.notCancelled⟩
  case h_3 =>
    obtain rfl := Option.some.inj h
    exact ⟨_, quiet_of_write hp hu⟩
  case h_4 =>
    obtain rfl := Option.some.inj h
    exact ⟨_, quiet_of_flush hp hu⟩
  case h_5 =>
    have hhand : r.phase.hand = .empty := by rw [hp]; rfl
    split at h
    · exact Option.some.inj h ▸ ⟨[], quiet_of_reap hphase hhand hr.notBroken⟩
    · split at h
      · rw [hr.notCancelled] at h
        obtain rfl := Option.some.inj h
        exact ⟨[], quiet_of_beginWait hphase hhand hu.notCancelled⟩
      · cases h
  -- No calm relay abandons or stops its child, nor reaps a child that it has stopped.
  case h_6 | h_7 | h_8 => exact hphase.elim
  case h_9 =>
    rw [if_pos (.inl hphase)] at h
    exact Option.some.inj h ▸ ⟨[], .idle (idles_of_phase hphase (by rw [hp]; rfl))⟩
  case h_10 => exact ⟨[], quiet_of_join hphase (by rw [hp]; rfl) h⟩
  case h_11 => cases h

/-- Whoever moves in a relay that stays undisturbed, the turn is one of the list. -/
theorem quiet_of_turn {t : Turn} (hc : r.Calm) (h : r.turn t = some r') (hu : r'.Undisturbed) :
    ∃ calls, r.Quiet calls r' := by
  have hr := hu.of_advances (turn_advances h)
  cases t with
  | coordinator => exact quiet_of_moveCoordinator hc hr h hu
  | reader ch => exact ⟨[], quiet_of_moveReader h⟩
  | child => exact ⟨[], quiet_of_moveChild hc h⟩
  | time => exact ⟨[], quiet_of_passTime hc h hu.notCancelled⟩
  | cancel reason =>
      obtain rfl := Option.some.inj h
      have hcancelled := hu.notCancelled
      rw [isCancelled_cancel] at hcancelled
      cases hcancelled

/-! ## Calm relays -/

/-- What holds of the feed of a channel that is replaced, and of the other one before, holds of
both afterwards. -/
theorem forall_get_set {p : Channel → Feed → Prop} {feeds : PerChannel Feed} {ch : Channel}
    {f : Feed} (hf : p ch f) (h : ∀ ch', ch' ≠ ch → p ch' (feeds.get ch')) (ch' : Channel) :
    p ch' ((feeds.set ch f).get ch') := by
  by_cases heq : ch' = ch
  · subst heq
    rwa [PerChannel.get_set_self]
  · rw [PerChannel.get_set_of_ne _ heq]
    exact h ch' heq

theorem Quiet.calm {calls : List (Channel × Sink.Call)} (h : r.Quiet calls r') (hc : r.Calm) :
    r'.Calm := by
  have hset {ch : Channel} {f : Feed} (hf : .cancelled ∉ f.outbox) (ch' : Channel) :
      .cancelled ∉ ((r.feeds.set ch f).get ch').outbox :=
    forall_get_set (p := fun _ f => .cancelled ∉ f.outbox) hf (fun ch' _ => hc.outbox ch') ch'
  cases h with
  | idle h =>
      exact ⟨by rw [h.openChannels]; exact h.phase, h.draining.trans hc.draining,
        by rw [h.queue]; exact hc.queue, by rw [h.feeds]; exact hc.outbox,
        by rw [h.openChannels]; exact hc.nodup⟩
  | @output ch => exact ⟨hc.phase, hc.draining, hc.queue, hset (hc.outbox ch), hc.nodup⟩
  | @close ch =>
      refine ⟨hc.phase, hc.draining, hc.queue, hset ?_, hc.nodup⟩
      rw [Feed.outbox_close]
      exact hc.outbox ch
  | @read ch f closing ho hf hr =>
      refine ⟨hc.phase, hc.draining, hc.queue, hset ?_, hc.nodup⟩
      rcases Feed.read_eq_some hr with ⟨piece, pipe, -, rfl⟩ | ⟨ending, -, -, rfl⟩ <;> simp
  | @publish ch e outbox ho =>
      have hout := hc.outbox ch
      rw [ho] at hout
      obtain ⟨he, hout⟩ := List.ne_and_not_mem_of_not_mem_cons hout
      refine ⟨hc.phase, hc.draining, ?_, hset hout, hc.nodup⟩
      rw [List.mem_append, List.mem_singleton, not_or]
      exact ⟨hc.queue, he⟩
  | @takeChunk ch data queue hp hq =>
      have hqueue := hc.queue
      rw [hq] at hqueue
      exact ⟨trivial, hc.draining, fun hmem => hqueue (List.mem_cons_of_mem _ hmem), hc.outbox,
        hc.nodup⟩
  | @takeEnd ch queue hp hq =>
      have hqueue := hc.queue
      rw [hq] at hqueue
      exact ⟨trivial, hc.draining, fun hmem => hqueue (List.mem_cons_of_mem _ hmem), hc.outbox,
        hc.nodup.erase ch⟩
  | write | flush => exact ⟨trivial, hc.draining, hc.queue, hc.outbox, hc.nodup⟩

/-- The effects of a turn are the calls that it makes, as far as sinks are concerned. -/
theorem Quiet.calls_eq {calls : List (Channel × Sink.Call)} (h : r.Quiet calls r') :
    r'.session.calls = r.session.calls ++ calls := by
  cases h with
  | idle h => rw [h.calls, List.append_nil]
  | write hp hw he ho | flush hp hf he ho =>
      unfold Session.calls
      rw [he, List.filterMap_append]
      rfl
  | output | close | read | publish | takeChunk | takeEnd => exact (List.append_nil _).symm

theorem Quiet.trees_eq {calls : List (Channel × Sink.Call)} (h : r.Quiet calls r') :
    r'.trees = r.trees := by
  cases h with
  | idle h => exact h.trees
  | _ => rfl

/-- What every turn of the list keeps holds at the end of a schedule that leaves the relay
undisturbed, of the calls that were made on the way. -/
theorem follow_induction {p : List (Channel × Sink.Call) → Relay → Prop}
    (hstep : ∀ {done r new r'}, r.Calm → p done r → r.Quiet new r' → p (done ++ new) r')
    {done : List (Channel × Sink.Call)} {ts : List Turn} (hc : r.Calm) (hp : p done r)
    (h : r.follow ts = some r') (hu : r'.Undisturbed) :
    ∃ calls, r'.session.calls = r.session.calls ++ calls ∧ r'.Calm ∧ p (done ++ calls) r' := by
  induction ts generalizing r done with
  | nil =>
      obtain rfl := Option.some.inj h
      exact ⟨[], (List.append_nil _).symm, hc, by rwa [List.append_nil]⟩
  | cons t rest ih =>
      obtain ⟨next, ht, hrest⟩ := follow_cons_eq_some_iff.mp h
      obtain ⟨new, hq⟩ := quiet_of_turn hc ht (hu.of_advances (follow_advances hrest))
      obtain ⟨calls, hcalls, hcalm, hpr⟩ := ih (hq.calm hc) (hstep hc hp hq) hrest
      refine ⟨new ++ calls, ?_, hcalm, by rwa [← List.append_assoc]⟩
      rw [hcalls, hq.calls_eq, List.append_assoc]

end Relay

end CommandRelay
