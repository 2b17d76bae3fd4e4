import CommandRelay.Proofs.Relay.Copying

/-!
# Lossless relays

The accounts of the channels, the calls, the sinks and the files are put together here: whatever
the schedule, what an undisturbed relay has copied once the coordinator has left the copying is all
that the child wrote, chunk by chunk and in the order of each channel (`Accounts.copied`). As long
as the coordinator copies, somebody can move or the child keeps a channel open
(`moves_of_copying`).
-/

namespace CommandRelay

/-- The chunks that the output of moves on a channel comes to. -/
def Move.chunks (ch : Channel) (moves : List Move) : List Bytes :=
  Stream.Reader.publishes {} (Move.reads ch moves)

theorem Move.flatten_chunks (ch : Channel) (moves : List Move) :
    (Move.chunks ch moves).flatten = Move.written ch moves :=
  Move.flatten_publishes_reads ch moves

/-- The chunks of a channel among those that were copied. -/
def chunksOn (ch : Channel) (copies : List (Channel × Bytes)) : List Bytes :=
  (copies.filter (·.1 = ch)).map (·.2)

/-- The chunks that a sink was given, among those that were copied. -/
def chunksAt (trees : PerChannel SinkTree) (i : Nat) (copies : List (Channel × Bytes)) :
    List Bytes :=
  (copies.filter fun c => i ∈ (trees.get c.1).leaves).map (·.2)

/-- The calls that copy chunks to one sink: each is written and flushed. -/
def copyCalls (chunks : List Bytes) : List Sink.Call :=
  chunks.flatMap fun data => [.write data, .flush]

theorem data_copyCalls (chunks : List Bytes) :
    (copyCalls chunks).filterMap Sink.Call.data? = chunks := by
  induction chunks with
  | nil => rfl
  | cons data rest ih =>
      rw [copyCalls, List.flatMap_cons, List.filterMap_append]
      exact congrArg (data :: ·) ih

theorem writesOn_copies (ch : Channel) (copies : List (Channel × Bytes)) :
    writesOn ch (copies.flatMap copy) = chunksOn ch copies := by
  induction copies with
  | nil => rfl
  | cons c rest ih =>
      rw [List.flatMap_cons, writesOn_append, ih]
      by_cases hc : c.1 = ch <;> simp [copy, writesOn, chunksOn, Sink.Call.data?, hc]

theorem callsTo_copies (trees : PerChannel SinkTree) (i : Nat)
    (copies : List (Channel × Bytes)) :
    callsTo trees i (copies.flatMap copy) = copyCalls (chunksAt trees i copies) := by
  induction copies with
  | nil => rfl
  | cons c rest ih =>
      rw [List.flatMap_cons, callsTo_append, ih]
      by_cases hc : i ∈ (trees.get c.1).leaves <;>
        simp [copy, callsTo, copyCalls, chunksAt, hc]

/-- A sink that stands in the composite of one channel only is given the chunks of that channel. -/
theorem chunksAt_of_own {trees : PerChannel SinkTree} {i : Nat} {ch : Channel}
    (h : ∀ ch', i ∈ (trees.get ch').leaves ↔ ch' = ch) (copies : List (Channel × Bytes)) :
    chunksAt trees i copies = chunksOn ch copies := by
  unfold chunksAt chunksOn
  congr 2
  funext c
  exact decide_eq_decide.mpr (h c.1)

/-- A sink that stands in both composites is given everything, in the order of the copying. -/
theorem chunksAt_of_shared {trees : PerChannel SinkTree} {i : Nat}
    (h : ∀ ch, i ∈ (trees.get ch).leaves) (copies : List (Channel × Bytes)) :
    chunksAt trees i copies = copies.map (·.2) := by
  unfold chunksAt
  rw [List.filter_eq_self.mpr fun c _ => decide_eq_true (h c.1)]

/-- A sink that stands in no composite is given nothing. -/
theorem chunksAt_of_none {trees : PerChannel SinkTree} {i : Nat}
    (h : ∀ ch, i ∉ (trees.get ch).leaves) (copies : List (Channel × Bytes)) :
    chunksAt trees i copies = [] := by
  unfold chunksAt
  rw [List.filter_eq_nil_iff.mpr fun c _ => by simpa using h c.1, List.map_nil]

/-- Whether the coordinator copies. -/
def Phase.isCopying : Phase → Bool
  | .checking | .taking | .writing .. | .flushing _ => true
  | _ => false

/-- A coordinator that no longer copies has nothing in hand. -/
theorem Phase.hand_eq_empty {p : Phase} (hp : p.isCopying = false) : p.hand = .empty := by
  cases p with
  | writing | flushing => cases hp
  | _ => rfl

namespace Relay

/-- A relay that has not begun to copy. -/
structure Fresh (r : Relay) : Prop where
  feeds : ∀ ch, r.feeds.get ch = {}
  queue : r.queue = []
  openChannels : r.openChannels = Channel.all
  phase : r.phase = .checking
  draining : r.draining = false

variable {r r' : Relay}

theorem Fresh.calm (h : r.Fresh) : r.Calm where
  phase := by rw [h.phase]; trivial
  draining := h.draining
  queue := by rw [h.queue]; exact List.not_mem_nil
  outbox := fun ch => by rw [h.feeds]; exact List.not_mem_nil
  nodup := by rw [h.openChannels]; decide

/-- The accounts of a relay since it was fresh, with the calls that it has made. -/
structure Accounts (start : Relay) (calls : List (Channel × Sink.Call)) (r : Relay) : Prop where
  trees : r.trees = start.trees
  paired : Paired r.phase.hand calls
  flows : ∀ ch, Flows (Move.chunks ch start.child.moves) calls r ch
  received : r.Received start.session.outlets calls
  filed : ∀ i names, start.Filed i names [] → r.Filed i names calls

theorem Fresh.accounts (h : r.Fresh) (horderly : ∀ ch, Move.Orderly ch r.child.moves) :
    r.Accounts [] r where
  trees := rfl
  paired := by
    rw [h.phase]
    exact .empty []
  flows := fun ch => by
    refine flows_of_fresh (h.feeds ch) h.queue ?_ ?_ (horderly ch)
    · rw [h.openChannels]
      cases ch <;> decide
    · rw [h.phase]
      rfl
  received := fun i s hs => ⟨s, hs, .nil⟩
  filed := fun _ _ => id

theorem Accounts.step {start : Relay} {calls new : List (Channel × Sink.Call)}
    (hflat : ∀ ch, (start.trees.get ch).IsFlat) (hc : r.Calm) (h : start.Accounts calls r)
    (hq : r.Quiet new r') : start.Accounts (calls ++ new) r' := by
  have hflat' : ∀ ch, (r.trees.get ch).IsFlat := by rwa [h.trees]
  exact
    { trees := hq.trees_eq.trans h.trees
      paired := paired_step h.paired hq
      flows := Flows.step h.flows hc hq
      received := h.received.step hflat' hq
      filed := fun i names hf => (h.filed i names hf).step hflat' hq }

/-- The accounts hold at every moment of an undisturbed relay. -/
theorem Fresh.accounts_of_follow {ts : List Turn} (h : r.Fresh)
    (hflat : ∀ ch, (r.trees.get ch).IsFlat) (horderly : ∀ ch, Move.Orderly ch r.child.moves)
    (hf : r.follow ts = some r') (hu : r'.Undisturbed) :
    ∃ calls, r'.session.calls = r.session.calls ++ calls ∧ r'.Calm ∧ r.Accounts calls r' :=
  follow_induction (fun hc ha hq => ha.step hflat hc hq) h.calm (h.accounts horderly) hf hu

/-! ## While the coordinator copies -/

/-- The coordinator can move, or the reader of an open channel, unless the child has something to
do first. -/
theorem moves_of_copying {start : Relay} {calls : List (Channel × Sink.Call)} (hc : r.Calm)
    (ha : start.Accounts calls r) (hcap : 0 < r.plan.capacity) (hp : r.phase.isCopying = true) :
    r.moveCoordinator.isSome = true ∨
      ∃ ch ∈ r.openChannels, (r.moveReader ch).isSome = true ∨
        (r.feeds.get ch).pipe = [] ∧ (r.feeds.get ch).ended = none := by
  unfold moveCoordinator
  split <;> rename_i hphase <;> rw [hphase] at hp
  case h_1 =>
    left
    split
    · rfl
    · split <;> rfl
  case h_2 =>
    have hopen := hc.phase
    rw [hphase] at hopen
    obtain ⟨ch, hch⟩ := List.exists_mem_of_ne_nil _ hopen
    cases hq : r.queue with
    | nil => exact .inr ⟨ch, hch, (ha.flows ch).reader_moves hcap hch hq⟩
    | cons e queue =>
        left
        unfold take
        rw [hq]
        cases e <;> rfl
  case h_3 => exact .inl rfl
  case h_4 => exact .inl rfl
  all_goals cases hp

/-! ## Once the coordinator has copied everything -/

/-- Nothing is left of any channel: all have ended, no event is in the queue, and no reader has
anything to publish or to read. -/
structure Drained (r : Relay) : Prop where
  ended : r.openChannels = []
  queue : r.queue = []
  outbox : ∀ ch, (r.feeds.get ch).outbox = []
  finished : ∀ ch, (r.feeds.get ch).finished = true
  pipe : ∀ ch, (r.feeds.get ch).pipe = []

theorem Calm.openChannels_eq_nil (h : r.Calm) (hp : r.phase.isCopying = false) :
    r.openChannels = [] := by
  have hphase := h.phase
  unfold Phase.Suits at hphase
  split at hphase <;> simp_all [Phase.isCopying]

theorem Accounts.drained {start : Relay} {calls : List (Channel × Sink.Call)} (hc : r.Calm)
    (ha : start.Accounts calls r) (ho : r.openChannels = []) : r.Drained := by
  have hleft (ch : Channel) := (ha.flows ch).of_notMem (by rw [ho]; exact List.not_mem_nil)
  have hfeed (ch : Channel) :
      (r.feeds.get ch).outbox = [] ∧ (r.feeds.get ch).finished = true := by
    obtain ⟨hout, hrest⟩ := List.append_eq_nil_iff.mp (hleft ch).2
    refine ⟨hout, ?_⟩
    split at hrest
    · assumption
    · simp at hrest
  refine ⟨ho, ?_, fun ch => (hfeed ch).1, fun ch => (hfeed ch).2, fun ch =>
    ((ha.flows ch).sound.finished (hfeed ch).2).1⟩
  refine List.eq_nil_iff_forall_not_mem.mpr fun e he => ?_
  cases hch : e.channel? with
  | none =>
      cases e with
      | cancelled => exact hc.queue he
      | chunk | ended => cases hch
  | some ch =>
      have hmem : e ∈ r.queued ch := List.mem_filter.mpr ⟨he, by simpa using hch⟩
      rw [(hleft ch).1] at hmem
      cases hmem

/-- What a relay has copied, if nothing was lost: the chunks of each channel in their order, which
are the bytes that the child wrote; each sink has taken, each chunk written and flushed in turn, the
chunks of the channels that it stands in. -/
structure Copied (start : Relay) (copies : List (Channel × Bytes)) (r : Relay) : Prop where
  order : ∀ ch, chunksOn ch copies = Move.chunks ch start.child.moves
  bytes : ∀ ch, (chunksOn ch copies).flatten = Move.written ch start.child.moves
  calls : r.session.calls = start.session.calls ++ copies.flatMap copy
  sinks : ∀ (i : Nat) (s : Sink), start.session.outlets.sinks[i]? = some s →
    ∃ s', r.session.outlets.sinks[i]? = some s' ∧
      s.TakesAll (copyCalls (chunksAt start.trees i copies)) s' ∧
      Sink.Gains (chunksAt start.trees i copies) s s'
  files : ∀ i names, start.Filed i names [] →
    r.session.outlets.Owns i names (chunksAt start.trees i copies).flatten []

theorem Accounts.copied {start : Relay} {calls : List (Channel × Sink.Call)} (hc : r.Calm)
    (hcalls : r.session.calls = start.session.calls ++ calls) (ha : start.Accounts calls r)
    (hp : r.phase.isCopying = false) : ∃ copies, start.Copied copies r := by
  -- With nothing in hand, the calls come to whole copies.
  have hhand := Phase.hand_eq_empty hp
  have hd := ha.drained hc (hc.openChannels_eq_nil hp)
  have hpaired := ha.paired
  rw [hhand] at hpaired
  cases hpaired with
  | empty copies =>
      have horder (ch : Channel) : chunksOn ch copies = Move.chunks ch start.child.moves := by
        have hevents := (ha.flows ch).events
        obtain ⟨hq, hpub⟩ := (ha.flows ch).of_notMem (by rw [hd.ended]; exact List.not_mem_nil)
        rw [hq, hpub, taken, hhand, hd.ended, if_neg List.not_mem_nil, writesOn_copies] at hevents
        simp only [Hand.holding, List.append_nil] at hevents
        exact (List.map_inj_right fun _ _ heq => (Event.chunk.inj heq).2).mp
          (List.append_cancel_right hevents)
      refine ⟨copies, horder, fun ch => ?_, hcalls, fun i s hs => ?_, fun i names hf => ?_⟩
      · rw [horder, Move.flatten_chunks]
      · obtain ⟨s', hs', htakes⟩ := ha.received i s hs
        rw [ha.trees, callsTo_copies] at htakes
        have hgains := htakes.gains
        rw [data_copyCalls] at hgains
        exact ⟨s', hs', htakes, hgains⟩
      · obtain ⟨content, waiting, howns, happ, hwait⟩ := (ha.filed i names hf).owns
        have hnil : waiting = [] := by
          rcases hwait with hnil | ⟨ch, hch, -⟩
          · exact hnil
          · rw [hhand] at hch
            cases hch
        subst hnil
        rw [List.append_nil, ha.trees, callsTo_copies, data_copyCalls] at happ
        rwa [← happ]

end Relay

end CommandRelay
