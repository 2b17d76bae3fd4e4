import CommandRelay.Proofs.Relay.Quiet

/-!
# The way of a channel

What a child writes on a channel goes through the pipe, the reader and the queue before the
coordinator takes it. `Flows` accounts for all of it: what the coordinator has taken of a channel,
followed by what is in the queue and by what the reader has yet to publish, is always the same list
of chunks with the end marker behind. Each turn of an undisturbed relay moves something along that
way and keeps the list (`Flows.step`).
-/

namespace CommandRelay

/-- The channel that an event is about. -/
def Event.channel? : Event → Option Channel
  | .chunk ch _ | .ended ch => some ch
  | .cancelled => none

namespace Feed

/-- What the reader of a channel has yet to publish, if the child makes some more moves. -/
def toPublish (f : Feed) (ch : Channel) (moves : List Move) : List Event :=
  f.outbox ++ if f.finished then [] else
    (f.reader.publishes (f.pipe ++ if f.ended.isSome then [] else Move.reads ch moves)).map
      (.chunk ch) ++ [.ended ch]

/-- The end of a channel that a child has not disturbed: it publishes only what is its own, and the
child writes nothing after the end. -/
structure Sound (f : Feed) (ch : Channel) (moves : List Move) : Prop where
  outbox : ∀ e ∈ f.outbox, e.channel? = some ch
  pipe : ∀ piece ∈ f.pipe, piece ≠ []
  ending : f.ended = none ∧ Move.Orderly ch moves ∨ f.ended = some .quiet ∧ Move.Silent ch moves
  finished : f.finished = true → f.pipe = [] ∧ f.ended = some .quiet

variable {f f' : Feed} {ch : Channel} {moves moves' : List Move}

theorem Sound.resembles (h : f.Sound ch moves) (hm : Move.Resembles moves moves') :
    f.Sound ch moves' :=
  ⟨h.outbox, h.pipe, h.ending.imp (And.imp_right (hm.orderly ch)) (And.imp_right (hm.silent ch)),
    h.finished⟩

theorem toPublish_resembles (f : Feed) (hm : Move.Resembles moves moves') :
    f.toPublish ch moves' = f.toPublish ch moves := by
  unfold toPublish
  rw [hm.reads]

/-- The event that is published next comes first. -/
theorem toPublish_of_outbox {e : Event} {outbox : List Event} (ho : f.outbox = e :: outbox)
    (ch : Channel) (moves : List Move) :
    f.toPublish ch moves = e :: ({ f with outbox } : Feed).toPublish ch moves := by
  unfold toPublish
  rw [ho]
  rfl

/-! ### The turns of the child -/

/-- The first piece of an output goes into the pipe and the rest stays with the child. -/
theorem reads_output {data : Bytes} (hd : data ≠ []) (rest : List Move) :
    Move.reads ch (.output ch data :: rest) =
      data.take Stream.readSize :: Move.reads ch (Move.leftover ch data rest) := by
  rw [Move.reads, if_pos rfl, Stream.Source.pieces_of_ne_nil hd, List.cons_append, Move.leftover]
  split
  · rename_i hdrop
    rw [hdrop, Stream.Source.pieces_nil, List.nil_append]
  · rw [Move.reads, if_pos rfl]

theorem reads_output_of_ne {ch' : Channel} (hne : ch' ≠ ch) {data : Bytes} (rest : List Move) :
    Move.reads ch (Move.leftover ch' data rest) = Move.reads ch (.output ch' data :: rest) := by
  rw [Move.reads, if_neg hne, Move.leftover]
  split
  · rfl
  · rw [Move.reads, if_neg hne]

theorem orderly_leftover {ch' : Channel} {data : Bytes} {rest : List Move}
    (h : Move.Orderly ch (.output ch' data :: rest)) :
    Move.Orderly ch (Move.leftover ch' data rest) := by
  unfold Move.leftover
  split <;> exact h

theorem silent_leftover {ch' : Channel} (hne : ch' ≠ ch) {data : Bytes} {rest : List Move}
    (h : Move.Silent ch (.output ch' data :: rest)) :
    Move.Silent ch (Move.leftover ch' data rest) := by
  unfold Move.leftover
  split
  · exact h.tail
  · intro data' hmem
    rcases List.mem_cons.mp hmem with heq | hmem
    · exact hne (Move.output.inj heq).1.symm
    · exact h.tail data' hmem

/-- A child that still writes on a channel has not ended it. -/
theorem Sound.ended_of_output {data : Bytes} {rest : List Move}
    (h : f.Sound ch (.output ch data :: rest)) :
    f.ended = none ∧ Move.Orderly ch (.output ch data :: rest) :=
  h.ending.resolve_right fun hs => hs.2 data List.mem_cons_self

theorem Sound.output {data : Bytes} {rest : List Move} (h : f.Sound ch (.output ch data :: rest))
    (hd : data ≠ []) :
    ({ f with pipe := f.pipe ++ [data.take Stream.readSize] } : Feed).Sound ch
      (Move.leftover ch data rest) := by
  obtain ⟨hnone, horderly⟩ := h.ended_of_output
  refine ⟨h.outbox, fun piece hp => ?_, .inl ⟨hnone, orderly_leftover horderly⟩, fun hfin => ?_⟩
  · rcases List.mem_append.mp hp with hp | hp
    · exact h.pipe piece hp
    · rw [List.mem_singleton.mp hp, ne_eq, List.take_eq_nil_iff, not_or]
      exact ⟨by decide, hd⟩
  · cases hnone.symm.trans (h.finished hfin).2

theorem toPublish_output {data : Bytes} {rest : List Move}
    (h : f.Sound ch (.output ch data :: rest)) (hd : data ≠ []) :
    ({ f with pipe := f.pipe ++ [data.take Stream.readSize] } : Feed).toPublish ch
      (Move.leftover ch data rest) = f.toPublish ch (.output ch data :: rest) := by
  unfold toPublish
  rw [h.ended_of_output.1, reads_output hd]
  simp

theorem Sound.output_of_ne {ch' : Channel} {data : Bytes} {rest : List Move}
    (h : f.Sound ch (.output ch' data :: rest)) (hne : ch' ≠ ch) :
    f.Sound ch (Move.leftover ch' data rest) :=
  ⟨h.outbox, h.pipe, h.ending.imp (And.imp_right orderly_leftover)
    (And.imp_right (silent_leftover hne)), h.finished⟩

theorem toPublish_output_of_ne (f : Feed) {ch' : Channel} {data : Bytes} (rest : List Move)
    (hne : ch' ≠ ch) :
    f.toPublish ch (Move.leftover ch' data rest) =
      f.toPublish ch (.output ch' data :: rest) := by
  unfold toPublish
  rw [reads_output_of_ne hne]

theorem Sound.close {ending : Stream.Ending} {rest : List Move}
    (h : f.Sound ch (.close ch ending :: rest)) : (f.close ending).Sound ch rest := by
  rcases h.ending with ⟨hnone, horderly⟩ | ⟨hsome, hsilent⟩
  · rw [Move.Orderly, if_pos rfl] at horderly
    obtain ⟨rfl, hsilent⟩ := horderly
    have hclose : f.close .quiet = { f with ended := some .quiet } := by
      rw [Feed.close, hnone]
      rfl
    rw [hclose]
    exact ⟨h.outbox, h.pipe, .inr ⟨rfl, hsilent⟩, fun hfin => ⟨(h.finished hfin).1, rfl⟩⟩
  · have hclose : f.close ending = f := by
      rw [Feed.close, hsome]
      rfl
    rw [hclose]
    exact ⟨h.outbox, h.pipe, .inr ⟨hsome, hsilent.tail⟩, h.finished⟩

theorem toPublish_close (f : Feed) (ch : Channel) (ending : Stream.Ending) (rest : List Move) :
    (f.close ending).toPublish ch rest = f.toPublish ch (.close ch ending :: rest) := by
  have hreads : Move.reads ch (.close ch ending :: rest) = [] := by
    rw [Move.reads, if_pos rfl]
  unfold Feed.close toPublish
  rw [hreads]
  cases hended : f.ended <;> simp [hended]

theorem Sound.close_of_ne {ch' : Channel} {ending : Stream.Ending} {rest : List Move}
    (h : f.Sound ch (.close ch' ending :: rest)) (hne : ch' ≠ ch) : f.Sound ch rest := by
  refine ⟨h.outbox, h.pipe, h.ending.imp (And.imp_right fun ho => ?_)
    (And.imp_right Move.Silent.tail), h.finished⟩
  rwa [Move.Orderly, if_neg hne] at ho

theorem toPublish_close_of_ne (f : Feed) {ch' : Channel} (ending : Stream.Ending)
    (rest : List Move) (hne : ch' ≠ ch) :
    f.toPublish ch rest = f.toPublish ch (.close ch' ending :: rest) := by
  unfold toPublish
  rw [Move.reads, if_neg hne]

/-! ### The turns of the reader -/

/-- A read that gives a piece is published as its chunks, one at the end as the last chunks and the
end marker; either way the list of what is to be published stays. -/
theorem Sound.read {closing : Option SystemError} (h : f.Sound ch moves) (ho : f.outbox = [])
    (hf : f.finished = false) (hr : f.read ch closing = some f') :
    f'.Sound ch moves ∧ f'.toPublish ch moves = f.toPublish ch moves := by
  rcases read_eq_some hr with ⟨piece, pipe, hpipe, rfl⟩ | ⟨ending, hpipe, hended, rfl⟩
  · have hpieces := h.pipe
    rw [hpipe] at hpieces
    refine ⟨⟨fun e he => ?_, fun p hp => hpieces p (List.mem_cons_of_mem _ hp), h.ending,
      fun hfin => ?_⟩, ?_⟩
    · obtain ⟨data, -, rfl⟩ := List.mem_map.mp he
      rfl
    · cases hf.symm.trans hfin
    · unfold toPublish
      simp only [hf, ho, hpipe, Bool.false_eq_true, ↓reduceIte, List.nil_append, List.cons_append]
      rw [Stream.Reader.publishes_cons _ (hpieces piece List.mem_cons_self), List.map_append,
        List.append_assoc]
  · have hquiet : f.ended = some .quiet := by
      rcases h.ending with ⟨hnone, -⟩ | ⟨hsome, -⟩
      · cases hnone.symm.trans hended
      · exact hsome
    obtain rfl := Option.some.inj (hended.symm.trans hquiet)
    refine ⟨⟨fun e he => ?_, h.pipe, h.ending, fun _ => ⟨hpipe, hquiet⟩⟩, ?_⟩
    · rcases List.mem_append.mp he with he | he
      · obtain ⟨data, -, rfl⟩ := List.mem_map.mp he
        rfl
      · rw [List.mem_singleton.mp he]
        rfl
    · unfold toPublish
      simp only [hf, ho, hpipe, hquiet, ↓reduceIte, Bool.false_eq_true, Option.isSome_some,
        List.append_nil, List.nil_append, Stream.Reader.publishes_nil, Stream.Reader.conclude]

end Feed

/-! ## What the coordinator has taken -/

/-- What a hand holds of a channel. -/
def Hand.holding (ch : Channel) : Hand → List Event
  | .chunk ch' data => if ch' = ch then [.chunk ch data] else []
  | .empty | .written _ => []

/-- The chunks of a channel that calls write. -/
def writesOn (ch : Channel) (calls : List (Channel × Sink.Call)) : List Bytes :=
  calls.filterMap fun (ch', call) => if ch' = ch then call.data? else none

theorem writesOn_append (ch : Channel) (calls more : List (Channel × Sink.Call)) :
    writesOn ch (calls ++ more) = writesOn ch calls ++ writesOn ch more :=
  List.filterMap_append

namespace Relay

/-- What the coordinator has taken of a channel: what it has written, what it has in hand, and the
end marker once the channel is no longer open. -/
def taken (calls : List (Channel × Sink.Call)) (r : Relay) (ch : Channel) : List Event :=
  (writesOn ch calls).map (.chunk ch) ++ r.phase.hand.holding ch ++
    if ch ∈ r.openChannels then [] else [.ended ch]

/-- What is in the queue of a channel. -/
def queued (r : Relay) (ch : Channel) : List Event :=
  r.queue.filter (·.channel? = some ch)

theorem filter_channel_concat (queue : List Event) (e : Event) (ch : Channel) :
    (queue ++ [e]).filter (·.channel? = some ch) =
      queue.filter (·.channel? = some ch) ++ if e.channel? = some ch then [e] else [] := by
  rw [List.filter_append, List.filter_cons, List.filter_nil]
  simp only [decide_eq_true_eq]

section Taking

variable {calls : List (Channel × Sink.Call)} {r : Relay} {ch ch' : Channel} {data : Bytes}
  {queue : List Event} {s : Session}

/-- A chunk that is taken in hand goes from the queue to what has been taken. -/
theorem taken_takeChunk (ho : ch' = ch → ch ∈ r.openChannels) (hp : r.phase = .taking)
    (hq : r.queue = .chunk ch' data :: queue) :
    taken calls { r with queue, phase := .writing ch' data } ch ++
        queued { r with queue, phase := .writing ch' data } ch =
      r.taken calls ch ++ r.queued ch := by
  rw [taken, taken, queued, queued, hp, hq]
  by_cases hch : ch' = ch
  · subst hch
    simp [Phase.hand, Hand.holding, Event.channel?, ho rfl]
  · simp [Phase.hand, Hand.holding, Event.channel?, hch]

theorem taken_takeEnd (ho : ch' = ch → ch ∈ r.openChannels) (hn : r.openChannels.Nodup)
    (hp : r.phase = .taking) (hq : r.queue = .ended ch' :: queue) :
    taken calls { r with
          queue, openChannels := r.openChannels.erase ch', phase := .checking } ch ++
        queued { r with
          queue, openChannels := r.openChannels.erase ch', phase := .checking } ch =
      r.taken calls ch ++ r.queued ch := by
  rw [taken, taken, queued, queued, hp, hq]
  by_cases hch : ch' = ch
  · subst hch
    have hgone : ch' ∉ r.openChannels.erase ch' := hn.not_mem_erase
    simp [Phase.hand, Hand.holding, Event.channel?, ho rfl, hgone]
  · have hstay : ch ∈ r.openChannels.erase ch' ↔ ch ∈ r.openChannels :=
      List.mem_erase_of_ne (Ne.symm hch)
    simp [Phase.hand, Hand.holding, Event.channel?, hch, hstay]

/-- A chunk in hand that is written has been taken all the same. -/
theorem taken_write (hp : r.phase = .writing ch' data) :
    taken (calls ++ [(ch', .write data)]) { r with phase := .flushing ch', session := s } ch =
      r.taken calls ch := by
  rw [taken, taken, hp, writesOn_append]
  by_cases hch : ch' = ch
  · subst hch
    simp [Phase.hand, Hand.holding, writesOn, Sink.Call.data?]
  · simp [Phase.hand, Hand.holding, writesOn, hch]

theorem taken_flush (hp : r.phase = .flushing ch') :
    taken (calls ++ [(ch', .flush)]) { r with phase := .checking, session := s } ch =
      r.taken calls ch := by
  rw [taken, taken, hp, writesOn_append]
  simp [Phase.hand, Hand.holding, writesOn, Sink.Call.data?]

end Taking

/-- A channel on whose way nothing is lost: its events, taken, queued and yet to be published, are
given chunks and the end marker behind them. -/
structure Flows (chunks : List Bytes) (calls : List (Channel × Sink.Call)) (r : Relay)
    (ch : Channel) : Prop where
  sound : (r.feeds.get ch).Sound ch r.child.moves
  events : r.taken calls ch ++ r.queued ch ++ (r.feeds.get ch).toPublish ch r.child.moves =
    chunks.map (.chunk ch) ++ [.ended ch]

variable {chunks : List Bytes} {calls new : List (Channel × Sink.Call)} {r r' : Relay}
  {ch : Channel}

/-- Behind the end marker there is nothing. -/
theorem eq_nil_of_ended {front back : List Event}
    (h : front ++ .ended ch :: back = chunks.map (.chunk ch) ++ [.ended ch]) : back = [] := by
  induction chunks generalizing front with
  | nil =>
      cases front with
      | nil => exact (List.cons.inj h).2
      | cons e rest => simp at h
  | cons data rest ih =>
      cases front with
      | nil => cases (List.cons.inj h).1
      | cons e front => exact ih (List.cons.inj h).2

/-- Once the coordinator has taken the end marker of a channel, nothing of the channel is left. -/
theorem Flows.of_notMem (h : Flows chunks calls r ch) (ho : ch ∉ r.openChannels) :
    r.queued ch = [] ∧ (r.feeds.get ch).toPublish ch r.child.moves = [] := by
  have hevents := h.events
  rw [taken, if_neg ho, List.append_assoc, List.append_assoc, List.singleton_append] at hevents
  exact List.append_eq_nil_iff.mp (eq_nil_of_ended hevents)

/-- A channel that has anything left is open. -/
theorem Flows.mem_of_queue {e : Event} {queue : List Event} (h : Flows chunks calls r ch)
    (hq : r.queue = e :: queue) (he : e.channel? = some ch) : ch ∈ r.openChannels := by
  refine Decidable.byContradiction fun ho => ?_
  have hnil := (h.of_notMem ho).1
  rw [queued, hq, List.filter_cons_of_pos (by simpa using he)] at hnil
  cases hnil

/-- The end marker of an open channel is still to come. -/
theorem Flows.ended_mem (h : Flows chunks calls r ch) (ho : ch ∈ r.openChannels) :
    .ended ch ∈ r.queued ch ++ (r.feeds.get ch).toPublish ch r.child.moves := by
  have hmem : .ended ch ∈ r.taken calls ch ++ r.queued ch ++
      (r.feeds.get ch).toPublish ch r.child.moves := by
    rw [h.events]
    exact List.mem_append_right _ List.mem_cons_self
  rw [List.append_assoc] at hmem
  refine (List.mem_append.mp hmem).resolve_left fun htaken => ?_
  rw [taken, if_pos ho, List.append_nil] at htaken
  rcases List.mem_append.mp htaken with hmap | hhand
  · obtain ⟨data, -, heq⟩ := List.mem_map.mp hmap
    cases heq
  · unfold Hand.holding at hhand
    split at hhand
    · split at hhand
      · cases List.mem_singleton.mp hhand
      · cases hhand
    all_goals cases hhand

/-- As long as a channel is open and the queue is empty, the reader of the channel can move, unless
it waits for the child. -/
theorem Flows.reader_moves (h : Flows chunks calls r ch) (hcap : 0 < r.plan.capacity)
    (ho : ch ∈ r.openChannels) (hq : r.queue = []) :
    (r.moveReader ch).isSome = true ∨
      (r.feeds.get ch).pipe = [] ∧ (r.feeds.get ch).ended = none := by
  have hmem := h.ended_mem ho
  rw [queued, hq, List.filter_nil, List.nil_append, Feed.toPublish] at hmem
  unfold moveReader
  simp only
  split
  · left
    rw [hq, List.length_nil, if_pos hcap]
    rfl
  · rename_i hout
    rw [hout, List.nil_append] at hmem
    split
    · rename_i hfin
      rw [if_pos hfin] at hmem
      cases hmem
    · rw [Option.isSome_map, Feed.read]
      split
      · exact .inl rfl
      · exact .inl rfl
      · rename_i hpipe hended
        exact .inr ⟨hpipe, hended⟩

/-! ## The turns -/

/-- A turn that only changes feeds and the moves of the child, in a way that keeps what is to be
published. -/
theorem Flows.of_feed (h : Flows chunks calls r ch) (hp : r'.phase.hand = r.phase.hand)
    (ho : r'.openChannels = r.openChannels) (hq : r'.queue = r.queue)
    (hs : (r'.feeds.get ch).Sound ch r'.child.moves)
    (hpub : (r'.feeds.get ch).toPublish ch r'.child.moves =
      (r.feeds.get ch).toPublish ch r.child.moves) : Flows chunks calls r' ch where
  sound := hs
  events := by
    rw [hpub, ← h.events, taken, taken, queued, queued, hp, ho, hq]

/-- The feed of a channel is replaced, and the child makes its moves: the channel keeps what is to
be published, and so does the other one. -/
theorem Flows.of_set {ch' : Channel} {f : Feed} {child : Child} (h : Flows chunks calls r ch)
    (hself : ch' = ch → f.Sound ch child.moves ∧
      f.toPublish ch child.moves = (r.feeds.get ch).toPublish ch r.child.moves)
    (hother : ch' ≠ ch → (r.feeds.get ch).Sound ch child.moves ∧
      (r.feeds.get ch).toPublish ch child.moves =
        (r.feeds.get ch).toPublish ch r.child.moves) :
    Flows chunks calls { r with child, feeds := r.feeds.set ch' f } ch := by
  by_cases hch : ch' = ch
  · obtain ⟨hs, hpub⟩ := hself hch
    subst hch
    refine h.of_feed rfl rfl rfl ?_ ?_
    · rwa [PerChannel.get_set_self]
    · rwa [PerChannel.get_set_self]
  · obtain ⟨hs, hpub⟩ := hother hch
    refine h.of_feed rfl rfl rfl ?_ ?_
    · rwa [PerChannel.get_set_of_ne _ (Ne.symm hch)]
    · rwa [PerChannel.get_set_of_ne _ (Ne.symm hch)]

theorem Flows.idle (h : Flows chunks calls r ch) (hi : r.Idles r') : Flows chunks calls r' ch := by
  refine h.of_feed hi.hand hi.openChannels hi.queue ?_ ?_
  · rw [hi.feeds]
    exact h.sound.resembles hi.moves
  · rw [hi.feeds]
    exact Feed.toPublish_resembles _ hi.moves

theorem Flows.output {ch' : Channel} {data : Bytes} {rest : List Move}
    (h : Flows chunks calls r ch) (hm : r.child.moves = .output ch' data :: rest) (hd : data ≠ []) :
    Flows chunks calls { r with
      child := { r.child with moves := Move.leftover ch' data rest }
      feeds := r.feeds.set ch' { r.feeds.get ch' with
        pipe := (r.feeds.get ch').pipe ++ [data.take Stream.readSize] } } ch := by
  have hsound := h.sound
  rw [hm] at hsound
  refine h.of_set (fun hch => ?_) (fun hch => ?_) <;> rw [hm]
  · subst hch
    exact ⟨hsound.output hd, Feed.toPublish_output hsound hd⟩
  · exact ⟨hsound.output_of_ne hch, Feed.toPublish_output_of_ne _ rest hch⟩

theorem Flows.close {ch' : Channel} {ending : Stream.Ending} {rest : List Move}
    (h : Flows chunks calls r ch) (hm : r.child.moves = .close ch' ending :: rest) :
    Flows chunks calls { r with
      child := { r.child with moves := rest }
      feeds := r.feeds.set ch' ((r.feeds.get ch').close ending) } ch := by
  have hsound := h.sound
  rw [hm] at hsound
  refine h.of_set (fun hch => ?_) (fun hch => ?_) <;> rw [hm]
  · subst hch
    exact ⟨hsound.close, Feed.toPublish_close ..⟩
  · exact ⟨hsound.close_of_ne hch, Feed.toPublish_close_of_ne _ ending rest hch⟩

theorem Flows.read {ch' : Channel} {f : Feed} {closing : Option SystemError}
    (h : Flows chunks calls r ch) (ho : (r.feeds.get ch').outbox = [])
    (hf : (r.feeds.get ch').finished = false)
    (hr : (r.feeds.get ch').read ch' closing = some f) :
    Flows chunks calls { r with feeds := r.feeds.set ch' f } ch := by
  refine h.of_set (fun hch => ?_) (fun _ => ⟨h.sound, rfl⟩)
  subst hch
  exact h.sound.read ho hf hr

/-- An event goes from the reader of its channel into the queue. -/
theorem Flows.publish {ch' : Channel} {e : Event} {outbox : List Event}
    (h : Flows chunks calls r ch) (he : e.channel? = some ch')
    (ho : (r.feeds.get ch').outbox = e :: outbox) :
    Flows chunks calls { r with
      queue := r.queue ++ [e]
      feeds := r.feeds.set ch' { r.feeds.get ch' with outbox } } ch := by
  by_cases hch : ch' = ch
  · subst hch
    refine ⟨?_, ?_⟩
    · rw [PerChannel.get_set_self]
      exact ⟨fun e' he' => h.sound.outbox e' (ho ▸ List.mem_cons_of_mem _ he'), h.sound.pipe,
        h.sound.ending, h.sound.finished⟩
    · rw [PerChannel.get_set_self, ← h.events, Feed.toPublish_of_outbox ho, queued,
        filter_channel_concat, if_pos he, taken, taken, queued]
      simp only [List.append_assoc, List.singleton_append]
  · refine ⟨?_, ?_⟩
    · rw [PerChannel.get_set_of_ne _ (Ne.symm hch)]
      exact h.sound
    · have hne : e.channel? ≠ some ch := fun heq => hch (Option.some.inj (he.symm.trans heq))
      rw [PerChannel.get_set_of_ne _ (Ne.symm hch), queued, filter_channel_concat, if_neg hne,
        List.append_nil]
      exact h.events

/-! ### The turns of the coordinator -/

/-- The coordinator takes a chunk in hand. -/
theorem Flows.takeChunk {ch' : Channel} {data : Bytes} {queue : List Event}
    (h : Flows chunks calls r ch) (hp : r.phase = .taking)
    (hq : r.queue = .chunk ch' data :: queue) :
    Flows chunks calls { r with queue, phase := .writing ch' data } ch := by
  refine ⟨h.sound, ?_⟩
  rw [taken_takeChunk (fun hch => h.mem_of_queue hq (hch ▸ rfl)) hp hq]
  exact h.events

/-- The coordinator takes an end marker. -/
theorem Flows.takeEnd {ch' : Channel} {queue : List Event} (h : Flows chunks calls r ch)
    (hc : r.Calm) (hp : r.phase = .taking) (hq : r.queue = .ended ch' :: queue) :
    Flows chunks calls { r with
      queue, openChannels := r.openChannels.erase ch', phase := .checking } ch := by
  refine ⟨h.sound, ?_⟩
  rw [taken_takeEnd (fun hch => h.mem_of_queue hq (hch ▸ rfl)) hc.nodup hp hq]
  exact h.events

/-- The coordinator writes what it has in hand. -/
theorem Flows.write {ch' : Channel} {data : Bytes} {s : Session} (h : Flows chunks calls r ch)
    (hp : r.phase = .writing ch' data) :
    Flows chunks (calls ++ [(ch', .write data)])
      { r with phase := .flushing ch', session := s } ch :=
  ⟨h.sound, by rw [taken_write hp]; exact h.events⟩

theorem Flows.flush {ch' : Channel} {s : Session} (h : Flows chunks calls r ch)
    (hp : r.phase = .flushing ch') :
    Flows chunks (calls ++ [(ch', .flush)]) { r with phase := .checking, session := s } ch :=
  ⟨h.sound, by rw [taken_flush hp]; exact h.events⟩

/-- A fresh relay has everything that its child will write before it. -/
theorem flows_of_fresh (hfeed : r.feeds.get ch = {}) (hq : r.queue = [])
    (ho : ch ∈ r.openChannels) (hp : r.phase.hand = .empty)
    (hm : Move.Orderly ch r.child.moves) :
    Flows (Stream.Reader.publishes {} (Move.reads ch r.child.moves)) [] r ch := by
  refine ⟨?_, ?_⟩
  · rw [hfeed]
    exact ⟨fun _ h => absurd h List.not_mem_nil, fun _ h => absurd h List.not_mem_nil,
      .inl ⟨rfl, hm⟩, fun hfin => nomatch hfin⟩
  · rw [hfeed, taken, queued, hq, hp, if_pos ho]
    rfl

/-- No turn of an undisturbed relay loses anything on the way. -/
theorem Flows.step {chunks : Channel → List Bytes} (h : ∀ ch, Flows (chunks ch) calls r ch)
    (hc : r.Calm) (hq : r.Quiet new r') (ch : Channel) :
    Flows (chunks ch) (calls ++ new) r' ch := by
  cases hq with
  | idle hi => rw [List.append_nil]; exact (h ch).idle hi
  | output hm hd => rw [List.append_nil]; exact (h ch).output hm hd
  | close hm => rw [List.append_nil]; exact (h ch).close hm
  | read closing ho hf hr => rw [List.append_nil]; exact (h ch).read ho hf hr
  | @publish ch' e outbox ho =>
      rw [List.append_nil]
      exact (h ch).publish ((h ch').sound.outbox e (ho ▸ List.mem_cons_self)) ho
  | takeChunk hp hq => rw [List.append_nil]; exact (h ch).takeChunk hp hq
  | takeEnd hp hq => rw [List.append_nil]; exact (h ch).takeEnd hc hp hq
  | write hp => exact (h ch).write hp
  | flush hp => exact (h ch).flush hp

end Relay

end CommandRelay
